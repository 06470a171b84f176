import OmniMemory.Python

/-! `hashlib.sha256`: the digest as a word of 256 bits and `hexdigest` as its hexadecimal form. -/

namespace OmniMemory

/-- A SHA-256 digest. -/
abbrev Digest := BitVec 256

namespace Sha256

def initial : List UInt32 :=
  [0x6a09e667, 0xbb67ae85, 0x3c6ef372, 0xa54ff53a, 0x510e527f, 0x9b05688c, 0x1f83d9ab, 0x5be0cd19]

def constants : List UInt32 :=
  [0x428a2f98, 0x71374491, 0xb5c0fbcf, 0xe9b5dba5, 0x3956c25b, 0x59f111f1, 0x923f82a4, 0xab1c5ed5,
    0xd807aa98, 0x12835b01, 0x243185be, 0x550c7dc3, 0x72be5d74, 0x80deb1fe, 0x9bdc06a7, 0xc19bf174,
    0xe49b69c1, 0xefbe4786, 0x0fc19dc6, 0x240ca1cc, 0x2de92c6f, 0x4a7484aa, 0x5cb0a9dc, 0x76f988da,
    0x983e5152, 0xa831c66d, 0xb00327c8, 0xbf597fc7, 0xc6e00bf3, 0xd5a79147, 0x06ca6351, 0x14292967,
    0x27b70a85, 0x2e1b2138, 0x4d2c6dfc, 0x53380d13, 0x650a7354, 0x766a0abb, 0x81c2c92e, 0x92722c85,
    0xa2bfe8a1, 0xa81a664b, 0xc24b8b70, 0xc76c51a3, 0xd192e819, 0xd6990624, 0xf40e3585, 0x106aa070,
    0x19a4c116, 0x1e376c08, 0x2748774c, 0x34b0bcb5, 0x391c0cb3, 0x4ed8aa4a, 0x5b9cca4f, 0x682e6ff3,
    0x748f82ee, 0x78a5636f, 0x84c87814, 0x8cc70208, 0x90befffa, 0xa4506ceb, 0xbef9a3f7, 0xc67178f2]

def rotr (x : UInt32) (n : UInt32) : UInt32 := (x >>> n) ||| (x <<< (32 - n))

/-- The message with a one bit, zeros and its length in bits, in whole blocks of 64 bytes. -/
def pad (message : Bytes) : Bytes :=
  let zeros : Bytes := List.replicate ((119 - message.length % 64) % 64) 0
  let bits := message.length * 8
  let length : Bytes := [56, 48, 40, 32, 24, 16, 8, 0].map fun shift => UInt8.ofNat (bits >>> shift)
  message ++ 0x80 :: zeros ++ length

/-- The big-endian words of a block. -/
def words : Bytes → List UInt32
  | a :: b :: c :: d :: rest =>
    ((a.toUInt32 <<< 24) ||| (b.toUInt32 <<< 16) ||| (c.toUInt32 <<< 8) ||| d.toUInt32) :: words rest
  | _ => []

/-- The message schedule, from the last 16 words, the latest first: each step adds one word. -/
def extend : Nat → List UInt32 → List UInt32
  | 0, ws => ws
  | n + 1, ws =>
    let w (i : Nat) := ws.getD (i - 1) 0
    let s0 := rotr (w 15) 7 ^^^ rotr (w 15) 18 ^^^ (w 15 >>> 3)
    let s1 := rotr (w 2) 17 ^^^ rotr (w 2) 19 ^^^ (w 2 >>> 10)
    extend n ((w 16 + s0 + w 7 + s1) :: ws)

/-- One round, with the sum of its constant and its word of the schedule. -/
def round (state : List UInt32) (kw : UInt32) : List UInt32 :=
  match state with
  | [a, b, c, d, e, f, g, h] =>
    let s1 := rotr e 6 ^^^ rotr e 11 ^^^ rotr e 25
    let t1 := h + s1 + ((e &&& f) ^^^ ((~~~ e) &&& g)) + kw
    let s0 := rotr a 2 ^^^ rotr a 13 ^^^ rotr a 22
    let t2 := s0 + ((a &&& b) ^^^ (a &&& c) ^^^ (b &&& c))
    [t1 + t2, a, b, c, d + t1, e, f, g]
  | other => other

def compress (state : List UInt32) (block : Bytes) : List UInt32 :=
  let schedule := (extend 48 (words block).reverse).reverse
  let mixed := (List.zipWith (· + ·) constants schedule).foldl round state
  List.zipWith (· + ·) state mixed

/-- The state after `n` blocks. -/
def blocks : Nat → List UInt32 → Bytes → List UInt32
  | 0, state, _ => state
  | n + 1, state, bytes => blocks n (compress state (bytes.take 64)) (bytes.drop 64)

end Sha256

/-- `hashlib.sha256(message).digest()`. -/
def sha256 (message : Bytes) : Digest :=
  let padded := Sha256.pad message
  BitVec.ofNat 256 ((Sha256.blocks (padded.length / 64) Sha256.initial padded).foldl
    (fun n word => n <<< 32 ||| word.toNat) 0)

/-- `hexdigest`. -/
def Digest.hex (d : Digest) : String := String.ofList (hexDigits 64 d.toNat)

theorem Digest.hex_inj {d d' : Digest} (same : d.hex = d'.hex) : d = d' := by
  have bound (d : Digest) : d.toNat < 16 ^ 64 := by
    have whole : (16 : Nat) ^ 64 = 2 ^ 256 := by decide
    rw [whole]
    exact d.isLt
  exact BitVec.eq_of_toNat_eq (hexDigits_inj (bound d) (bound d') (String.ofList_inj.mp same))

theorem Digest.toList_hex (d : Digest) : d.hex.toList = hexDigits 64 d.toNat :=
  String.toList_ofList

example : sha256 [] = 0xe3b0c44298fc1c149afbf4c8996fb92427ae41e4649b934ca495991b7852b855 := by
  decide +kernel

example : sha256 [0x61, 0x62, 0x63] =
    0xba7816bf8f01cfea414140de5dae2223b00361a396177a9cb410ff61f20015ad := by
  decide +kernel

end OmniMemory
