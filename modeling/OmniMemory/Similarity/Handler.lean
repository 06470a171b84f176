import Mathlib.Algebra.Order.Field.Basic
import Mathlib.Algebra.Order.Ring.Rat
import OmniMemory.Python

/-! `HandlerSimilarityCompute`, over numbers that are not rounded: the check of two vectors, which adds
up their magnitudes on the way, and the two distances. -/

namespace OmniMemory

namespace Similarity

/-- An element of a vector. -/
inductive Element (K : Type) where
  | number (x : K)
  | nan
  | infinite (negative : Bool)

/-- The square root, and the text of a number as `f"{x:.2e}"` gives it. -/
structure Arithmetic (K : Type) where
  sqrt : K → K
  format : K → String

variable {K : Type} [Field K] [LinearOrder K]

/-- `ModelHandlerSimilarityComputeConfig`. -/
structure Config (K : Type) [Field K] [LinearOrder K] where
  epsilon : K
  positive : 0 < epsilon

/-- The handler, initialized with a config or not. -/
structure Handler (K : Type) [Field K] [LinearOrder K] where
  config : Option (Config K)

def notInitialized : PyError :=
  .runtimeError "HandlerSimilarityCompute is not initialized. Call initialize() before using the handler."

/-- The number of an element that is neither a NaN nor infinite. -/
def validateElement (name : String) (i : ℕ) : Element K → Except PyError K
  | .number x => .ok x
  | .nan => .error (.valueError s!"{name} contains NaN at index {i}")
  | .infinite negative =>
    let sign := if negative then "negative" else "positive"
    .error (.valueError s!"{name} contains {sign} infinity at index {i}")

/-- The pass through both vectors from an index on: the sums of squares, when they are needed. -/
def validateElements (checkZeroMagnitude : Bool) :
    ℕ → List (Element K × Element K) → K × K → Except PyError (K × K)
  | _, [], sums => .ok sums
  | i, (a, b) :: rest, (sumSqA, sumSqB) =>
    match validateElement "vec_a" i a with
    | .error e => .error e
    | .ok a =>
      match validateElement "vec_b" i b with
      | .error e => .error e
      | .ok b =>
        validateElements checkZeroMagnitude (i + 1) rest
          (if checkZeroMagnitude then (sumSqA + a * a, sumSqB + b * b) else (sumSqA, sumSqB))

variable (M : Arithmetic K) (self : Handler K)

/-- `_validate_vectors`. -/
def validateVectors (vecA vecB : List (Element K)) (checkZeroMagnitude : Bool) :
    Except PyError (K × K) :=
  if vecA.length = 0 then .error (.valueError "vec_a cannot be empty")
  else if vecB.length = 0 then .error (.valueError "vec_b cannot be empty")
  else if vecA.length ≠ vecB.length then
    .error (.valueError (s!"Dimension mismatch: vec_a has {vecA.length} dimensions, " ++
      s!"vec_b has {vecB.length} dimensions"))
  else
    match validateElements checkZeroMagnitude 0 (vecA.zip vecB) (0, 0) with
    | .error e => .error e
    | .ok (sumSqA, sumSqB) =>
      if checkZeroMagnitude then
        match self.config with
        | none => .error notInitialized
        | some config =>
          let magA := M.sqrt sumSqA
          let magB := M.sqrt sumSqB
          if magA < config.epsilon then
            .error (.valueError s!"vec_a has zero magnitude (sum of squares: {M.format sumSqA})")
          else if magB < config.epsilon then
            .error (.valueError s!"vec_b has zero magnitude (sum of squares: {M.format sumSqB})")
          else .ok (magA, magB)
      else .ok (0, 0)

/-- The number that an element is, after the check. -/
def Element.value : Element K → K
  | number x => x
  | nan | infinite _ => 0

/-- `math.fsum` of the products. -/
def dotProduct (vecA vecB : List (Element K)) : K :=
  ((vecA.zip vecB).map fun p => p.1.value * p.2.value).sum

/-- `max(-1.0, min(1.0, x))`. -/
def clamp (x : K) : K := max (-1) (min 1 x)

/-- `cosine_distance`. -/
def cosineDistance (vecA vecB : List (Element K)) : Except PyError K :=
  match self.config with
  | none => .error notInitialized
  | some _ =>
    match validateVectors M self vecA vecB true with
    | .error e => .error e
    | .ok (magA, magB) => .ok (1 - clamp (dotProduct vecA vecB / (magA * magB)))

/-- `euclidean_distance`. -/
def euclideanDistance (vecA vecB : List (Element K)) : Except PyError K :=
  match self.config with
  | none => .error notInitialized
  | some _ =>
    match validateVectors M self vecA vecB false with
    | .error e => .error e
    | .ok _ =>
      .ok (M.sqrt ((vecA.zip vecB).map fun p => (p.1.value - p.2.value) ^ 2).sum)

/-- An element times a number. -/
def Element.scale (k : K) : Element K → Element K
  | number x => number (k * x)
  | nan => nan
  | infinite negative => infinite negative

end Similarity

end OmniMemory
