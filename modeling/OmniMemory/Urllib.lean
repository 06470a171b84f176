import Mathlib.Data.List.Basic

/-! `urllib.parse.urlparse`: a URL is cut into its scheme, its network location, which ends at the
first slash, question mark or number sign, and its path. -/

namespace OmniMemory

namespace Urllib

/-- A `str`, as its characters. -/
abbrev Text := List Char

/-- What is not written out of the library: the checks of a network location, one of what stands in
brackets and one that no character turns into a delimiter under NFKC, and lower case, which has no
ASCII capital and in which an ASCII character that is not a letter is one of the text. -/
structure Library where
  checkBracketedNetloc : Text → Bool
  checkNetloc : Text → Bool
  lower : Text → Text
  not_isUpper : ∀ s, ∀ c ∈ lower s, c.isUpper = false
  mem_of_mem_lower : ∀ s, ∀ c ∈ lower s, c.toNat < 128 → c.isAlpha = false → c ∈ s

/-- `s.partition(c)`, without the separator. -/
def partition (c : Char) (s : Text) : Text × Text :=
  (s.takeWhile (· != c), (s.dropWhile (· != c)).drop 1)

/-- `s.rpartition(c)[2]`. -/
def afterLast (c : Char) (s : Text) : Text := (s.reverse.takeWhile (· != c)).reverse

structure ValueError where
  message : String

structure ParseResult where
  scheme : Text
  netloc : Text
  path : Text

def isAsciiLetter (c : Char) : Bool := ('A' ≤ c && c ≤ 'Z') || ('a' ≤ c && c ≤ 'z')

/-- One of `scheme_chars`. -/
def isSchemeChar (c : Char) : Bool :=
  isAsciiLetter c || ('0' ≤ c && c ≤ '9') || c == '+' || c == '-' || c == '.'

/-- One of `_UNSAFE_URL_BYTES_TO_REMOVE`. -/
def isUnsafe (c : Char) : Bool := c == '\t' || c == '\r' || c == '\n'

/-- One of `_WHATWG_C0_CONTROL_OR_SPACE`. -/
def isControlOrSpace (c : Char) : Bool := c.toNat ≤ 0x20

/-- A character that ends a network location. -/
def endsNetloc (c : Char) : Bool := c == '/' || c == '?' || c == '#'

/-- The scheme of a URL, in lower case, and what follows its colon. -/
def splitScheme (url : Text) : Text × Text :=
  let start := url.takeWhile (· != ':')
  if start.length < url.length ∧ start.head?.any isAsciiLetter = true ∧
      start.all isSchemeChar = true then
    (start.map Char.toLower, url.drop (start.length + 1))
  else ([], url)

/-- The path without a query and a fragment. -/
def pathOf (rest : Text) : Text := (rest.takeWhile (· != '#')).takeWhile (· != '?')

/-- `urlparse`, as far as scheme, network location and path go. -/
def urlparse (lib : Library) (url : Text) : Except ValueError ParseResult :=
  let (scheme, url) := splitScheme ((url.dropWhile isControlOrSpace).filter fun c => !isUnsafe c)
  match url with
  | '/' :: '/' :: url =>
    let netloc := url.takeWhile fun c => !endsNetloc c
    let rest := url.dropWhile fun c => !endsNetloc c
    if netloc.contains '[' != netloc.contains ']' then .error ⟨"Invalid IPv6 URL"⟩
    else if netloc.contains '[' && !lib.checkBracketedNetloc netloc then
      .error ⟨"Invalid IPv6 URL"⟩
    else if !lib.checkNetloc netloc then
      .error ⟨"netloc " ++ String.ofList netloc ++
        " contains invalid characters under NFKC normalization"⟩
    else .ok { scheme := scheme, netloc := netloc, path := pathOf rest }
  | url => .ok { scheme := scheme, netloc := [], path := pathOf url }

/-- What follows the user information of a network location. -/
def hostInfo (netloc : Text) : Text := afterLast '@' netloc

/-- The host and the text of the port in what follows the user information. -/
def splitHostInfo (hostInfo : Text) : Text × Text :=
  if hostInfo.contains '[' then
    let (host, port) := partition ']' (partition '[' hostInfo).2
    (host, (partition ':' port).2)
  else partition ':' hostInfo

/-- `hostname`, of what follows the user information. -/
def hostname (lib : Library) (hostInfo : Text) : Option Text :=
  let host := (splitHostInfo hostInfo).1
  if host.isEmpty then none
  else some (lib.lower (host.takeWhile (· != '%')) ++ host.dropWhile (· != '%'))

/-- The most digits that `int` reads. -/
def maxStrDigits : ℕ := 4300

/-- `port`, of what follows the user information. -/
def port (hostInfo : Text) : Except ValueError (Option ℕ) :=
  let text := (splitHostInfo hostInfo).2
  if text.isEmpty then .ok none
  else if text.all Char.isDigit && decide (text.length ≤ maxStrDigits) then
    let number := text.foldl (fun n c => n * 10 + (c.toNat - '0'.toNat)) 0
    if number ≤ 65535 then .ok (some number) else .error ⟨"Port out of range 0-65535"⟩
  else .error ⟨"Port could not be cast to integer value as " ++ String.ofList text⟩

end Urllib

end OmniMemory
