import Mathlib.Data.List.Basic

/-! Pure POSIX paths, as `pathlib` holds them, with the operations that the handlers use. -/

namespace OmniMemory

/-- A path as the tuple `Path.parts`; an absolute path starts with the part `"/"`. -/
structure PurePath where
  parts : List String
deriving DecidableEq

namespace PurePath

def isAbsolute (p : PurePath) : Bool := p.parts.head? == some "/" || p.parts.head? == some "//"

/-- `Path(s)`: empty parts and `.` are dropped, and two leading slashes, no more and no less, are a
root of their own. -/
def ofString (s : String) : PurePath :=
  let parts := ((s.toList.splitOn '/').map String.ofList).filter fun part => part ≠ "" ∧ part ≠ "."
  match s.toList with
  | '/' :: '/' :: '/' :: _ => ⟨"/" :: parts⟩
  | '/' :: '/' :: _ => ⟨"//" :: parts⟩
  | '/' :: _ => ⟨"/" :: parts⟩
  | _ => ⟨parts⟩

example : ofString "/docs/./a.txt" = ⟨["/", "docs", "a.txt"]⟩ := by decide +kernel

/-- `p / q`: an absolute `q` replaces `p`. -/
def join (p q : PurePath) : PurePath := if q.isAbsolute then q else ⟨p.parts ++ q.parts⟩

/-- `p / name` for a relative `name` of one part. -/
def child (p : PurePath) (name : String) : PurePath := ⟨p.parts ++ [name]⟩

/-- `p.is_relative_to(q)`: `q` is `p` or one of its parents. The empty path is a parent of relative
paths only. -/
def isRelativeTo (p q : PurePath) : Bool := q.parts.isPrefixOf p.parts && p.isAbsolute == q.isAbsolute

def isRoot (p : PurePath) : Bool := p.parts == ["/"] || p.parts == ["//"]

/-- `p.parent`; a root and the empty path are their own parents. -/
def parent (p : PurePath) : PurePath := if p.isRoot then p else ⟨p.parts.dropLast⟩

/-- `p.name`, which is empty for a root and the empty path. -/
def name (p : PurePath) : String := if p.isRoot then "" else p.parts.getLast?.getD ""

/-- `p.stem`: the name without its last suffix. A dot at either end of the name starts no
suffix. -/
def stem (p : PurePath) : String :=
  let reversed := p.name.toList.reverse
  match reversed.dropWhile (· ≠ '.') with
  | '.' :: rest =>
    if rest ≠ [] ∧ reversed.takeWhile (· ≠ '.') ≠ [] then String.ofList rest.reverse else p.name
  | _ => p.name

/-- `str(p)`. -/
def str (p : PurePath) : String :=
  match p.parts with
  | [] => "."
  | "/" :: rest => "/" ++ "/".intercalate rest
  | "//" :: rest => "//" ++ "/".intercalate rest
  | parts => "/".intercalate parts

section Name

variable {p : PurePath} {s : String}

/-- A string without slashes is the name of a path of one part. -/
theorem ofString_of_name (slash : '/' ∉ s.toList) (named : s ≠ "" ∧ s ≠ ".") :
    ofString s = ⟨[s]⟩ := by
  have single : s.toList.splitOn '/' = [s.toList] :=
    List.splitOn_eq_singleton slash
  have start : ∀ rest, s.toList ≠ '/' :: rest := fun rest same => slash (by simp [same])
  unfold ofString
  split
  · exact absurd ‹_› (start _)
  · exact absurd ‹_› (start _)
  · exact absurd ‹_› (start _)
  · simp [single, named]

theorem join_of_name (slash : '/' ∉ s.toList) : p.join ⟨[s]⟩ = p.child s := by
  have relative : isAbsolute ⟨[s]⟩ = false := by
    have : s ≠ "/" := by rintro rfl; exact slash (by decide)
    have : s ≠ "//" := by rintro rfl; exact slash (by decide)
    simp [isAbsolute, *]
  rw [join, relative]
  rfl

theorem intercalate_isPrefix (separator last : List Char) (l : List (List Char)) :
    separator.intercalate l <+: separator.intercalate (l ++ [last]) := by
  induction l with
  | nil => exact List.nil_prefix
  | cons part l ih =>
    cases l with
    | nil =>
      rw [List.singleton_append, List.intercalate_cons_cons, List.intercalate_singleton,
        List.append_assoc]
      exact List.prefix_append _ _
    | cons next l =>
      rw [List.cons_append, List.cons_append, List.intercalate_cons_cons,
        List.intercalate_cons_cons]
      exact (List.prefix_append_right_inj _).mpr ih

/-- The string of an absolute path starts that of a path in it. -/
theorem str_isPrefix_child (absolute : p.isAbsolute = true) (name : String) :
    p.str.toList <+: (p.child name).str.toList := by
  obtain ⟨parts⟩ := p
  cases parts with
  | nil => contradiction
  | cons root rest =>
    have step : ("/".intercalate rest).toList <+: ("/".intercalate (rest ++ [name])).toList := by
      simpa using intercalate_isPrefix "/".toList name.toList (rest.map String.toList)
    have roots : root = "/" ∨ root = "//" := by simpa [isAbsolute] using absolute
    rcases roots with rfl | rfl
    · simpa [str, child] using step
    · simpa [str, child] using step

/-- The stem of a name with a suffix and something before it. -/
theorem stem_ofString_json (slash : '/' ∉ s.toList) (some : s ≠ "") :
    (ofString (s ++ ".json")).stem = s := by
  have json : ".json".toList = ['.', 'j', 's', 'o', 'n'] := rfl
  have letters : (s ++ ".json").toList = s.toList ++ ['.', 'j', 's', 'o', 'n'] := by
    rw [String.toList_append, json]
  have none : '/' ∉ (s ++ ".json").toList := by simp [letters, slash]
  have long : s ++ ".json" ≠ "" ∧ s ++ ".json" ≠ "." := by
    have length := congrArg List.length letters
    rw [List.length_append] at length
    constructor <;> intro same <;> rw [same] at length <;> simp at length
  have chars : s.toList ≠ [] := by simpa using some
  have notRoot : isRoot ⟨[s ++ ".json"]⟩ = false := by
    have root : s ++ ".json" ≠ "/" := fun same => none (by rw [same]; decide)
    have roots : s ++ ".json" ≠ "//" := fun same => none (by rw [same]; decide)
    simp [isRoot, root, roots]
  rw [ofString_of_name none long, stem, name, notRoot]
  simp [letters, chars]

end Name

example : stem ⟨["/", "a", "x.jsonl.gz"]⟩ = "x.jsonl" := by decide

end PurePath

end OmniMemory
