import OmniMemory.Lib.FileTree
import OmniMemory.Lifecycle.Archive

/-! What the operating system does with the calls of an archive write. Each call does its work or
raises `OSError`, and a write may store only the first bytes that it is given. `mkdir` and `rename`
follow the path as it is written; `mkstemp` makes it absolute by `os.path.abspath` first. -/

namespace OmniMemory.Lifecycle.Files

open Interleave Interleave.Prog FileTree

/-- The path for the operating system. -/
def route (p : PurePath) : Route :=
  ⟨p.isAbsolute, if p.isAbsolute then p.parts.tail else p.parts⟩

/-- `os.path.abspath(p)`, where `cwd` is the directory that the process works in. -/
def abspath (cwd : Location) (p : PurePath) : Location :=
  collapse ((route p).start cwd) (route p).names

/-- `p` leads to the place, whether or not something is there. -/
def LeadsTo (t : FileTree.Tree Bytes) (cwd : Location) (p : PurePath) (place : Location) : Prop :=
  Real t ((route p).start cwd) (route p).names place

/-- `p` leads to the directory. -/
def Enters (t : FileTree.Tree Bytes) (cwd : Location) (p : PurePath) (place : Location) : Prop :=
  Walk t ((route p).start cwd) (route p).names place

/-- The name is one that a directory can have an entry for. -/
def IsName (name : String) : Prop := name ≠ "" ∧ name ≠ ".."

/-- `p` names an entry of the directory that its parent leads to. -/
def EntryAt (t : FileTree.Tree Bytes) (cwd : Location) (p : PurePath) (place : Location) : Prop :=
  IsName p.name ∧ ∃ parent, LeadsTo t cwd p.parent parent ∧ place = parent ++ [p.name]

/-- The names that `mkstemp` tries: eight random characters between prefix and suffix. -/
def IsTempName (stem suffix name : String) : Prop :=
  ∃ random : String, random.length = 8 ∧ name = stem ++ random ++ suffix

/-- The file tree, and what the calls of a write have met and done. -/
structure Disk where
  tree : FileTree.Tree Bytes
  /-- Where the temporary file was opened. -/
  temp : Option Location := none
  /-- The entries that were created or renamed. -/
  touched : List Location := []
  /-- A write stored fewer bytes than it was given. -/
  short : Bool := false
  /-- A call up to the rename raised. -/
  raised : Bool := false
  /-- A call that removes the temporary file raised. -/
  stuck : Bool := false

/-- The entry for the temporary file holds `bytes`. -/
def Disk.store (d : Disk) (place : Location) (bytes : Bytes) : Disk :=
  { d with tree := Function.update d.tree place (some (.file bytes)) }

/-- How the operating system answers a call. It leaves no trace of the calls that are not on
files, and answers them in any way. -/
def Serves (cwd : Location) : (op : Op) → Disk → Res op → Disk → Prop
  | .mkdir dir, d, answer, d' =>
    match answer with
    | .ok () => ∃ t, Makes d.tree ((route dir).start cwd) (route dir).names t ∧
        d' = { d with tree := t }
    | .error e => e.isOSError = true ∧ ∃ t, Grows d.tree t ∧ d' = { d with tree := t, raised := true }
  | .mkstemp suffix stem dir, d, answer, d' =>
    match answer with
    | .ok temp => temp = ⟨suffix, stem, dir⟩ ∧ ∃ parent name, Walk d.tree [] (abspath cwd dir) parent ∧
        IsTempName stem suffix name ∧ d.tree (parent ++ [name]) = none ∧
        d' = { d.store (parent ++ [name]) [] with
          temp := some (parent ++ [name])
          touched := d.touched ++ [parent ++ [name]] }
    | .error e => e.isOSError = true ∧ d' = { d with raised := true }
  | .write _ bytes, d, answer, d' =>
    match answer with
    | .ok stored => (stored = bytes.length ∨ 0 < stored ∧ stored < bytes.length) ∧
        ∃ place, d.temp = some place ∧
          d' = { d.store place (bytes.take stored) with short := decide (stored < bytes.length) }
    | .error e => e.isOSError = true ∧ d' = { d with raised := true }
  | .fsync _, d, answer, d' | .close _, d, answer, d' =>
    match answer with
    | .ok () => d' = d
    | .error e => e.isOSError = true ∧ d' = { d with raised := true }
  | .rename _ _ target, d, answer, d' =>
    match answer with
    | .ok () => ∃ place parent, d.temp = some place ∧ Enters d.tree cwd target.parent parent ∧
        IsName target.name ∧ d.tree (parent ++ [target.name]) ≠ some .directory ∧
        d' = { d with
          tree := Function.update (Function.update d.tree place none) (parent ++ [target.name])
            (d.tree place)
          touched := d.touched ++ [parent ++ [target.name]] }
    | .error e => e.isOSError = true ∧ d' = { d with raised := true }
  | .tempExists _, d, answer, d' =>
    match answer with
    | .ok found => d' = d ∧ ∃ place, d.temp = some place ∧ (found = true ↔ d.tree place ≠ none)
    | .error e => e.isOSError = true ∧ d' = { d with stuck := true }
  | .unlink _, d, answer, d' =>
    match answer with
    | .ok () => ∃ place, d.temp = some place ∧ d' = { d with tree := Function.update d.tree place none }
    | .error e => e.isOSError = true ∧ d' = { d with stuck := true }
  | _, d, _, d' => d' = d

section Paths

variable {t t' : FileTree.Tree Bytes} {cwd place parent : Location} {p : PurePath} {name : String}

/-- A path with a name is its parent and the name. -/
theorem route_eq_concat (named : p.name ≠ "") :
    (route p).absolute = (route p.parent).absolute ∧
      (route p).names = (route p.parent).names ++ [p.name] := by
  obtain ⟨parts⟩ := p
  have plain : ¬ PurePath.isRoot ⟨parts⟩ = true := fun root => named (by simp [PurePath.name, root])
  rcases List.eq_nil_or_concat' parts with rfl | ⟨front, last, rfl⟩
  · exact absurd rfl named
  have parent : PurePath.parent ⟨front ++ [last]⟩ = ⟨front⟩ := by
    rw [PurePath.parent, if_neg plain, List.dropLast_concat]
  have name : PurePath.name ⟨front ++ [last]⟩ = last := by
    rw [PurePath.name, if_neg plain, List.getLast?_concat, Option.getD_some]
  rw [parent, name]
  cases front with
  | nil =>
    have relative : PurePath.isAbsolute ⟨[last]⟩ = false := by
      simpa [PurePath.isRoot, PurePath.isAbsolute] using plain
    have empty : PurePath.isAbsolute ⟨[]⟩ = false := rfl
    simp [route, relative, empty]
  | cons first rest =>
    have same : PurePath.isAbsolute ⟨first :: rest ++ [last]⟩ =
        PurePath.isAbsolute ⟨first :: rest⟩ := rfl
    refine ⟨same, ?_⟩
    simp only [route, same]
    split <;> simp

theorem EntryAt.leadsTo (entry : EntryAt t cwd p place) (plain : ¬ IsLink t place) :
    LeadsTo t cwd p place := by
  obtain ⟨⟨named, proper⟩, parent, leads, rfl⟩ := entry
  obtain ⟨absolute, names⟩ := route_eq_concat named
  have starts : (route p).start cwd = (route p.parent).start cwd := by
    simp [Route.start, absolute]
  unfold LeadsTo
  rw [names, starts]
  exact leads.concat proper plain

theorem EntryAt.unique {place' : Location} (entry : EntryAt t cwd p place)
    (entry' : EntryAt t cwd p place') : place = place' := by
  obtain ⟨-, parent, leads, rfl⟩ := entry
  obtain ⟨-, parent', leads', rfl⟩ := entry'
  rw [leads.unique leads']

theorem Enters.leadsTo (enters : Enters t cwd p place) : LeadsTo t cwd p place := enters.real

theorem LeadsTo.congr (leads : LeadsTo t cwd p place) (same : SameLinks t t') :
    LeadsTo t' cwd p place := Real.congr leads same

/-- The name is the stem and a suffix with one dot at most. -/
theorem name_eq_stem_append (p : PurePath) :
    ∃ suffix : String, p.name = p.stem ++ suffix ∧ suffix.toList.count '.' ≤ 1 := by
  unfold PurePath.stem
  dsimp only
  split
  · rename_i rest found
    have letters := List.takeWhile_append_dropWhile (p := (· ≠ '.')) (l := p.name.toList.reverse)
    have plain := List.all_takeWhile (p := (· ≠ '.')) (l := p.name.toList.reverse)
    generalize p.name.toList.reverse.takeWhile (· ≠ '.') = last at letters plain ⊢
    split
    · refine ⟨String.ofList ('.' :: last.reverse), ?_, ?_⟩
      · rw [found] at letters
        have backwards := congrArg List.reverse letters
        rw [List.reverse_reverse, List.reverse_append, List.reverse_cons] at backwards
        apply String.toList_inj.mp
        rw [← backwards]
        simp
      · have none : last.count '.' = 0 := by
          refine List.count_eq_zero.mpr fun mem => ?_
          have other := List.all_eq_true.mp plain '.' mem
          simp at other
        simp [none]
    · exact ⟨"", by simp, by simp⟩
  · exact ⟨"", by simp, by simp⟩

/-- A temporary file has another name than its target. -/
theorem temp_name_ne (temp : IsTempName (p.stem ++ ".") ".tmp" name) : name ≠ p.name := by
  obtain ⟨random, -, rfl⟩ := temp
  obtain ⟨suffix, eq, dots⟩ := name_eq_stem_append p
  intro same
  rw [eq] at same
  have letters := congrArg String.toList same
  have two : '.' :: (random.toList ++ ".tmp".toList) = suffix.toList := by
    simpa using letters
  have count := congrArg (List.count '.') two
  have tmp : ".tmp".toList.count '.' = 1 := by decide
  rw [List.count_cons_self, List.count_append, tmp] at count
  omega

end Paths

/-! ### Runs -/

section Runs

variable {cwd : Location} {d d' : Disk} {α : Type}

/-- Some answer to each call is possible. -/
theorem exists_serves (cwd : Location) (op : Op) (d : Disk) : ∃ answer d', Serves cwd op d answer d' := by
  have refused : (PyError.osError "").isOSError = true := rfl
  cases op with
  | mkdir => exact ⟨.error (.osError ""), _, refused, d.tree, .refl _, rfl⟩
  | mkstemp => exact ⟨.error (.osError ""), _, refused, rfl⟩
  | write => exact ⟨.error (.osError ""), _, refused, rfl⟩
  | fsync => exact ⟨.error (.osError ""), _, refused, rfl⟩
  | close => exact ⟨.error (.osError ""), _, refused, rfl⟩
  | rename => exact ⟨.error (.osError ""), _, refused, rfl⟩
  | tempExists => exact ⟨.error (.osError ""), _, refused, rfl⟩
  | unlink => exact ⟨.error (.osError ""), _, refused, rfl⟩
  | shouldAllowRequest => exact ⟨true, d, rfl⟩
  | recordSuccess => exact ⟨(), d, rfl⟩
  | recordFailure => exact ⟨(), d, rfl⟩
  | recordTimeout => exact ⟨(), d, rfl⟩
  | acquire => exact ⟨.ok (), d, rfl⟩
  | release => exact ⟨.ok (), d, rfl⟩
  | updateExpired => exact ⟨.ok none, d, rfl⟩
  | readState => exact ⟨.ok none, d, rfl⟩
  | selectMemory => exact ⟨.ok none, d, rfl⟩
  | updateArchived => exact ⟨.ok (.update 0), d, rfl⟩
  | trackOrphan => exact ⟨.ok (), d, rfl⟩

/-- Calls that are not on files leave the disk. -/
theorem Serves.eq_of_not_file {op : Op} {answer : Res op} (served : Serves cwd op d answer d')
    (other : op.isFile = false) : d' = d := by
  cases op <;> first | contradiction | exact served

/-- An entry that was touched stays so. -/
theorem Serves.touched {op : Op} {answer : Res op} (served : Serves cwd op d answer d') :
    d.touched ⊆ d'.touched := by
  cases op with
  | mkdir =>
    cases answer with
    | ok => obtain ⟨_, -, rfl⟩ := served; exact List.Subset.refl _
    | error => obtain ⟨-, _, -, rfl⟩ := served; exact List.Subset.refl _
  | mkstemp =>
    cases answer with
    | ok => obtain ⟨-, _, _, -, -, -, rfl⟩ := served; exact List.subset_append_left _ _
    | error => obtain ⟨-, rfl⟩ := served; exact List.Subset.refl _
  | write =>
    cases answer with
    | ok => obtain ⟨-, _, -, rfl⟩ := served; exact List.Subset.refl _
    | error => obtain ⟨-, rfl⟩ := served; exact List.Subset.refl _
  | rename =>
    cases answer with
    | ok => obtain ⟨_, _, -, -, -, -, rfl⟩ := served; exact List.subset_append_left _ _
    | error => obtain ⟨-, rfl⟩ := served; exact List.Subset.refl _
  | tempExists =>
    cases answer with
    | ok => obtain ⟨rfl, -⟩ := served; exact List.Subset.refl _
    | error => obtain ⟨-, rfl⟩ := served; exact List.Subset.refl _
  | unlink =>
    cases answer with
    | ok => obtain ⟨_, -, rfl⟩ := served; exact List.Subset.refl _
    | error => obtain ⟨-, rfl⟩ := served; exact List.Subset.refl _
  | fsync | close =>
    cases answer with
    | ok => obtain rfl := served; exact List.Subset.refl _
    | error => obtain ⟨-, rfl⟩ := served; exact List.Subset.refl _
  | _ => obtain rfl := served; exact List.Subset.refl _

/-- Some run of a program goes on from an entry that was touched. -/
theorem possibly_touched {p : LifecycleProg α} {place : Location} (touched : place ∈ d.touched) :
    Possibly (Serves cwd) p d fun _ d' => place ∈ d'.touched := by
  obtain ⟨a, d', runs, -⟩ := possibly_true (exists_serves cwd) p d
  have grows := runs.rel (R := fun d d' => d.touched ⊆ d'.touched) (fun _ => List.Subset.refl _)
    List.Subset.trans fun _ _ _ _ served => served.touched
  exact ⟨a, d', runs, grows touched⟩

end Runs

end OmniMemory.Lifecycle.Files
