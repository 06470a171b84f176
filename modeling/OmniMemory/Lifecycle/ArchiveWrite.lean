import OmniMemory.Lifecycle.ArchiveFiles

/-! `_write_archive_sync` is all or nothing as long as a write that stores too little is followed by
a call that fails. The code does not read what `os.write` returns, so that otherwise the archive is
cut short and the call returns the length of the whole. -/

namespace OmniMemory.Lifecycle.Files

open Interleave Interleave.Prog FileTree HandlerMemoryArchive

/-- What the caller of a write relies on. The path names an entry of the tree `t` at the start of the
call. -/
def Faithful (t : FileTree.Tree Bytes) (cwd : Location) (p : PurePath) (bytes : Bytes) :
    Except PyError Nat → Disk → Prop
  | .ok n, d => n = bytes.length ∧ ∃ place, EntryAt t cwd p place ∧ d.tree place = some (.file bytes)
  | .error _, d =>
    (∀ place, EntryAt t cwd p place → ∀ content,
      d.tree place = some (.file content) ↔ t place = some (.file content)) ∧
    (d.stuck = false → Grows t d.tree)

section Cleanup

variable {cwd place : Location} {d d' : Disk} {t : FileTree.Tree Bytes} {temp : TempFile} {e : PyError}
  {opened : Bool}

/-- The temporary file is the only change since `t`. -/
structure Opened (t : FileTree.Tree Bytes) (place : Location) (d : Disk) : Prop where
  temp : d.temp = some place
  free : t place = none
  file : ∃ content, d.tree = Function.update t place (some (.file content))

/-- An exception is raised, and the temporary file is gone unless a call for this raised. -/
structure CleanedUp (t : FileTree.Tree Bytes) (place : Location) (out : Except PyError Nat) (d : Disk) :
    Prop where
  raised : d.raised = true
  error : ∃ e, out = .error e
  others : ∀ other, other ≠ place → d.tree other = t other
  gone : d.stuck = false → d.tree = t

theorem Opened.others (opened : Opened t place d) {other : Location} (ne : other ≠ place) :
    d.tree other = t other := by
  obtain ⟨_, file⟩ := opened.file
  rw [file, Function.update_of_ne ne]

theorem Opened.removed (opened : Opened t place d) : Function.update d.tree place none = t := by
  obtain ⟨_, file⟩ := opened.file
  rw [file, Function.update_idem, ← opened.free, Function.update_eq_self]

theorem Opened.present (opened : Opened t place d) : d.tree place ≠ none := by
  obtain ⟨_, file⟩ := opened.file
  rw [file, Function.update_self]
  exact Option.some_ne_none _

theorem Opened.of_eq (opened : Opened t place d) (temp : d'.temp = d.temp) (tree : d'.tree = d.tree) :
    Opened t place d' :=
  ⟨temp.trans opened.temp, opened.free, tree ▸ opened.file⟩

theorem Opened.stuck (opened : Opened t place d) (raised : d.raised = true) (e : PyError) :
    CleanedUp t place (.error e) { d with stuck := true } :=
  ⟨raised, ⟨e, rfl⟩, fun _ => opened.others, nofun⟩

theorem removeTemp_always (opened : Opened t place d) (raised : d.raised = true) :
    Always (Serves cwd) (removeTemp temp e) d (CleanedUp t place) := by
  unfold removeTemp
  refine always_op.mpr fun there d₁ served => ?_
  cases there with
  | error e' =>
    obtain ⟨os, rfl⟩ := served
    dsimp only
    rw [if_pos os]
    exact always_ret.mpr (opened.stuck raised e)
  | ok there =>
    obtain ⟨rfl, _, same, found⟩ := served
    obtain rfl := Option.some.inj (opened.temp.symm.trans same)
    obtain rfl : there = true := found.mpr opened.present
    refine always_op.mpr fun gone d₂ served => ?_
    cases gone with
    | error e' =>
      obtain ⟨os, rfl⟩ := served
      dsimp only
      rw [if_pos os]
      exact always_ret.mpr (opened.stuck raised e)
    | ok =>
      obtain ⟨_, same, rfl⟩ := served
      obtain rfl := Option.some.inj (opened.temp.symm.trans same)
      refine always_ret.mpr ⟨raised, ⟨e, rfl⟩, fun other ne => ?_, fun _ => opened.removed⟩
      exact congrFun opened.removed other

theorem cleanUpTemp_always {isOpen : Bool} (opened : Opened t place d) (raised : d.raised = true)
    (os : e.isOSError = true) :
    Always (Serves cwd) (cleanUpTemp temp isOpen e) d (CleanedUp t place) := by
  unfold cleanUpTemp
  rw [os]
  cases isOpen with
  | false => exact removeTemp_always opened raised
  | true =>
    refine always_op.mpr fun shut d₁ served => ?_
    cases shut with
    | error e' =>
      obtain ⟨os, rfl⟩ := served
      dsimp only
      rw [if_pos os]
      exact removeTemp_always (opened.of_eq rfl rfl) rfl
    | ok =>
      obtain rfl := served
      exact removeTemp_always opened raised

end Cleanup

section Write

variable {cwd : Location} {d d' : Disk} {t : FileTree.Tree Bytes} {p : PurePath} {bytes : Bytes}

/-- How a write ends: by an exception, or with what it stored at the path. -/
inductive Ends (t : FileTree.Tree Bytes) (cwd : Location) (p : PurePath) (bytes : Bytes) :
    Except PyError Nat → Disk → Prop where
  | raised {e : PyError} {d : Disk} (raised : d.raised = true)
      (faithful : Faithful t cwd p bytes (.error e) d) : Ends t cwd p bytes (.error e) d
  | written {stored : Nat} {place : Location} {d : Disk} (raised : d.raised = false)
      (stores : stored = bytes.length ∨ 0 < stored ∧ stored < bytes.length)
      (short : d.short = decide (stored < bytes.length)) (entry : EntryAt t cwd p place)
      (file : d.tree place = some (.file (bytes.take stored))) :
      Ends t cwd p bytes (.ok bytes.length) d

theorem Grows.entry {t' : FileTree.Tree Bytes} {place : Location} (grows : Grows t t')
    (entry : EntryAt t' cwd p place) : EntryAt t cwd p place := by
  obtain ⟨named, parent, leads, rfl⟩ := entry
  exact ⟨named, parent, leads.congr grows.sameLinks.symm, rfl⟩

/-- After the clean-up the tree is as before, but for directories. -/
theorem CleanedUp.ends {t' : FileTree.Tree Bytes} {name : String} {front : Location}
    {out : Except PyError Nat} (cleaned : CleanedUp t' (front ++ [name]) out d) (grows : Grows t t')
    (other : name ≠ p.name) : Ends t cwd p bytes out d := by
  obtain ⟨e, rfl⟩ := cleaned.error
  refine .raised cleaned.raised ⟨?_, fun unstuck => cleaned.gone unstuck ▸ grows⟩
  rintro _ ⟨-, parent, -, rfl⟩ content
  have ne : parent ++ [p.name] ≠ front ++ [name] := fun same =>
    other (List.append_inj_right' same rfl |> List.singleton_inj.mp).symm
  rw [cleaned.others _ ne]
  exact grows.file

theorem writeArchiveSync_ends (calm : d.raised = false) :
    Always (Serves cwd) (writeArchiveSync p bytes) d (Ends d.tree cwd p bytes) := by
  unfold writeArchiveSync
  refine always_op.mpr fun made d₁ served => ?_
  cases made with
  | error e =>
    obtain ⟨-, t', grows, rfl⟩ := served
    exact always_ret.mpr (.raised rfl ⟨fun _ _ _ => grows.file, fun _ => grows⟩)
  | ok =>
  obtain ⟨t', makes, rfl⟩ := served
  have grows : Grows d.tree t' := makes.grows
  refine always_op.mpr fun temp d₂ served => ?_
  cases temp with
  | error e =>
    obtain ⟨-, rfl⟩ := served
    exact always_ret.mpr (.raised rfl ⟨fun _ _ _ => grows.file, fun _ => grows⟩)
  | ok temp =>
  obtain ⟨-, front, name, -, tempName, free, rfl⟩ := served
  replace free : t' (front ++ [name]) = none := free
  have other : name ≠ p.name := temp_name_ne tempName
  -- From here on the temporary file is the only change to `t'`.
  have cleanUp : ∀ {d' isOpen e}, Opened t' (front ++ [name]) d' → d'.raised = true →
      e.isOSError = true →
      Always (Serves cwd) (cleanUpTemp temp isOpen e) d' (Ends d.tree cwd p bytes) :=
    fun opened raised os => (cleanUpTemp_always opened raised os).imp fun _ _ cleaned =>
      cleaned.ends grows other
  refine always_op.mpr fun written d₃ served => ?_
  cases written with
  | error e =>
    obtain ⟨os, rfl⟩ := served
    exact cleanUp ⟨rfl, free, _, rfl⟩ rfl os
  | ok stored =>
  obtain ⟨stores, _, same, rfl⟩ := served
  obtain rfl := Option.some.inj same
  obtain ⟨content, file⟩ : ∃ content, Function.update
      (Function.update t' (front ++ [name]) (some (.file []))) (front ++ [name])
        (some (.file (bytes.take stored))) =
          Function.update t' (front ++ [name]) (some (.file content)) :=
    ⟨_, Function.update_idem ..⟩
  refine always_op.mpr fun synced d₄ served => ?_
  cases synced with
  | error e =>
    obtain ⟨os, rfl⟩ := served
    exact cleanUp ⟨rfl, free, _, file⟩ rfl os
  | ok =>
  obtain rfl := served
  refine always_op.mpr fun closed d₅ served => ?_
  cases closed with
  | error e =>
    obtain ⟨os, rfl⟩ := served
    exact cleanUp ⟨rfl, free, _, file⟩ rfl os
  | ok =>
  obtain rfl := served
  refine always_op.mpr fun renamed d₆ served => ?_
  cases renamed with
  | error e =>
    obtain ⟨os, rfl⟩ := served
    exact cleanUp ⟨rfl, free, _, file⟩ rfl os
  | ok =>
  obtain ⟨_, parent, same, enters, named, -, rfl⟩ := served
  obtain rfl := Option.some.inj same
  have links : SameLinks t' (Function.update t' (front ++ [name]) (some (.file content))) :=
    (Grows.refl t').sameLinks.update (by simp [IsLink, free]) (by simp)
  have enters : Enters (Function.update t' (front ++ [name]) (some (.file content))) cwd p.parent
      parent := file ▸ enters
  have entry : EntryAt d.tree cwd p (parent ++ [p.name]) :=
    ⟨named, parent, (enters.leadsTo.congr links.symm).congr grows.sameLinks.symm, rfl⟩
  refine always_ret.mpr (.written calm stores rfl entry ?_)
  show Function.update _ _ _ _ = _
  rw [Function.update_self]
  exact Function.update_self ..

theorem Ends.faithful_iff {out : Except PyError Nat} (ends : Ends t cwd p bytes out d) :
    Faithful t cwd p bytes out d ↔ (d.short = true → d.raised = true) := by
  cases ends with
  | raised raised faithful => exact iff_of_true faithful fun _ => raised
  | @written stored place _ calm stores short entry file =>
    rw [short, calm, decide_eq_true_eq]
    constructor
    · rintro ⟨-, place', entry', file'⟩ less
      rw [entry.unique entry', file', Option.some.injEq, Node.file.injEq] at file
      have lengths := congrArg List.length file
      rw [List.length_take] at lengths
      omega
    · intro whole
      have all : bytes.length ≤ stored := Nat.le_of_not_lt fun less => nomatch whole less
      rw [List.take_of_length_le all] at file
      exact ⟨rfl, place, entry, file⟩

/-- A write is faithful if and only if it stored all its bytes or a call raised. -/
theorem writeArchiveSync_faithful_iff {out : Except PyError Nat}
    (runs : Runs (Serves cwd) (writeArchiveSync p bytes) { tree := t } out d) :
    Faithful t cwd p bytes out d ↔ (d.short = true → d.raised = true) :=
  (writeArchiveSync_ends rfl out d runs).faithful_iff

end Write

section Success

variable {cwd : Location} {d : Disk} {t : FileTree.Tree Bytes} {p : PurePath} {bytes : Bytes}

/-- `mkstemp` can open the temporary file under a name in a directory of the tree `t`. -/
structure Opens (t : FileTree.Tree Bytes) (cwd : Location) (p : PurePath) (front : Location) (name : String) :
    Prop where
  walk : Walk t [] (abspath cwd p.parent) front
  tempName : IsTempName (p.stem ++ ".") ".tmp" name
  free : t (front ++ [name]) = none

/-- `rename` can set the entry of `p` in a directory of the tree `t`. -/
structure Replaces (t : FileTree.Tree Bytes) (cwd : Location) (p : PurePath) (parent : Location) : Prop where
  enters : Enters t cwd p.parent parent
  named : IsName p.name
  file : t (parent ++ [p.name]) ≠ some .directory

/-- Every call of a write can succeed, and the write can store fewer bytes than it is given. -/
theorem writeArchiveSync_possibly {front parent : Location} {name : String} (stored : Nat)
    (makes : Makes d.tree ((route p.parent).start cwd) (route p.parent).names t)
    (opens : Opens t cwd p front name) (replaces : Replaces t cwd p parent)
    (stores : stored = bytes.length ∨ 0 < stored ∧ stored < bytes.length) :
    Possibly (Serves cwd) (writeArchiveSync p bytes) d fun out d' =>
      out = .ok bytes.length ∧ d'.short = decide (stored < bytes.length) ∧ d'.raised = d.raised ∧
        parent ++ [p.name] ∈ d'.touched := by
  obtain ⟨walk, tempName, free⟩ := opens
  obtain ⟨enters, named, file⟩ := replaces
  have other : parent ++ [p.name] ≠ front ++ [name] := fun same =>
    temp_name_ne tempName (List.append_inj_right' same rfl |> List.singleton_inj.mp).symm
  unfold writeArchiveSync
  refine possibly_op.mpr ⟨.ok (), _, ⟨t, makes, rfl⟩, ?_⟩
  refine possibly_op.mpr ⟨.ok _, _, ⟨rfl, front, name, walk, tempName, free, rfl⟩, ?_⟩
  refine possibly_op.mpr ⟨.ok stored, _, ⟨stores, _, rfl, rfl⟩, ?_⟩
  refine possibly_op.mpr ⟨.ok (), _, rfl, ?_⟩
  refine possibly_op.mpr ⟨.ok (), _, rfl, ?_⟩
  refine possibly_op.mpr ⟨.ok (), _, ⟨_, parent, rfl, ?_, named, ?_, rfl⟩, possibly_ret.mpr ?_⟩
  · show Walk (Function.update (Function.update _ _ _) _ _) _ _ _
    rw [Function.update_idem]
    exact (walk_update_file free).mpr enters
  · show Function.update (Function.update _ _ _) _ _ _ ≠ _
    rw [Function.update_idem, Function.update_of_ne other]
    exact file
  · exact ⟨rfl, rfl, rfl, List.mem_append_right _ (List.mem_singleton_self _)⟩

end Success

/-- A tree with the directory `/archive` and nothing else. -/
def plainTree : FileTree.Tree Bytes := fun l => if l = ["archive"] then some .directory else none

def plainPath : PurePath := ⟨["/", "archive", "x.jsonl.gz"]⟩

theorem plain_walk : Walk plainTree [] ["archive"] ["archive"] :=
  .name (by decide) rfl (.nil (.inr rfl))

theorem plain_makes : Makes plainTree ((route plainPath.parent).start [])
    (route plainPath.parent).names plainTree := .there plain_walk

theorem plain_opens : Opens plainTree [] plainPath ["archive"] "x.jsonl.00000000.tmp" where
  walk := plain_walk
  tempName := ⟨"00000000", rfl, rfl⟩
  free := rfl

theorem plain_replaces : Replaces plainTree [] plainPath ["archive"] where
  enters := plain_walk
  named := ⟨by decide, by decide⟩
  file := nofun

theorem plain_possibly (stored : Nat) (stores : stored = 2 ∨ 0 < stored ∧ stored < 2) :
    Possibly (Serves []) (writeArchiveSync plainPath [1, 2]) { tree := plainTree } fun out d =>
      out = .ok 2 ∧ d.short = decide (stored < 2) ∧ d.raised = false ∧
        ["archive"] ++ [plainPath.name] ∈ d.touched :=
  writeArchiveSync_possibly stored plain_makes plain_opens plain_replaces stores

/-- The write stores all, and the file is in place. -/
theorem writeArchiveSync_faithful_iff_whole :
    ∃ d, Runs (Serves []) (writeArchiveSync plainPath [1, 2]) { tree := plainTree } (.ok 2) d ∧
      Faithful plainTree [] plainPath [1, 2] (.ok 2) d := by
  obtain ⟨out, d, runs, rfl, short, -⟩ := plain_possibly 2 (.inl rfl)
  exact ⟨d, runs, (writeArchiveSync_faithful_iff runs).mpr fun cut => nomatch short.symm.trans cut⟩

/-- The write stores one byte of two, and all later calls succeed. -/
theorem not_faithful_short_write :
    ¬ ∀ (t : FileTree.Tree Bytes) (cwd : Location) (p : PurePath) (bytes : Bytes) (out : Except PyError Nat)
      (d : Disk), Runs (Serves cwd) (writeArchiveSync p bytes) { tree := t } out d →
        Faithful t cwd p bytes out d := by
  intro all
  obtain ⟨out, d, runs, rfl, short, calm, -⟩ := plain_possibly 1 (.inr (by decide))
  have faithful := all plainTree [] plainPath [1, 2] (.ok 2) d runs
  exact nomatch calm.symm.trans ((writeArchiveSync_ends rfl _ d runs).faithful_iff.mp faithful short)

end OmniMemory.Lifecycle.Files
