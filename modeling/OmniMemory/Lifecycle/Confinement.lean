import OmniMemory.Lifecycle.ArchiveWrite
import OmniMemory.Lifecycle.World

/-! Whether an archive write stays in the base directory. `_validate_archive_path` looks at the place
that the resolved path leads to, and the write uses the path as it is: it opens the temporary file
in the parent directory, which for the base itself is outside, and `rename` replaces a link rather
than what the link leads to. -/

namespace OmniMemory.Lifecycle.Files

open Interleave Interleave.Prog FileTree HandlerMemoryArchive

/-- The place is strictly inside the directory. -/
def Inside (base place : Location) : Prop := base <+: place ∧ place ≠ base

/-- `Path.resolve` follows the links of the tree, and gives an absolute path. -/
def Resolves (X : External) (t : FileTree.Tree Bytes) (cwd : Location) : Prop :=
  ∀ p resolved, X.resolve p = .ok resolved ↔
    ∃ place, LeadsTo t cwd p place ∧ resolved = ⟨"/" :: place⟩

/-- Every entry that a run of `handle` creates or renames is strictly inside the base. -/
def Confined (X : External) (self : HandlerMemoryArchive) (t : FileTree.Tree Bytes) (cwd base : Location)
    (now : DateTime) (command : ModelArchiveMemoryCommand) : Prop :=
  ∀ out d, Runs (Serves cwd) (self.handle X now command) { tree := t } out d →
    ∀ place ∈ d.touched, Inside base place

/-- Wherever `mkstemp` can open the temporary file of `p`, the directory is the base or in it; and
wherever then `rename` can set the entry of `p`, this is not the base, and not a link outside. -/
def StaysIn (t : FileTree.Tree Bytes) (cwd base : Location) (p : PurePath) : Prop :=
  ∀ t' front name, Makes t ((route p.parent).start cwd) (route p.parent).names t' →
    Opens t' cwd p front name →
      base <+: front ∧ ∀ parent, Replaces t' cwd p parent →
        parent ++ [p.name] ≠ base ∧ (IsLink t (parent ++ [p.name]) → base <+: parent)

section Touched

variable {cwd base : Location} {d : Disk} {t : FileTree.Tree Bytes} {p : PurePath} {bytes : Bytes}

/-- What a write can touch. -/
inductive Touches (t : FileTree.Tree Bytes) (cwd : Location) (p : PurePath) : Location → Prop where
  | temp {t' : FileTree.Tree Bytes} {front : Location} {name : String}
      (makes : Makes t ((route p.parent).start cwd) (route p.parent).names t')
      (opens : Opens t' cwd p front name) : Touches t cwd p (front ++ [name])
  | target {t' : FileTree.Tree Bytes} {front parent : Location} {name : String}
      (makes : Makes t ((route p.parent).start cwd) (route p.parent).names t')
      (opens : Opens t' cwd p front name) (replaces : Replaces t' cwd p parent) :
      Touches t cwd p (parent ++ [p.name])

/-- The calls of the clean-up touch no other entry. -/
theorem cleanUpTemp_touched {temp : TempFile} {isOpen : Bool} {e : PyError} :
    Always (Serves cwd) (cleanUpTemp temp isOpen e) d fun _ d' => d'.touched = d.touched := by
  have uses : (cleanUpTemp temp isOpen e).Uses fun op =>
      op = .tempExists temp ∨ op = .unlink temp ∨ op = .close temp :=
    cleanUpTemp_uses isOpen e (.inl rfl) (.inr (.inl rfl)) (.inr (.inr rfl))
  refine uses.always_rel (R := fun d d' => d'.touched = d.touched) (fun _ => rfl) ?_ ?_ d
  · exact fun {d d' d''} first second => Eq.trans second first
  rintro op d answer d' (rfl | rfl | rfl) served
  · cases answer with
    | ok => rw [served.1]
    | error => rw [served.2]
  · cases answer with
    | ok =>
      obtain ⟨_, -, rfl⟩ := served
      rfl
    | error => rw [served.2]
  · cases answer with
    | ok =>
      obtain rfl := served
      rfl
    | error => rw [served.2]

theorem writeArchiveSync_touches (start : d.touched = []) :
    Always (Serves cwd) (writeArchiveSync p bytes) d fun _ d' =>
      ∀ place ∈ d'.touched, Touches d.tree cwd p place := by
  have untouched : ∀ {d' : Disk} {l}, d'.touched = l → l = [] →
      ∀ place ∈ d'.touched, Touches d.tree cwd p place := by
    rintro d' _ same rfl place mem
    rw [same] at mem
    contradiction
  unfold writeArchiveSync
  refine always_op.mpr fun made d₁ served => ?_
  cases made with
  | error e =>
    obtain ⟨-, _, -, rfl⟩ := served
    exact always_ret.mpr (untouched rfl start)
  | ok =>
  obtain ⟨t', makes, rfl⟩ := served
  refine always_op.mpr fun temp d₂ served => ?_
  cases temp with
  | error e =>
    obtain ⟨-, rfl⟩ := served
    exact always_ret.mpr (untouched rfl start)
  | ok temp =>
  obtain ⟨-, front, name, walk, tempName, free, rfl⟩ := served
  replace free : t' (front ++ [name]) = none := free
  have opens : Opens t' cwd p front name := ⟨walk, tempName, free⟩
  have opened : ∀ place ∈ d.touched ++ [front ++ [name]], Touches d.tree cwd p place := by
    rw [start, List.nil_append]
    exact List.forall_mem_singleton.mpr (.temp makes opens)
  have cleanUp : ∀ {d' isOpen e}, d'.touched = d.touched ++ [front ++ [name]] →
      Always (Serves cwd) (cleanUpTemp temp isOpen e) d' fun _ d' =>
        ∀ place ∈ d'.touched, Touches d.tree cwd p place := by
    intro d' isOpen e same
    refine cleanUpTemp_touched.imp fun _ d'' same' => ?_
    rw [same', same]
    exact opened
  refine always_op.mpr fun written d₃ served => ?_
  cases written with
  | error e =>
    obtain ⟨-, rfl⟩ := served
    exact cleanUp rfl
  | ok stored =>
  obtain ⟨-, _, same, rfl⟩ := served
  obtain rfl := Option.some.inj same
  refine always_op.mpr fun synced d₄ served => ?_
  cases synced with
  | error e =>
    obtain ⟨-, rfl⟩ := served
    exact cleanUp rfl
  | ok =>
  obtain rfl := served
  refine always_op.mpr fun closed d₅ served => ?_
  cases closed with
  | error e =>
    obtain ⟨-, rfl⟩ := served
    exact cleanUp rfl
  | ok =>
  obtain rfl := served
  refine always_op.mpr fun renamed d₆ served => ?_
  cases renamed with
  | error e =>
    obtain ⟨-, rfl⟩ := served
    exact cleanUp rfl
  | ok =>
  obtain ⟨_, parent, -, enters, named, file, rfl⟩ := served
  replace enters : Walk (Function.update (Function.update _ _ _) _ _) _ _ _ := enters
  replace file : Function.update (Function.update _ _ _) _ _ _ ≠ _ := file
  rw [Function.update_idem] at enters file
  refine always_ret.mpr fun place mem => ?_
  rcases List.mem_append.mp mem with mem | last
  · exact opened place mem
  · obtain rfl := List.mem_singleton.mp last
    refine .target makes opens ⟨(walk_update_file free).mp enters, named, fun directory => ?_⟩
    have other : parent ++ [p.name] ≠ front ++ [name] := fun same =>
      temp_name_ne tempName (List.append_inj_right' same rfl |> List.singleton_inj.mp).symm
    rw [Function.update_of_ne other] at file
    exact file directory

/-- Everything that a write can touch, some run touches. -/
theorem Touches.possibly {place : Location} (touches : Touches d.tree cwd p place) :
    Possibly (Serves cwd) (writeArchiveSync p bytes) d fun _ d' => place ∈ d'.touched := by
  cases touches with
  | @temp t' front name makes opens =>
    unfold writeArchiveSync
    refine possibly_op.mpr ⟨.ok (), _, ⟨t', makes, rfl⟩, ?_⟩
    refine possibly_op.mpr ⟨.ok _, _, ⟨rfl, front, name, opens.1, opens.2, opens.3, rfl⟩, ?_⟩
    refine (possibly_touched ?_)
    exact List.mem_append_right _ (List.mem_singleton_self _)
  | target makes opens replaces =>
    exact (writeArchiveSync_possibly _ makes opens replaces (.inl rfl)).imp fun _ _ done => done.2.2.2

end Touched

section Handle

variable {X : External} {self : HandlerMemoryArchive} {cwd base : Location} {d : Disk}
  {t : FileTree.Tree Bytes} {p : PurePath} {now : DateTime} {command : ModelArchiveMemoryCommand}

/-- Programs without calls on files leave the disk. -/
theorem always_same_of_uses {α : Type} {program : LifecycleProg α}
    (uses : program.Uses (·.isFile = false)) (d : Disk) :
    Always (Serves cwd) program d fun _ d' => d' = d :=
  uses.always_same (fun _ _ _ _ other served => served.eq_of_not_file other) d

/-- What holds of the disk before and after the write holds of it after `handle`. -/
theorem handle_always {Q : Disk → Prop} (requested : command.archivePath = some p) (start : Q d)
    (write : ∀ bytes, Always (Serves cwd) (writeArchiveSync p bytes) d fun _ d' => Q d') :
    Always (Serves cwd) (self.handle X now command) d fun _ d' => Q d' := by
  have recorded : ∀ (op : Op) (result : Except PyError ModelMemoryArchiveResult),
      op.isFile = false → Always (Serves cwd) (perform op >>= fun _ => .ret result) d
        fun _ d' => Q d' := by
    intro op result other
    refine always_op.mpr fun answer d' served => always_ret.mpr ?_
    rwa [served.eq_of_not_file other]
  unfold handle
  dsimp only
  split
  · exact always_ret.mpr start
  split
  · exact always_ret.mpr start
  refine always_op.mpr fun allowed d₁ served => ?_
  obtain rfl : d₁ = d := served
  split
  · exact always_ret.mpr start
  refine (always_same_of_uses (readMemory_uses (fun _ other => other) _ _) _).seq ?_
  rintro outcome _ rfl
  split
  · exact always_ret.mpr start
  · exact recorded .recordFailure _ rfl
  · exact recorded .recordFailure _ rfl
  · exact recorded .recordTimeout _ rfl
  · exact always_ret.mpr start
  · exact always_ret.mpr start
  rename_i memory
  refine always_op.mpr fun _ d₂ served => ?_
  obtain rfl : d₂ = _ := served
  unfold archiveMemory
  split
  · exact always_ret.mpr start
  simp only [requested]
  unfold writeAndUpdate
  dsimp only
  split
  · exact always_ret.mpr start
  refine (write _).seq fun written d₃ after => ?_
  cases written with
  | ok n =>
    refine (always_same_of_uses (finishArchive_uses (fun _ other => other) _ _ _ _) _).imp ?_
    rintro _ _ rfl
    exact after
  | error e =>
    dsimp only
    split <;> exact always_ret.mpr after

/-- The handler is initialized. -/
structure Ready (handler : HandlerMemoryArchive) (base : PurePath) : Prop where
  initialized : handler.initialized = true
  dbPool : handler.dbPool = true
  archiveBasePath : handler.archiveBasePath = some base
  dbCircuitBreaker : handler.dbCircuitBreaker = true

/-- The database may hold the memory that is asked for, in state EXPIRED. -/
theorem readMemory_possibly {basePath : PurePath} (ready : Ready self basePath) (id : UUID)
    (revision : Nat) :
    Possibly (Serves cwd) (self.readMemory X id revision) d fun out d' =>
      d' = d ∧ ∃ memory, out = .ok (some memory) ∧ memory.lifecycleState = .expired := by
  unfold readMemory withConnection
  rw [ready.dbPool]
  refine possibly_op.mpr ⟨.ok (), d, rfl, ?_⟩
  refine Possibly.seq (Q := fun out d' =>
    d' = d ∧ ∃ memory, out = .ok (some memory) ∧ memory.lifecycleState = .expired) ?_ ?_
  · refine possibly_op.mpr ⟨.ok (some (plainRow .expired revision)), d, rfl, ?_⟩
    have current : ¬ (plainRow .expired revision).lifecycleRevision ≠ revision := fun ne => ne rfl
    show Possibly _ (if _ then _ else _) _ _
    rw [if_neg current]
    exact possibly_ret.mpr ⟨rfl, _, rfl, rfl⟩
  · rintro _ _ ⟨rfl, memory, rfl, state⟩
    exact possibly_op.mpr ⟨.ok (), _, rfl, possibly_ret.mpr ⟨rfl, memory, rfl, state⟩⟩

/-- An entry that a write of any bytes can touch, some run of `handle` for an accepted path
touches. -/
theorem handle_possibly {basePath : PurePath} {place : Location} (ready : Ready self basePath)
    (requested : command.archivePath = some p) (accepted : self.validateArchivePath X p = none)
    (write : ∀ bytes, Possibly (Serves cwd) (writeArchiveSync p bytes) d fun _ d' =>
      place ∈ d'.touched) :
    Possibly (Serves cwd) (self.handle X now command) d fun _ d' => place ∈ d'.touched := by
  unfold handle
  rw [ready.initialized, ready.dbCircuitBreaker]
  refine possibly_op.mpr ⟨true, d, rfl, ?_⟩
  refine (readMemory_possibly ready _ _).seq ?_
  rintro _ _ ⟨rfl, memory, rfl, expired⟩
  refine possibly_op.mpr ⟨(), _, rfl, ?_⟩
  unfold archiveMemory
  have archives : ¬ memory.lifecycleState ≠ .expired := fun ne => ne expired
  rw [if_neg archives, requested]
  unfold writeAndUpdate
  simp only [requested, accepted, Option.bind_eq_bind, Option.bind_some]
  exact (write _).seq fun _ _ touched => possibly_touched touched

/-- `handle` is confined if and only if all that its write can touch is inside the base. -/
theorem confined_iff_touches {basePath : PurePath} (ready : Ready self basePath)
    (requested : command.archivePath = some p) (accepted : self.validateArchivePath X p = none) :
    Confined X self t cwd base now command ↔ ∀ place, Touches t cwd p place → Inside base place := by
  constructor
  · intro confined place touches
    have possible : Possibly (Serves cwd) (self.handle X now command) { tree := t } fun _ d =>
        place ∈ d.touched :=
      handle_possibly ready requested accepted fun bytes => touches.possibly
    obtain ⟨out, d, runs, touched⟩ := possible
    exact confined out d runs place touched
  · intro inside out d runs place touched
    have touches := handle_always (Q := fun d => ∀ place ∈ d.touched, Touches t cwd p place) requested
      (fun _ mem => absurd mem List.not_mem_nil) (fun bytes => writeArchiveSync_touches rfl) out d runs
    exact inside place (touches place touched)

/-- An accepted path leads to the base or into it. -/
theorem leadsTo_of_accepted {basePath : PurePath} (resolves : Resolves X t cwd)
    (ready : Ready self basePath) (leads : LeadsTo t cwd basePath base)
    (accepted : self.validateArchivePath X p = none) :
    ∃ place, LeadsTo t cwd p place ∧ base <+: place := by
  have resolvedBase := (resolves basePath _).mpr ⟨base, leads, rfl⟩
  unfold validateArchivePath at accepted
  rw [ready.archiveBasePath] at accepted
  dsimp only at accepted
  rw [resolvedBase] at accepted
  cases resolved : X.resolve p with
  | error e =>
    rw [resolved] at accepted
    contradiction
  | ok found =>
    obtain ⟨place, leads', rfl⟩ := (resolves p found).mp resolved
    rw [resolved] at accepted
    dsimp only at accepted
    split at accepted
    · rename_i relative
      refine ⟨place, leads', ?_⟩
      have start := (Bool.and_eq_true_iff.mp relative).1
      have start := List.isPrefixOf_iff_prefix.mp start
      exact (List.cons_prefix_cons.mp start).2
    · contradiction

theorem inside_concat {front : Location} {name : String} :
    Inside base (front ++ [name]) ↔ base <+: front := by
  constructor
  · rintro ⟨start, ne⟩
    rcases List.prefix_concat_iff.mp start with same | start
    · exact absurd same.symm ne
    · exact start
  · intro start
    refine ⟨start.trans (List.prefix_append _ _), fun same => ?_⟩
    have le := start.length_le
    rw [← same, List.length_append, List.length_singleton] at le
    omega

/-- For a path that leads into the base, what a write can touch is inside if and only if the path
stays in. -/
theorem touches_inside_iff {place : Location} (leads : LeadsTo t cwd p place)
    (start : base <+: place) :
    (∀ place, Touches t cwd p place → Inside base place) ↔ StaysIn t cwd base p := by
  constructor
  · intro inside t' front name makes opens
    refine ⟨inside_concat.mp (inside _ (.temp makes opens)), fun parent replaces => ?_⟩
    have target := inside _ (.target makes opens replaces)
    exact ⟨target.2, fun _ => inside_concat.mp target⟩
  · intro stays _ touches
    cases touches with
    | temp makes opens => exact inside_concat.mpr (stays _ _ _ makes opens).1
    | @target t' front parent name makes opens replaces =>
      obtain ⟨ne, linked⟩ := (stays _ _ _ makes opens).2 parent replaces
      by_cases link : IsLink t (parent ++ [p.name])
      · exact inside_concat.mpr (linked link)
      · have here : LeadsTo t cwd p.parent parent :=
          replaces.enters.leadsTo.congr makes.grows.sameLinks.symm
        have entry : EntryAt t cwd p (parent ++ [p.name]) := ⟨replaces.named, parent, here, rfl⟩
        exact ⟨leads.unique (entry.leadsTo link) ▸ start, ne⟩

/-- For an accepted path `handle` is confined if and only if the path stays in. -/
theorem handle_confined_iff {basePath : PurePath} (resolves : Resolves X t cwd)
    (ready : Ready self basePath) (leads : LeadsTo t cwd basePath base)
    (requested : command.archivePath = some p) (accepted : self.validateArchivePath X p = none) :
    Confined X self t cwd base now command ↔ StaysIn t cwd base p := by
  obtain ⟨place, leads', start⟩ := leadsTo_of_accepted resolves ready leads accepted
  exact (confined_iff_touches ready requested accepted).trans (touches_inside_iff leads' start)

end Handle

/-- Surroundings without links. -/
def plainSurroundings : External :=
  { External.plain [] with resolve := fun p => .ok ⟨"/" :: abspath [] p⟩ }

theorem plainTree_no_links (place : Location) : ¬ IsLink plainTree place := by
  rintro ⟨target, link⟩
  unfold plainTree at link
  split at link <;> simp at link

theorem plain_resolves : Resolves plainSurroundings plainTree [] := by
  intro p resolved
  simp only [LeadsTo, real_iff_of_no_links plainTree_no_links, exists_eq_left]
  exact ⟨fun same => (Except.ok.inj same).symm, fun same => congrArg _ same.symm⟩

theorem plain_ready : Ready plainArchive ⟨["/", "archive"]⟩ := ⟨rfl, rfl, rfl, rfl⟩

theorem plain_base : LeadsTo plainTree [] ⟨["/", "archive"]⟩ ["archive"] :=
  (real_iff_of_no_links plainTree_no_links).mpr (by decide)

/-- The archive file and its temporary file are in `/archive`. -/
theorem handle_confined_iff_plain :
    Confined plainSurroundings plainArchive plainTree [] ["archive"] ⟨2025, 1, 1, 0⟩
      ⟨1, 0, some plainPath⟩ := by
  refine (handle_confined_iff plain_resolves plain_ready plain_base rfl (by decide)).mpr ?_
  intro t' front name makes opens
  have plain : ∀ place, ¬ IsLink t' place := fun place link =>
    plainTree_no_links place (makes.grows.sameLinks.isLink.mp link)
  have walked := (real_iff_of_no_links plain).mp opens.walk.real
  have front : front = ["archive"] := walked.trans (by decide)
  refine ⟨front ▸ List.prefix_rfl, fun parent replaces => ?_⟩
  have entered := (real_iff_of_no_links plain).mp replaces.enters.real
  have parent : parent = ["archive"] := entered.trans (by decide)
  subst parent
  exact ⟨by decide, fun _ => List.prefix_rfl⟩

/-- The path is the base itself: the temporary file is beside it. -/
theorem not_confined_base :
    ¬ ∀ (X : External) (self : HandlerMemoryArchive) (t : FileTree.Tree Bytes) (cwd base : Location)
      (basePath p : PurePath) (now : DateTime) (command : ModelArchiveMemoryCommand),
      Resolves X t cwd → Ready self basePath → LeadsTo t cwd basePath base →
        command.archivePath = some p → self.validateArchivePath X p = none →
          Confined X self t cwd base now command := by
  intro all
  have accepted : plainArchive.validateArchivePath plainSurroundings ⟨["/", "archive"]⟩ = none := by
    decide
  have confined := all plainSurroundings plainArchive plainTree [] ["archive"] ⟨["/", "archive"]⟩
    ⟨["/", "archive"]⟩ ⟨2025, 1, 1, 0⟩ ⟨1, 0, some ⟨["/", "archive"]⟩⟩ plain_resolves plain_ready
    plain_base rfl accepted
  have opens : Opens plainTree [] ⟨["/", "archive"]⟩ [] "archive.00000000.tmp" :=
    ⟨.nil (.inl rfl), ⟨"00000000", rfl, rfl⟩, rfl⟩
  have inside := (confined_iff_touches plain_ready rfl accepted).mp confined _
    (.temp (.there (.nil (.inl rfl))) opens)
  exact absurd (inside_concat.mp inside) (by decide)

end OmniMemory.Lifecycle.Files
