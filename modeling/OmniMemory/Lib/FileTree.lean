import Mathlib.Logic.Function.Basic
import Mathlib.Data.List.Basic

/-! Trees of directories, files and symbolic links, and where a path leads in them. `Walk` is how the
operating system follows a path to a directory; `Real` follows links too, but takes a name that is
not there for a directory. `Makes` is what making a directory with its parents does to a tree. -/

namespace FileTree

/-- A place in a tree, by the names on the way from its root. -/
abbrev Location := List String

/-- A path, which starts at the root or at some place. -/
structure Route where
  absolute : Bool
  names : List String

def Route.start (p : Route) (l : Location) : Location := if p.absolute then [] else l

inductive Node (γ : Type*) where
  | directory
  | file (content : γ)
  | link (target : Route)

/-- The nodes by their places. The root is a directory. -/
abbrev Tree (γ : Type*) := Location → Option (Node γ)

section Paths

variable {γ : Type*} {t t' : Tree γ} {l m r r' : Location} {name : String} {names names' : List String}

def IsDirectory (t : Tree γ) (l : Location) : Prop := l = [] ∨ t l = some .directory

def IsLink (t : Tree γ) (l : Location) : Prop := ∃ target, t l = some (.link target)

/-- Where names lead from a place when what is not there is taken for a directory. -/
inductive Real (t : Tree γ) : Location → List String → Location → Prop where
  | nil (l : Location) : Real t l [] l
  | parent {l r : Location} {names : List String} (rest : Real t l.dropLast names r) :
      Real t l (".." :: names) r
  | name {l r : Location} {name : String} {names : List String} (proper : name ≠ "..")
      (plain : ¬ IsLink t (l ++ [name])) (rest : Real t (l ++ [name]) names r) :
      Real t l (name :: names) r
  | link {l m r : Location} {name : String} {names : List String} {target : Route}
      (proper : name ≠ "..") (link : t (l ++ [name]) = some (.link target))
      (follow : Real t (target.start l) target.names m) (rest : Real t m names r) :
      Real t l (name :: names) r

/-- Names lead from a place to a directory. -/
inductive Walk (t : Tree γ) : Location → List String → Location → Prop where
  | nil {l : Location} (directory : IsDirectory t l) : Walk t l [] l
  | parent {l r : Location} {names : List String} (directory : IsDirectory t l)
      (rest : Walk t l.dropLast names r) : Walk t l (".." :: names) r
  | name {l r : Location} {name : String} {names : List String} (proper : name ≠ "..")
      (directory : t (l ++ [name]) = some .directory) (rest : Walk t (l ++ [name]) names r) :
      Walk t l (name :: names) r
  | link {l m r : Location} {name : String} {names : List String} {target : Route}
      (proper : name ≠ "..") (link : t (l ++ [name]) = some (.link target))
      (follow : Walk t (target.start l) target.names m) (rest : Walk t m names r) :
      Walk t l (name :: names) r

/-- Where names lead when `..` takes back the name before it, whatever this was. -/
def collapse : Location → List String → Location
  | l, [] => l
  | l, name :: names => if name = ".." then collapse l.dropLast names else collapse (l ++ [name]) names

theorem Walk.real (walk : Walk t l names r) : Real t l names r := by
  induction walk with
  | nil => exact .nil _
  | parent _ _ ih => exact .parent ih
  | name proper directory _ ih =>
    refine .name proper ?_ ih
    rintro ⟨target, link⟩
    cases directory.symm.trans link
  | link proper link _ _ follow ih => exact .link proper link follow ih

/-- A walk passes directories and links only. -/
theorem Walk.congr (walk : Walk t l names r)
    (directories : ∀ l, t l = some .directory → t' l = some .directory)
    (links : ∀ l target, t l = some (.link target) → t' l = some (.link target)) :
    Walk t' l names r := by
  have keeps : ∀ l, IsDirectory t l → IsDirectory t' l := fun l => Or.imp id (directories l)
  induction walk with
  | nil directory => exact .nil (keeps _ directory)
  | parent directory _ ih => exact .parent (keeps _ directory) ih
  | name proper directory _ ih => exact .name proper (directories _ directory) ih
  | link proper link _ _ follow ih => exact .link proper (links _ _ link) follow ih

theorem Real.unique (real : Real t l names r) (real' : Real t l names r') : r = r' := by
  induction real generalizing r' with
  | nil =>
    cases real'
    rfl
  | parent _ ih =>
    cases real' with
    | parent rest => exact ih rest
    | name proper => exact absurd rfl proper
    | link proper => exact absurd rfl proper
  | name proper plain _ ih =>
    cases real' with
    | parent => exact absurd rfl proper
    | name _ _ rest => exact ih rest
    | link _ link => exact absurd ⟨_, link⟩ plain
  | link proper link _ _ follow ih =>
    cases real' with
    | parent => exact absurd rfl proper
    | name _ plain => exact absurd ⟨_, link⟩ plain
    | link _ link' follow' rest =>
      rw [link] at link'
      cases link'
      obtain rfl := follow follow'
      exact ih rest

theorem Real.append (first : Real t l names m) (second : Real t m names' r) :
    Real t l (names ++ names') r := by
  induction first with
  | nil => exact second
  | parent _ ih => exact .parent (ih second)
  | name proper plain _ ih => exact .name proper plain (ih second)
  | link proper link follow _ _ ih => exact .link proper link follow (ih second)

/-- The last name leads to a node that is no link. -/
theorem Real.concat (real : Real t l names m) (proper : name ≠ "..")
    (plain : ¬ IsLink t (m ++ [name])) : Real t l (names ++ [name]) (m ++ [name]) :=
  real.append (.name proper plain (.nil _))

/-- Without links a path leads where its names say. -/
theorem real_iff_of_no_links (plain : ∀ place, ¬ IsLink t place) :
    Real t l names r ↔ r = collapse l names := by
  constructor
  · intro real
    induction real with
    | nil => rfl
    | parent _ ih => exact ih
    | name proper _ _ ih => rw [collapse, if_neg proper, ih]
    | link _ link => exact absurd ⟨_, link⟩ (plain _)
  · rintro rfl
    induction names generalizing l with
    | nil => exact .nil l
    | cons name names ih =>
      unfold collapse
      split
      · rename_i up
        subst up
        exact .parent ih
      · exact .name ‹_› (plain _) ih

end Paths

/-! ### Changes of a tree -/

section Changes

variable {γ : Type*} {t t' t'' : Tree γ} {l m r : Location} {name : String} {names : List String}

/-- Directories are added where nothing was. -/
def Grows (t t' : Tree γ) : Prop := ∀ l, t' l = t l ∨ t l = none ∧ t' l = some .directory

/-- The directory that names lead to is made with its parents, or is there. -/
inductive Makes (t : Tree γ) (l : Location) : List String → Tree γ → Prop where
  | there {names : List String} {r : Location} (walk : Walk t l names r) : Makes t l names t
  | make {names : List String} {name : String} {t' : Tree γ} {r : Location}
      (parents : Makes t l names t') (walk : Walk t' l names r) (proper : name ≠ "..")
      (free : t' (r ++ [name]) = none) :
      Makes t l (names ++ [name]) (Function.update t' (r ++ [name]) (some .directory))
  | found {names : List String} {name : String} {t' : Tree γ} {r : Location}
      (parents : Makes t l names t') (walk : Walk t' l (names ++ [name]) r) :
      Makes t l (names ++ [name]) t'

theorem Grows.refl (t : Tree γ) : Grows t t := fun _ => .inl rfl

theorem Grows.trans (first : Grows t t') (second : Grows t' t'') : Grows t t'' := by
  intro l
  rcases second l with same | ⟨none, made⟩
  · rw [same]
    exact first l
  · rcases first l with same | ⟨-, made'⟩
    · exact .inr ⟨same ▸ none, made⟩
    · rw [none] at made'
      contradiction

theorem grows_update (free : t l = none) : Grows t (Function.update t l (some .directory)) := by
  intro m
  by_cases same : m = l
  · subst same
    exact .inr ⟨free, Function.update_self ..⟩
  · exact .inl (Function.update_of_ne same ..)

theorem Makes.grows (makes : Makes t l names t') : Grows t t' := by
  induction makes with
  | there => exact .refl t
  | make _ _ _ free ih => exact ih.trans (grows_update free)
  | found _ _ ih => exact ih

theorem Grows.link (grows : Grows t t') {target : Route} :
    t' l = some (.link target) ↔ t l = some (.link target) := by
  rcases grows l with same | ⟨none, made⟩
  · rw [same]
  · simp [none, made]

theorem Grows.file (grows : Grows t t') {content : γ} :
    t' l = some (.file content) ↔ t l = some (.file content) := by
  rcases grows l with same | ⟨none, made⟩
  · rw [same]
  · simp [none, made]

/-- The links are the same. -/
def SameLinks (t t' : Tree γ) : Prop :=
  ∀ l target, t' l = some (.link target) ↔ t l = some (.link target)

theorem Grows.sameLinks (grows : Grows t t') : SameLinks t t' := fun _ _ => grows.link

theorem SameLinks.symm (same : SameLinks t t') : SameLinks t' t := fun l target =>
  (same l target).symm

theorem SameLinks.isLink (same : SameLinks t t') : IsLink t' l ↔ IsLink t l :=
  exists_congr fun target => same l target

theorem SameLinks.update {node : Option (Node γ)} (same : SameLinks t t') (old : ¬ IsLink t' l)
    (new : ∀ target, node ≠ some (.link target)) : SameLinks t (Function.update t' l node) := by
  intro m target
  by_cases here : m = l
  · subst here
    rw [Function.update_self]
    refine iff_of_false (new target) fun link => old ⟨target, ?_⟩
    exact (same m target).mpr link
  · rw [Function.update_of_ne here]
    exact same m target

/-- A file in a place where nothing was is in the way of no walk. -/
theorem walk_update_file {content : γ} (free : t m = none) :
    Walk (Function.update t m (some (.file content))) l names r ↔ Walk t l names r := by
  have same : ∀ place node, (∀ content, node ≠ .file content) →
      (Function.update t m (some (.file content)) place = some node ↔ t place = some node) := by
    intro place node other
    by_cases here : place = m
    · subst here
      rw [Function.update_self, free]
      exact iff_of_false (fun eq => other content (Option.some.inj eq).symm) nofun
    · rw [Function.update_of_ne here]
  constructor
  · exact fun walk => walk.congr (fun _ => (same _ _ (by simp)).mp) fun _ _ => (same _ _ (by simp)).mp
  · exact fun walk => walk.congr (fun _ => (same _ _ (by simp)).mpr) fun _ _ => (same _ _ (by simp)).mpr

/-- Where a path leads depends on the links only. -/
theorem Real.congr (real : Real t l names r) (same : SameLinks t t') : Real t' l names r := by
  induction real with
  | nil => exact .nil _
  | parent _ ih => exact .parent ih
  | name proper plain _ ih => exact .name proper (fun link => plain (same.isLink.mp link)) ih
  | link proper link _ _ follow ih => exact .link proper ((same _ _).mpr link) follow ih

end Changes

end FileTree
