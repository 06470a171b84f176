import OmniMemory.Crawl.Crawler
import OmniMemory.Lib.Selection
import OmniMemory.Lib.Separated
import Mathlib.Data.List.Find

/-! The two resolutions of a path to its scope: that of the crawler, which compares the parts of
paths, and that of `ModelScopeMappingConfig`, which compares strings. They agree below any mapped
prefix that is not a root; a root ends in the slash that the second one adds. -/

namespace OmniMemory

structure ModelPathScopeMapping where
  pathPrefix : String
  scopeRef : String
  minLength : pathPrefix ≠ "" ∧ scopeRef ≠ ""

structure ModelScopeMappingConfig where
  pathMappings : List ModelPathScopeMapping

/-- `ModelScopeMappingConfig.resolve_scope_for_path`. -/
def ModelScopeMappingConfig.resolveScopeForPath (self : ModelScopeMappingConfig)
    (absolutePath : String) : Option String :=
  let best := self.pathMappings.foldl
    (fun (best : Option ModelPathScopeMapping × Int) mapping =>
      let pathPrefix := mapping.pathPrefix
      if absolutePath = pathPrefix ∨ Crawl.startsWith absolutePath (pathPrefix ++ "/") then
        let prefixLength := pathPrefix.length
        if best.2 < prefixLength then (some mapping, prefixLength) else best
      else best) (none, -1)
  best.1.map (·.scopeRef)

namespace Crawl

open Selection Separated

/-! ### Normalised paths -/

/-- The form that `str` gives to an absolute path. -/
def Normalised (s : String) : Prop :=
  (PurePath.ofString s).str = s ∧ (PurePath.ofString s).isAbsolute = true

/-- A name in a path. -/
def IsName (name : String) : Prop := name ≠ "" ∧ '/' ∉ name.toList

theorem isName_of_mem {s : String} {name : String}
    (mem : name ∈ ((s.toList.splitOn '/').map String.ofList).filter fun part =>
      part ≠ "" ∧ part ≠ ".") : IsName name := by
  obtain ⟨mem, named⟩ := List.mem_filter.mp mem
  obtain ⟨part, here, rfl⟩ := List.mem_map.mp mem
  refine ⟨(of_decide_eq_true named).1, ?_⟩
  rw [String.toList_ofList]
  exact not_mem_of_mem_splitOn here

/-- The parts of an absolute path are a root and names. -/
theorem parts_of_isAbsolute {s : String} (absolute : (PurePath.ofString s).isAbsolute = true) :
    ∃ root names, (PurePath.ofString s).parts = root :: names ∧ (root = "/" ∨ root = "//") ∧
      ∀ name ∈ names, IsName name := by
  unfold PurePath.ofString at absolute ⊢
  generalize names : ((s.toList.splitOn '/').map String.ofList).filter
    (fun part => part ≠ "" ∧ part ≠ ".") = parts at absolute ⊢
  have named : ∀ name ∈ parts, IsName name := fun name mem => isName_of_mem (names ▸ mem)
  dsimp only at absolute ⊢
  split at absolute
  · exact ⟨_, _, rfl, .inl rfl, named⟩
  · exact ⟨_, _, rfl, .inr rfl, named⟩
  · exact ⟨_, _, rfl, .inl rfl, named⟩
  · exfalso
    cases parts with
    | nil => simp [PurePath.isAbsolute] at absolute
    | cons first rest =>
      have slashless := (named first (by simp)).2
      simp only [PurePath.isAbsolute, List.head?_cons, Bool.or_eq_true, beq_iff_eq,
        Option.some.injEq] at absolute
      rcases absolute with rfl | rfl <;> simp at slashless

/-- A path by its root and its names. -/
structure Shape (s root : String) (names : List String) : Prop where
  parts : (PurePath.ofString s).parts = root :: names
  known : root = "/" ∨ root = "//"
  named : ∀ name ∈ names, IsName name
  chars : s.toList = root.toList ++ ['/'].intercalate (names.map String.toList)

theorem Normalised.shape {s : String} (normalised : Normalised s) :
    ∃ root names, Shape s root names := by
  obtain ⟨same, absolute⟩ := normalised
  obtain ⟨root, names, parts, known, named⟩ := parts_of_isAbsolute absolute
  refine ⟨root, names, parts, known, named, ?_⟩
  rw [← same, PurePath.str, parts]
  rcases known with rfl | rfl <;> simp

section Shapes

variable {p q rp rq : String} {ps qs : List String}

theorem Shape.not_mem (shape : Shape p rp ps) : ∀ name ∈ ps.map String.toList, '/' ∉ name := by
  intro name mem
  obtain ⟨name, here, rfl⟩ := List.mem_map.mp mem
  exact (shape.named name here).2

/-- The path with a slash after it. -/
theorem Shape.slashed (shape : Shape p rp ps) (below : ps ≠ []) :
    p.toList ++ ['/'] = rp.toList ++ ended '/' (ps.map String.toList) := by
  rw [shape.chars, List.append_assoc, intercalate_append_sep (by simpa using below)]

/-- Names start with a character other than a slash. -/
theorem ended_starts (named : ∀ name ∈ qs, IsName name) (below : qs ≠ []) :
    ∃ c rest, c ≠ '/' ∧ ended '/' (qs.map String.toList) = c :: rest := by
  cases qs with
  | nil => contradiction
  | cons name names =>
    obtain ⟨some, slashless⟩ := named name (by simp)
    cases chars : name.toList with
    | nil => exact absurd (String.toList_eq_nil_iff.mp chars) some
    | cons c rest =>
      refine ⟨c, rest ++ '/' :: ended '/' (names.map String.toList), ?_, by simp [chars]⟩
      rintro rfl
      simp [chars] at slashless

/-- The config takes the mapping of a prefix for a path. -/
def textCovers (p q : String) : Bool := decide (p = q ∨ startsWith p (q ++ "/"))

/-- The crawler takes the mapping of a prefix for a path. -/
def partsCover (p q : String) : Bool := (PurePath.ofString p).isRelativeTo (PurePath.ofString q)

theorem textCovers_iff : textCovers p q = true ↔ q.toList ++ ['/'] <+: p.toList ++ ['/'] := by
  rw [textCovers, decide_eq_true_iff, append_sep_isPrefix, startsWith, List.isPrefixOf_iff_prefix,
    String.toList_append, ← String.toList_inj, eq_comm]
  rfl

theorem Shape.partsCover (shape : Shape p rp ps) (other : Shape q rq qs) :
    partsCover p q = true ↔ rq :: qs <+: rp :: ps := by
  have absolute : ∀ {s r ns}, Shape s r ns → (PurePath.ofString s).isAbsolute = true := by
    intro s r ns shape
    rw [PurePath.isAbsolute, shape.parts]
    rcases shape.known with rfl | rfl <;> rfl
  rw [Crawl.partsCover, PurePath.isRelativeTo, absolute shape, absolute other, shape.parts,
    other.parts, Bool.and_eq_true, List.isPrefixOf_iff_prefix]
  simp

theorem ended_names_isPrefix (hp : ∀ name ∈ ps.map String.toList, '/' ∉ name)
    (hq : ∀ name ∈ qs.map String.toList, '/' ∉ name) :
    ended '/' (qs.map String.toList) <+: ended '/' (ps.map String.toList) ↔ qs <+: ps := by
  rw [ended_isPrefix hp hq]
  exact List.prefix_map_iff_of_injective fun _ _ => String.toList_inj.mp

/-- Below the root, both ways to compare come to the same. -/
theorem Shape.covers_iff (shape : Shape p rp ps) (other : Shape q rq qs) (below : qs ≠ []) :
    textCovers p q = true ↔ Crawl.partsCover p q = true := by
  rw [textCovers_iff, shape.partsCover other, List.cons_prefix_cons, other.slashed below]
  obtain ⟨c, rest, ne, first⟩ := ended_starts other.named below
  -- What follows the root of the path, with a slash after it.
  obtain ⟨tail, text, rootOnly, names⟩ : ∃ tail, p.toList ++ ['/'] = rp.toList ++ tail ∧
      (ps = [] → tail = ['/']) ∧ (ps ≠ [] → tail = ended '/' (ps.map String.toList)) := by
    by_cases top : ps = []
    · exact ⟨['/'], by simp [shape.chars, top], fun _ => rfl, fun below => absurd top below⟩
    · exact ⟨_, shape.slashed top, fun h => absurd h top, fun _ => rfl⟩
  have inside : ended '/' (qs.map String.toList) <+: tail ↔ qs <+: ps := by
    by_cases top : ps = []
    · rw [rootOnly top, first, top]
      refine iff_of_false ?_ (by simpa using below)
      rintro ⟨_, same⟩
      exact ne (List.cons.inj same).1
    · rw [names top]
      exact ended_names_isPrefix shape.not_mem other.not_mem
  rw [text]
  rcases other.known with rfl | rfl <;> rcases shape.known with rfl | rfl
  · rw [List.prefix_append_right_inj, inside, eq_self, true_and]
  · refine iff_of_false ?_ (by simp)
    rw [first]
    rintro ⟨_, same⟩
    exact ne (List.cons.inj (List.cons.inj same).2).1
  · refine iff_of_false ?_ (by simp)
    rintro ⟨more, same⟩
    have same := (List.cons.inj same).2
    by_cases top : ps = []
    · rw [rootOnly top, first] at same
      simp at same
    · obtain ⟨d, rest', ne', second⟩ := ended_starts shape.named top
      rw [names top, second] at same
      exact ne' (List.cons.inj same).1.symm
  · rw [List.prefix_append_right_inj, inside, eq_self, true_and]

/-- Among the prefixes below the root that cover a path, more parts are more characters. -/
theorem Shape.size_le {q' rq' : String} {qs' : List String} (shape : Shape p rp ps)
    (first : Shape q rq qs) (second : Shape q' rq' qs') (below : qs ≠ [])
    (covers : Crawl.partsCover p q = true) (covers' : Crawl.partsCover p q' = true) :
    ((rq :: qs).length < (rq' :: qs').length → q.length < q'.length) ∧
      ((rq :: qs).length ≤ (rq' :: qs').length → q.length ≤ q'.length) := by
  have le : (rq :: qs).length ≤ (rq' :: qs').length → q = q' ∨ q.length < q'.length := by
    intro le
    have nested := List.prefix_of_prefix_length_le ((shape.partsCover first).mp covers)
      ((shape.partsCover second).mp covers') le
    have text := (second.covers_iff first below).mpr ((second.partsCover first).mpr nested)
    rw [textCovers_iff, append_sep_isPrefix, String.toList_inj] at text
    refine text.imp_right fun longer => ?_
    have length := longer.length_le
    rw [List.length_append, List.length_singleton, String.length_toList,
      String.length_toList] at length
    omega
  refine ⟨fun less => (le (Nat.le_of_lt less)).resolve_left ?_, fun most => ?_⟩
  · rintro rfl
    have same := first.parts.symm.trans second.parts
    rw [same] at less
    exact Nat.lt_irrefl _ less
  · rcases le most with rfl | less
    · exact Nat.le_refl _
    · exact Nat.le_of_lt less

/-- A root as a prefix is shorter than a prefix below a root. -/
theorem Shape.root_lt {r : String} (other : Shape q rq qs)
    (below : qs ≠ []) (root : r = "/" ∨ r = "//") (text : textCovers p r = true)
    (covers : textCovers p q = true) : r.length < q.length := by
  have slashed := other.slashed below
  obtain ⟨c, rest, ne, first⟩ := ended_starts other.named below
  rw [first] at slashed
  have long : rq.length + 1 ≤ q.length := by
    have length := congrArg List.length slashed
    have some : rest ≠ [] := by
      rintro rfl
      exact ne (List.singleton_inj.mp (List.append_inj' slashed rfl).2).symm
    have := List.length_pos_of_ne_nil some
    simp only [List.length_append, List.length_cons, List.length_nil, String.length_toList]
      at length
    omega
  have rooted : 1 ≤ rq.length := by
    rcases other.known with rfl | rfl <;> decide
  rcases root with rfl | rfl
  · have : "/".length = 1 := by decide
    omega
  · -- Nothing else covers a path that starts with three slashes.
    exfalso
    obtain ⟨more, text⟩ := textCovers_iff.mp text
    obtain ⟨more', covers⟩ := textCovers_iff.mp covers
    rw [slashed, ← text] at covers
    rcases other.known with rfl | rfl
    · exact ne (List.cons.inj (List.cons.inj covers).2).1
    · exact ne (List.cons.inj (List.cons.inj (List.cons.inj covers).2).2).1

end Shapes

/-! ### The two resolutions -/

variable {mappings : List ModelPathScopeMapping} {p : String}

/-- The mappings as the crawler takes them. -/
def pairs (mappings : List ModelPathScopeMapping) : List (String × String) :=
  mappings.map fun mapping => (mapping.pathPrefix, mapping.scopeRef)

/-- The scope of a selected mapping. -/
def scopeOrDefault (best : Option ModelPathScopeMapping) : String :=
  (best.map (·.scopeRef)).getD defaultScopeRef

theorem scopeRefForPath_eq (mappings : List ModelPathScopeMapping) (p : String) :
    scopeRefForPath (PurePath.ofString p) (pairs mappings) =
      scopeOrDefault (firstLargest (fun m => partsCover p m.pathPrefix)
        (fun m => (PurePath.ofString m.pathPrefix).parts.length) mappings) := by
  let size (m : ModelPathScopeMapping) : Nat := (PurePath.ofString m.pathPrefix).parts.length
  let view (best : Option ModelPathScopeMapping) : Int × String :=
    (best.elim (-1) fun m => size m, scopeOrDefault best)
  let step (best : Int × String) (m : ModelPathScopeMapping) : Int × String :=
    if partsCover p m.pathPrefix ∧ best.1 < size m then (size m, m.scopeRef) else best
  have turn : ∀ best m, step (view best) m =
      view (better (fun m => partsCover p m.pathPrefix) size best m) := by
    intro best m
    have positive : (-1 : Int) < size m := by omega
    cases best with
    | none => by_cases fit : partsCover p m.pathPrefix <;>
        simp [step, view, better, fit, scopeOrDefault, positive]
    | some b => by_cases fit : partsCover p m.pathPrefix <;> by_cases less : size b < size m <;>
        simp [step, view, better, fit, less, scopeOrDefault]
  have loop : mappings.foldl step (view none) =
      view (firstLargest (fun m => partsCover p m.pathPrefix) size mappings) :=
    List.foldl_hom view turn
  rw [scopeRefForPath, pairs, List.foldl_map]
  exact congrArg Prod.snd loop

theorem resolveScopeForPath_eq (config : ModelScopeMappingConfig) (p : String) :
    config.resolveScopeForPath p =
      (firstLargest (fun m => textCovers p m.pathPrefix) (fun m => m.pathPrefix.length)
        config.pathMappings).map (·.scopeRef) := by
  let size (m : ModelPathScopeMapping) : Nat := m.pathPrefix.length
  let view (best : Option ModelPathScopeMapping) : Option ModelPathScopeMapping × Int :=
    (best, best.elim (-1) fun m => size m)
  let step (best : Option ModelPathScopeMapping × Int) (m : ModelPathScopeMapping) :
      Option ModelPathScopeMapping × Int :=
    if p = m.pathPrefix ∨ startsWith p (m.pathPrefix ++ "/") then
      if best.2 < size m then (some m, size m) else best
    else best
  have turn : ∀ best m, step (view best) m =
      view (better (fun m => textCovers p m.pathPrefix) size best m) := by
    intro best m
    have positive : (-1 : Int) < size m := by omega
    have fits : (p = m.pathPrefix ∨ startsWith p (m.pathPrefix ++ "/")) ↔
        textCovers p m.pathPrefix = true := by rw [textCovers, decide_eq_true_iff]
    simp only [step, fits]
    cases best with
    | none => by_cases fit : textCovers p m.pathPrefix <;> simp [view, better, fit, positive]
    | some b => by_cases fit : textCovers p m.pathPrefix <;> by_cases less : size b < size m <;>
        simp [view, better, fit, less]
  have loop : config.pathMappings.foldl step (view none) =
      view (firstLargest (fun m => textCovers p m.pathPrefix) size config.pathMappings) :=
    List.foldl_hom view turn
  exact congrArg (fun best => best.1.map (·.scopeRef)) loop

/-- The scope of the first mapping of a root. -/
def rootScope (mappings : List ModelPathScopeMapping) (root : String) : String :=
  scopeOrDefault (mappings.find? fun m => m.pathPrefix = root)

/-- Some mapping of a prefix below a root covers the path. -/
def Covered (mappings : List ModelPathScopeMapping) (p : String) : Prop :=
  ∃ m ∈ mappings, partsCover p m.pathPrefix = true ∧
    1 < (PurePath.ofString m.pathPrefix).parts.length

/-- The mapped roots give the path one scope, whether its parts are compared or its text. -/
def RootsAgree (mappings : List ModelPathScopeMapping) (p : String) : Prop :=
  match (PurePath.ofString p).parts with
  | ["/"] => True
  | "/" :: _ => rootScope mappings "/" = defaultScopeRef
  | ["//"] => (∃ m ∈ mappings, m.pathPrefix = "//") ∨ rootScope mappings "/" = defaultScopeRef
  | _ => rootScope mappings "//" = rootScope mappings "/"

/-- `scope` is that of the first of the longest mapped prefixes that are the path or an ancestor,
or the default if there is none. -/
def IsLongestScope (mappings : List ModelPathScopeMapping) (p scope : String) : Prop :=
  (∃ m, IsFirstLargest (fun m => partsCover p m.pathPrefix)
      (fun m => (PurePath.ofString m.pathPrefix).parts.length) mappings m ∧ m.scopeRef = scope) ∨
    (∀ m ∈ mappings, partsCover p m.pathPrefix = false) ∧ scope = defaultScopeRef

theorem isLongestScope_iff {scope : String} : IsLongestScope mappings p scope ↔
    scopeRefForPath (PurePath.ofString p) (pairs mappings) = scope := by
  rw [scopeRefForPath_eq, IsLongestScope]
  cases best : firstLargest (fun m => partsCover p m.pathPrefix)
      (fun m => (PurePath.ofString m.pathPrefix).parts.length) mappings with
  | none =>
    have unfit := firstLargest_eq_none.mp best
    constructor
    · rintro (⟨m, largest, -⟩ | ⟨-, rfl⟩)
      · exact absurd largest.1 (by simp [unfit m largest.mem])
      · rfl
    · rintro rfl
      exact .inr ⟨unfit, rfl⟩
  | some m =>
    have largest := firstLargest_eq_some.mp best
    constructor
    · rintro (⟨n, other, rfl⟩ | ⟨unfit, -⟩)
      · rw [largest.unique other]
        rfl
      · exact absurd largest.1 (by simp [unfit m largest.mem])
    · rintro rfl
      exact .inl ⟨m, largest, rfl⟩

/-- The two resolutions give the scope of the longest mapped ancestor-or-self. -/
def Agree (config : ModelScopeMappingConfig) (p : String) : Prop :=
  IsLongestScope config.pathMappings p
      (scopeRefForPath (PurePath.ofString p) (pairs config.pathMappings)) ∧
    (config.resolveScopeForPath p).getD defaultScopeRef =
      scopeRefForPath (PurePath.ofString p) (pairs config.pathMappings)

theorem agree_of_covered {config : ModelScopeMappingConfig}
    (prefixes : ∀ m ∈ config.pathMappings, Normalised m.pathPrefix) (path : Normalised p)
    (covered : Covered config.pathMappings p) : Agree config p := by
  refine ⟨isLongestScope_iff.mpr rfl, ?_⟩
  obtain ⟨rp, ps, shape⟩ := path.shape
  obtain ⟨m, mem, covers, deep⟩ := covered
  rw [scopeRefForPath_eq, resolveScopeForPath_eq]
  cases best : firstLargest (fun m => partsCover p m.pathPrefix)
      (fun m => (PurePath.ofString m.pathPrefix).parts.length) config.pathMappings with
  | none =>
    have unfit := firstLargest_eq_none.mp best m mem
    exact absurd covers (by simp [unfit])
  | some a =>
    have largest := firstLargest_eq_some.mp best
    obtain ⟨ra, as, shapeA⟩ := (prefixes a largest.mem).shape
    have below : as ≠ [] := by
      rintro rfl
      have most := largest.le mem covers
      rw [shapeA.parts] at most
      exact absurd deep (Nat.not_lt.mpr most)
    have text := (shape.covers_iff shapeA below).mpr largest.1
    have same : firstLargest (fun m => textCovers p m.pathPrefix) (fun m => m.pathPrefix.length)
        config.pathMappings = some a := by
      refine firstLargest_eq_some.mpr (largest.transfer text fun b memb textb => ?_)
      obtain ⟨rb, bs, shapeB⟩ := (prefixes b memb).shape
      by_cases top : bs = []
      · subst top
        have root : b.pathPrefix = rb := String.toList_inj.mp (by simp [shapeB.chars])
        rw [root] at textb ⊢
        exact .inl (shapeA.root_lt below shapeB.known textb text)
      · have covers := (shape.covers_iff shapeB top).mp textb
        have sizes := shape.size_le shapeB shapeA top covers largest.1
        rw [shapeB.parts, shapeA.parts]
        exact .inr ⟨covers, sizes⟩
    rw [same]
    rfl

theorem Shape.covers_root {rp : String} {ps : List String} (shape : Shape p rp ps) :
    (textCovers p "/" = true ↔ ps = [] ∨ rp = "//") ∧
      (textCovers p "//" = true ↔ ps = [] ∧ rp = "//") := by
  rw [textCovers_iff, textCovers_iff]
  by_cases top : ps = []
  · subst top
    rw [shape.chars]
    rcases shape.known with rfl | rfl <;> simp
  · obtain ⟨c, rest, ne, first⟩ := ended_starts shape.named top
    rw [shape.slashed top, first]
    rcases shape.known with rfl | rfl <;> simp [top, ne.symm]

theorem root_shape {root : String} (known : root = "/" ∨ root = "//") : Shape root root [] := by
  rcases known with rfl | rfl <;>
    exact ⟨by decide +kernel, by simp, by simp, by simp⟩

section Uncovered

variable {rp : String} {ps : List String}

/-- Where only roots cover the path, a mapping that fits is one of a root. -/
theorem root_of_uncovered (shape : Shape p rp ps) (uncovered : ¬ Covered mappings p)
    {m : ModelPathScopeMapping} (mem : m ∈ mappings) (normalised : Normalised m.pathPrefix)
    (covers : partsCover p m.pathPrefix = true ∨ textCovers p m.pathPrefix = true) :
    m.pathPrefix = "/" ∨ m.pathPrefix = "//" := by
  obtain ⟨rm, ms, other⟩ := normalised.shape
  by_cases top : ms = []
  · subst top
    have root : m.pathPrefix = rm := String.toList_inj.mp (by simp [other.chars])
    exact root ▸ other.known
  · have covers : partsCover p m.pathPrefix = true :=
      covers.elim id (shape.covers_iff other top).mp
    refine absurd ⟨m, mem, covers, ?_⟩ uncovered
    rw [other.parts, List.length_cons]
    have := List.length_pos_of_ne_nil top
    omega

/-- The crawler takes the mapping of the path's own root. -/
theorem partsCover_iff_root (shape : Shape p rp ps) (uncovered : ¬ Covered mappings p)
    {m : ModelPathScopeMapping} (mem : m ∈ mappings) (normalised : Normalised m.pathPrefix) :
    partsCover p m.pathPrefix = true ↔ m.pathPrefix = rp := by
  constructor
  · intro covers
    have root := root_shape (root_of_uncovered shape uncovered mem normalised (.inl covers))
    exact (List.cons_prefix_cons.mp ((shape.partsCover root).mp covers)).1
  · intro same
    rw [same, shape.partsCover (root_shape shape.known)]
    simp

theorem scopeRefForPath_of_uncovered (shape : Shape p rp ps)
    (prefixes : ∀ m ∈ mappings, Normalised m.pathPrefix) (uncovered : ¬ Covered mappings p) :
    scopeRefForPath (PurePath.ofString p) (pairs mappings) = rootScope mappings rp := by
  have fits : ∀ m ∈ mappings, partsCover p m.pathPrefix = true ↔ m.pathPrefix = rp :=
    fun m mem => partsCover_iff_root shape uncovered mem (prefixes m mem)
  rw [scopeRefForPath_eq, rootScope, firstLargest_of_same_size (n := 1)]
  · rw [List.find?_congr fun m mem =>
      Bool.eq_iff_iff.mpr ((fits m mem).trans decide_eq_true_iff.symm)]
  · intro m mem covers
    rw [(fits m mem).mp covers, (root_shape shape.known).parts]
    rfl

/-- The config takes the mapping of a root that alone fits. -/
theorem resolveScopeForPath_of_root {config : ModelScopeMappingConfig} {root : String}
    (fits : ∀ m ∈ config.pathMappings, textCovers p m.pathPrefix = true ↔ m.pathPrefix = root) :
    (config.resolveScopeForPath p).getD defaultScopeRef = rootScope config.pathMappings root := by
  rw [resolveScopeForPath_eq, rootScope, firstLargest_of_same_size (n := root.length)]
  · rw [List.find?_congr fun m mem =>
      Bool.eq_iff_iff.mpr ((fits m mem).trans decide_eq_true_iff.symm)]
    rfl
  · intro m mem covers
    rw [(fits m mem).mp covers]

/-- Where the double root does not fit, the single root alone does. -/
theorem textCovers_iff_slash (shape : Shape p rp ps) (uncovered : ¬ Covered mappings p)
    {m : ModelPathScopeMapping} (mem : m ∈ mappings) (normalised : Normalised m.pathPrefix)
    (slash : textCovers p "/" = true)
    (double : m.pathPrefix = "//" → textCovers p m.pathPrefix ≠ true) :
    textCovers p m.pathPrefix = true ↔ m.pathPrefix = "/" := by
  constructor
  · intro covers
    exact (root_of_uncovered shape uncovered mem normalised (.inr covers)).resolve_right
      fun same => double same covers
  · intro same
    rw [same]
    exact slash

/-- The double root is longer than the single one, which fits its text too. -/
theorem resolveScopeForPath_of_double {config : ModelScopeMappingConfig}
    (roots : ∀ m ∈ config.pathMappings, textCovers p m.pathPrefix = true →
      m.pathPrefix = "/" ∨ m.pathPrefix = "//")
    (covers : textCovers p "//" = true) (mapped : ∃ m ∈ config.pathMappings, m.pathPrefix = "//") :
    (config.resolveScopeForPath p).getD defaultScopeRef = rootScope config.pathMappings "//" := by
  have first : firstLargest (fun m => decide (m.pathPrefix = "//"))
      (fun m => m.pathPrefix.length) config.pathMappings =
      config.pathMappings.find? fun m => m.pathPrefix = "//" :=
    firstLargest_of_same_size (n := 2) fun m _ same => by rw [of_decide_eq_true same]; rfl
  cases found : config.pathMappings.find? fun m => m.pathPrefix = "//" with
  | none =>
    obtain ⟨m, mem, same⟩ := mapped
    exact absurd (decide_eq_true same) (List.find?_eq_none.mp found m mem)
  | some a =>
    have largest := firstLargest_eq_some.mp (first.trans found)
    have own := of_decide_eq_true largest.1
    rw [resolveScopeForPath_eq, rootScope, found,
      firstLargest_eq_some.mpr (largest.transfer (own ▸ covers) fun b mem covers => ?_)]
    · rfl
    · rcases roots b mem covers with same | same
      · left
        rw [same, own]
        decide
      · exact .inr ⟨decide_eq_true same, id, id⟩

theorem rootScope_of_unmapped {root : String} (unmapped : ¬ ∃ m ∈ mappings, m.pathPrefix = root) :
    rootScope mappings root = defaultScopeRef := by
  rw [rootScope, List.find?_eq_none.mpr]
  · rfl
  · exact fun m mem same => unmapped ⟨m, mem, of_decide_eq_true same⟩

theorem agree_iff_of_uncovered {config : ModelScopeMappingConfig} (shape : Shape p rp ps)
    (prefixes : ∀ m ∈ config.pathMappings, Normalised m.pathPrefix)
    (uncovered : ¬ Covered config.pathMappings p) :
    (config.resolveScopeForPath p).getD defaultScopeRef = rootScope config.pathMappings rp ↔
      RootsAgree config.pathMappings p := by
  obtain ⟨slash, slashes⟩ := shape.covers_root
  have roots : ∀ m ∈ config.pathMappings, textCovers p m.pathPrefix = true →
      m.pathPrefix = "/" ∨ m.pathPrefix = "//" := fun m mem covers =>
    root_of_uncovered shape uncovered mem (prefixes m mem) (.inr covers)
  have single (fits : textCovers p "/" = true) (double : ∀ m ∈ config.pathMappings,
      m.pathPrefix = "//" → textCovers p m.pathPrefix ≠ true) :=
    resolveScopeForPath_of_root fun m mem =>
      textCovers_iff_slash shape uncovered mem (prefixes m mem) fits (double m mem)
  rw [RootsAgree, shape.parts]
  rcases shape.known with rfl | rfl
  · cases ps with
    | nil =>
      refine iff_of_true (single (slash.mpr (.inl rfl)) fun m _ same covers => ?_) trivial
      rw [same] at covers
      simpa using slashes.mp covers
    | cons name names =>
      have unfit : ∀ m ∈ config.pathMappings, textCovers p m.pathPrefix = false := by
        intro m mem
        rw [Bool.eq_false_iff]
        intro covers
        rcases roots m mem covers with same | same <;> rw [same] at covers
        · simpa using slash.mp covers
        · simpa using slashes.mp covers
      rw [resolveScopeForPath_eq, firstLargest_eq_none.mpr unfit]
      exact eq_comm
  · cases ps with
    | nil =>
      by_cases mapped : ∃ m ∈ config.pathMappings, m.pathPrefix = "//"
      · exact iff_of_true (resolveScopeForPath_of_double roots (slashes.mpr ⟨rfl, rfl⟩) mapped)
          (.inl mapped)
      · rw [single (slash.mpr (.inl rfl)) fun m mem same => absurd ⟨m, mem, same⟩ mapped,
          rootScope_of_unmapped mapped, or_iff_right mapped]
        exact Iff.rfl
    | cons name names =>
      rw [single (slash.mpr (.inr rfl)) fun m _ same covers => ?_]
      · exact eq_comm
      · rw [same] at covers
        simpa using slashes.mp covers

end Uncovered

theorem agree_iff (config : ModelScopeMappingConfig) (p : String)
    (prefixes : ∀ m ∈ config.pathMappings, Normalised m.pathPrefix) (path : Normalised p) :
    Agree config p ↔ Covered config.pathMappings p ∨ RootsAgree config.pathMappings p := by
  by_cases covered : Covered config.pathMappings p
  · exact iff_of_true (agree_of_covered prefixes path covered) (.inl covered)
  · obtain ⟨rp, ps, shape⟩ := path.shape
    rw [Agree, isLongestScope_iff, scopeRefForPath_of_uncovered shape prefixes covered,
      agree_iff_of_uncovered shape prefixes covered, or_iff_right covered]
    simp

/-- The root and a directory below it. -/
def rootAndDocs : ModelScopeMappingConfig :=
  ⟨[⟨"/", "root", by decide⟩, ⟨"/docs", "docs", by decide⟩]⟩

theorem normalised_rootAndDocs : ∀ m ∈ rootAndDocs.pathMappings, Normalised m.pathPrefix := by
  intro m mem
  simp only [rootAndDocs, List.mem_cons, List.not_mem_nil, or_false] at mem
  rcases mem with rfl | rfl <;> exact ⟨by decide +kernel, by decide +kernel⟩

theorem agree_docs : Agree rootAndDocs "/docs/a.md" :=
  (agree_iff rootAndDocs "/docs/a.md" normalised_rootAndDocs
    ⟨by decide +kernel, by decide +kernel⟩).mpr
    (.inl ⟨⟨"/docs", "docs", by decide⟩, by simp [rootAndDocs], by decide +kernel,
      by decide +kernel⟩)

/-- The root covers every path for the crawler, and only itself for the config. -/
theorem not_agree_root : ¬ ∀ (config : ModelScopeMappingConfig) (p : String),
    (∀ m ∈ config.pathMappings, Normalised m.pathPrefix) → Normalised p → Agree config p := by
  intro all
  obtain ⟨-, same⟩ := all rootAndDocs "/home" normalised_rootAndDocs
    ⟨by decide +kernel, by decide +kernel⟩
  revert same
  decide +kernel

end Crawl

end OmniMemory
