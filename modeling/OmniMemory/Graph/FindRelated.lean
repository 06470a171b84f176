import OmniMemory.Graph.AdapterGraphMemory
import Mathlib.Data.ENat.Lattice
import Mathlib.Algebra.Order.Ring.Star
import Mathlib.Data.Rat.Star
import Mathlib.Data.Set.Finite.Lattice
import Mathlib.Data.Set.Finite.Range

/-! `find_related` returns the best related memories exactly if no trail that is longer than the
distance comes among the first rows. Every such trail makes a second row for its memory, because
the rows hold the length of the trail. -/

namespace OmniMemory.GraphMemory

open Interleave Interleave.Prog Bfs Trails AdapterGraphMemory

variable {ν π : Type} {config : ModelGraphMemoryConfig} {request : Request}

section Law

variable (config request) (g : MemoryGraph ν π config.memoryNodeLabel)

/-- The memory is another one, at this distance from the memory of the request. -/
def Related (memoryId : String) (n : Nat) : Prop :=
  ∃ start related, g.IsMemory config.memoryNodeLabel start request.memoryId ∧
    g.IsMemory config.memoryNodeLabel related memoryId ∧ memoryId ≠ request.memoryId ∧
    Distance (Adjacent (Follows g.toPropertyGraph (traversalQuery config request))) n start related

/-- The memory is within the depth, and its score is high enough. -/
def Eligible (memoryId : String) : Prop :=
  ∃ n, Related config request g memoryId n ∧ n ≤ effectiveDepth config request ∧
    clamp request.minScore ≤ score n

/-- What `find_related` is to return. -/
structure FindsBest (memories : List (ModelRelatedMemory π)) : Prop where
  once : (memories.map (·.memoryId)).Nodup
  eligible : ∀ m ∈ memories, Eligible config request g m.memoryId
  related : ∀ m ∈ memories, Related config request g m.memoryId m.depth ∧ m.score = score m.depth
  sorted : memories.Pairwise fun m m' => m'.score ≤ m.score
  length : (memories.length : ℕ∞) =
    min (effectiveLimit config request : ℕ∞) {id | Eligible config request g id}.encard
  best : ∀ m ∈ memories, ∀ id n, Related config request g id n →
    n ≤ effectiveDepth config request → id ∉ memories.map (·.memoryId) → score n ≤ m.score

/-- The limit of the query leaves room for the result, and before every trail that is longer than
the distance come as many memories as are returned. -/
structure NoSecondRow : Prop where
  room : min (effectiveLimit config request : ℕ∞) {id | Eligible config request g id}.encard ≤
    queryLimit config request
  enough : ∀ start trail related id, g.IsMemory config.memoryNodeLabel start request.memoryId →
    Trail (Follows g.toPropertyGraph (traversalQuery config request)) start trail related →
    g.IsMemory config.memoryNodeLabel related id → id ≠ request.memoryId →
    trail.length ≤ effectiveDepth config request → clamp request.minScore ≤ score trail.length →
    ¬ Related config request g id trail.length →
    (min (queryLimit config request) (effectiveLimit config request) : Nat) ≤
      {id | ∃ n, n < trail.length ∧ Related config request g id n}.encard

end Law

/-! ### Scores -/

theorem score_antitone {d e : Nat} (le : d ≤ e) (bound : e ≤ 10) : score e ≤ score d := by
  have all : ∀ e < 11, ∀ d < 11, d ≤ e → score e ≤ score d := by decide +kernel
  exact all e (by omega) d (by omega) le

theorem effectiveDepth_le : effectiveDepth config request ≤ 10 :=
  (Nat.min_le_right _ _).trans config.maxDepth_bounds.2

/-- Up to a large number, the limit of the query is no less than the limit. -/
theorem le_queryLimit (small : effectiveLimit config request ≤ 2 ^ 53) :
    effectiveLimit config request ≤ queryLimit config request := by
  refine le_min ?_ (Nat.min_le_right _ _)
  rcases Nat.eq_zero_or_pos (effectiveLimit config request) with zero | pos
  · rw [zero]
    exact Nat.zero_le _
  have limit : (0 : ℚ) < effectiveLimit config request := by exact_mod_cast pos
  have float := Binary64.le_round limit le_rfl small
  have product : (effectiveLimit config request : ℚ) ≤
      Binary64.round (effectiveLimit config request) * config.scoreFilterMultiplier :=
    float.trans (le_mul_of_one_le_right (limit.le.trans float) config.scoreFilterMultiplier_bounds.1)
  exact Nat.le_floor (Binary64.le_round (limit.trans_le product) product small)

/-! ### Rows -/

section Rows

variable {g : MemoryGraph ν π config.memoryNodeLabel} {row row' : Record π} {id : String} {n : Nat}

theorem follows_ends {g : PropertyGraph ν π} {q : Query} (a : ν) (r : Relationship ν) (b c d : ν)
    (follows : Follows g q a r b) (follows' : Follows g q c r d) : b = c ∨ b = d := by
  obtain ⟨-, -, ends⟩ := follows
  obtain ⟨-, -, ends'⟩ := follows'
  rcases ends with ⟨-, rfl⟩ | ⟨-, -, rfl⟩ <;> rcases ends' with ⟨rfl, rfl⟩ | ⟨-, rfl, rfl⟩ <;> simp

/-- A row is for a memory that is no farther. -/
theorem Matches.exists_related (row_ : Matches g.toPropertyGraph (traversalQuery config request) row) :
    ∃ n, n ≤ row.depth ∧ Related config request g row.memoryId n := by
  obtain ⟨start, related, trail, first, way, -, -, last, other, -, -, depth⟩ := row_
  obtain ⟨n, le, distance⟩ := way.way.steps.exists_distance
  exact ⟨n, depth ▸ le, start, related, first, last, other, distance⟩

theorem Matches.depth_le (row_ : Matches g.toPropertyGraph (traversalQuery config request) row) :
    row.depth ≤ effectiveDepth config request := by
  obtain ⟨_, _, trail, -, -, -, within, -, -, -, -, depth⟩ := row_
  exact depth ▸ within

/-- A memory within the depth has a row with its distance. -/
theorem Related.exists_row (related : Related config request g id n)
    (within : n ≤ effectiveDepth config request) :
    ∃ row, Matches g.toPropertyGraph (traversalQuery config request) row ∧ row.memoryId = id ∧
      row.depth = n := by
  obtain ⟨start, related, first, last, other, distance⟩ := related
  obtain ⟨trail, way, rfl, -⟩ := exists_trail follows_ends distance
  have some : 1 ≤ trail.length := by
    by_contra none
    have zero : trail.length = 0 := by omega
    rw [zero] at distance
    cases distance.1
    exact other (Option.some.inj (last.2.symm.trans first.2))
  exact ⟨⟨id, g.labels related, g.properties related, trail.length⟩,
    ⟨start, related, trail, first, way, some, within, last, other, rfl, rfl, rfl⟩, rfl, rfl⟩

theorem Related.unique {m : Nat} (related : Related config request g id n)
    (related' : Related config request g id m) : n = m := by
  obtain ⟨start, end_, first, last, -, distance⟩ := related
  obtain ⟨start', end', first', last', -, distance'⟩ := related'
  obtain rfl := g.unique _ _ _ first first'
  obtain rfl := g.unique _ _ _ last last'
  exact distance.unique distance'

theorem Matches.eq_of_depth
    (row_ : Matches g.toPropertyGraph (traversalQuery config request) row)
    (row_' : Matches g.toPropertyGraph (traversalQuery config request) row')
    (same : row.memoryId = row'.memoryId) (depths : row.depth = row'.depth) : row = row' := by
  obtain ⟨_, related, _, -, -, -, -, last, -, labels, properties, -⟩ := row_
  obtain ⟨_, related', _, -, -, -, -, last', -, labels', properties', -⟩ := row_'
  rw [← same] at last'
  obtain rfl := g.unique _ _ _ last last'
  cases row
  cases row'
  simp_all

/-- All rows of the query, by depth. -/
structure Rows (g : MemoryGraph ν π config.memoryNodeLabel) (request : Request)
    (rows : List (Record π)) : Prop where
  nodup : rows.Nodup
  mem_iff : ∀ row, row ∈ rows ↔ Matches g.toPropertyGraph (traversalQuery config request) row
  sorted : rows.Pairwise fun row row' => row.depth ≤ row'.depth

theorem exists_rows (g : MemoryGraph ν π config.memoryNodeLabel) (request : Request) :
    ∃ rows, Rows g request rows := by
  let ends := g.relationships.flatMap fun r => [r.source, r.target]
  let place : ν × Nat → Record π := fun p =>
    ⟨(g.memoryId p.1).getD "", g.labels p.1, g.properties p.1, p.2⟩
  have inside : {row | Matches g.toPropertyGraph (traversalQuery config request) row} ⊆
      place '' ({a | a ∈ ends} ×ˢ {n | n ≤ effectiveDepth config request}) := by
    rintro ⟨id, labels, properties, depth⟩ row_
    have within := row_.depth_le
    obtain ⟨start, related, trail, -, way, some, -, last, -, rfl, rfl, -⟩ := row_
    have known : related ∈ ends := by
      cases way.way with
      | nil => simp at some
      | @snoc b _ r _ _ follows =>
        refine List.mem_flatMap.mpr ⟨r, follows.1, ?_⟩
        rcases follows.2.2 with ⟨-, rfl⟩ | ⟨-, -, rfl⟩ <;> simp
    refine ⟨(related, depth), ⟨known, within⟩, ?_⟩
    simp [place, last.2]
  have finite := (((List.finite_toSet ends).prod (Set.finite_le_nat _)).image place).subset inside
  obtain ⟨rows, listing⟩ := Ranked.exists_listing Record.depth finite.toFinset.toList
  refine ⟨rows, listing.perm.nodup_iff.mpr (Finset.nodup_toList _), fun row => ?_, listing.sorted⟩
  rw [listing.perm.mem_iff, Finset.mem_toList, Set.Finite.mem_toFinset]
  rfl

/-! ### The result -/

/-- The score of a row is high enough. -/
def keeps (request : Request) (record : Record π) : Bool :=
  decide (clamp request.minScore ≤ score record.depth)

def toMemory (request : Request) (record : Record π) : ModelRelatedMemory π where
  memoryId := record.memoryId
  score := score record.depth
  path := [request.memoryId, record.memoryId]
  depth := record.depth
  labels := record.labels
  properties := record.properties

theorem filterMap_relatedMemory (records : List (Record π)) :
    records.filterMap (relatedMemory request) =
      (records.filter (keeps request)).map (toMemory request) := by
  induction records with
  | nil => rfl
  | cons record records ih =>
    rw [List.filterMap_cons, List.filter_cons]
    by_cases low : score record.depth < clamp request.minScore
    · simp [relatedMemory, keeps, low, not_le.mpr low, ih]
    · simp [relatedMemory, keeps, low, not_lt.mp low, ih, toMemory]

variable {rows : List (Record π)}

theorem Rows.score_sorted (all : Rows g request rows) :
    rows.Pairwise fun row row' => score row'.depth ≤ score row.depth := by
  refine all.sorted.imp_of_mem ?_
  intro row row' _ mem' le
  exact score_antitone le (((all.mem_iff row').mp mem').depth_le.trans effectiveDepth_le)

/-- The rows that are kept and returned. -/
def top (config : ModelGraphMemoryConfig) (request : Request) (rows : List (Record π)) :
    List (Record π) :=
  (rows.filter (keeps request)).take
    (min (queryLimit config request) (effectiveLimit config request))

theorem Rows.nlargest_eq (all : Rows g request rows) :
    nlargest (effectiveLimit config request)
      ((rows.take (queryLimit config request)).filterMap (relatedMemory request)) =
        (top config request rows).map (toMemory request) := by
  have sorted := all.score_sorted
  have keeps_ : rows.Pairwise fun row row' => keeps request row' = true → keeps request row = true :=
    sorted.imp fun le kept => by
      simp only [keeps, decide_eq_true_eq] at kept ⊢
      exact kept.trans le
  have scores : (((rows.filter (keeps request)).take (queryLimit config request)).map
      (toMemory request)).Pairwise fun m m' => m'.score ≤ m.score := by
    refine List.pairwise_map.mpr (List.Pairwise.sublist ?_ sorted)
    exact (List.take_sublist _ _).trans List.filter_sublist
  unfold nlargest top
  rw [filterMap_relatedMemory, Ranked.filter_take keeps_, scores.insertionSort_eq, ← List.map_take,
    List.take_take, Nat.min_comm]

/-- The memories that `find_related` may return. -/
theorem findRelated_memories {memories : List (ModelRelatedMemory π)} :
    Possibly (Serves g.toPropertyGraph) (findRelated config request) ()
      (fun result _ => result.memories = memories) ↔
    ∃ rows, Rows g request rows ∧ memories = (top config request rows).map (toMemory request) := by
  by_cases here : ∃ a, g.IsMemory config.memoryNodeLabel a request.memoryId
  · constructor
    · intro possibly
      obtain ⟨found, _, served, possibly⟩ := possibly_op.mp possibly
      obtain rfl : found = true := served.mpr here
      obtain ⟨records, _, ⟨rows, nodup, mem_iff, sorted, rfl⟩, possibly⟩ := possibly_op.mp possibly
      have all : Rows g request rows := ⟨nodup, mem_iff, sorted⟩
      have returned := possibly_ret.mp possibly
      exact ⟨rows, all, returned.symm.trans all.nlargest_eq⟩
    · rintro ⟨rows, all, rfl⟩
      refine possibly_op.mpr ⟨true, (), iff_of_true rfl here, ?_⟩
      refine possibly_op.mpr ⟨_, (), ⟨rows, all.nodup, all.mem_iff, all.sorted, rfl⟩, ?_⟩
      exact possibly_ret.mpr all.nlargest_eq
  · have none : Rows g request [] := by
      refine ⟨List.nodup_nil, fun row => iff_of_false List.not_mem_nil ?_, .nil⟩
      rintro ⟨start, _, _, first, -⟩
      exact here ⟨start, first⟩
    constructor
    · intro possibly
      obtain ⟨found, _, served, possibly⟩ := possibly_op.mp possibly
      obtain rfl : found = false := Bool.eq_false_iff.mpr (mt served.mp here)
      have returned := possibly_ret.mp possibly
      exact ⟨[], none, returned.symm.trans (by simp [top])⟩
    · rintro ⟨rows, all, rfl⟩
      obtain rfl : rows = [] := List.eq_nil_iff_forall_not_mem.mpr fun row mem =>
        List.not_mem_nil ((none.mem_iff row).mpr ((all.mem_iff row).mp mem))
      refine possibly_op.mpr ⟨false, (), iff_of_false Bool.false_ne_true here, ?_⟩
      exact possibly_ret.mpr (by simp [top])

/-! ### Second rows -/

theorem mem_kept (all : Rows g request rows) : row ∈ rows.filter (keeps request) ↔
    Matches g.toPropertyGraph (traversalQuery config request) row ∧
      clamp request.minScore ≤ score row.depth := by
  rw [List.mem_filter, all.mem_iff, keeps, decide_eq_true_eq]

/-- A memory no farther than a row that is kept has a row that is kept. -/
theorem Related.exists_kept (all : Rows g request rows) (related : Related config request g id n)
    (within : n ≤ effectiveDepth config request) (scores : clamp request.minScore ≤ score n) :
    ∃ row ∈ rows.filter (keeps request), row.memoryId = id ∧ row.depth = n := by
  obtain ⟨row, here, name, rfl⟩ := related.exists_row within
  exact ⟨row, (mem_kept all).mpr ⟨here, scores⟩, name, rfl⟩

theorem names_kept (all : Rows g request rows) :
    Ranked.names Record.memoryId (rows.filter (keeps request)) =
      {id | Eligible config request g id} := by
  ext id
  constructor
  · rintro ⟨row, mem, rfl⟩
    obtain ⟨here, scores⟩ := (mem_kept all).mp mem
    obtain ⟨n, le, related⟩ := here.exists_related
    have within := here.depth_le
    exact ⟨n, related, le.trans within,
      scores.trans (score_antitone le (within.trans effectiveDepth_le))⟩
  · rintro ⟨n, related, within, scores⟩
    obtain ⟨row, mem, name, -⟩ := related.exists_kept all within scores
    exact ⟨row, mem, name⟩

theorem namesBelow_kept (all : Rows g request rows) (within : n ≤ effectiveDepth config request)
    (scores : clamp request.minScore ≤ score n) :
    Ranked.namesBelow Record.memoryId Record.depth (rows.filter (keeps request)) n =
      {id | ∃ m, m < n ∧ Related config request g id m} := by
  ext id
  constructor
  · rintro ⟨row, mem, rfl, less⟩
    obtain ⟨m, le, related⟩ := ((mem_kept all).mp mem).1.exists_related
    exact ⟨m, le.trans_lt less, related⟩
  · rintro ⟨m, less, related⟩
    have scores' := scores.trans (score_antitone less.le (within.trans effectiveDepth_le))
    obtain ⟨row, mem, name, rfl⟩ := related.exists_kept all (less.le.trans within) scores'
    exact ⟨row, mem, name, less⟩

/-- A row that is kept is the least of its memory if its depth is the distance. -/
theorem least_iff (all : Rows g request rows) (mem : row ∈ rows.filter (keeps request)) :
    Ranked.Least Record.memoryId Record.depth (rows.filter (keeps request)) row ↔
      Related config request g row.memoryId row.depth := by
  obtain ⟨here, scores⟩ := (mem_kept all).mp mem
  have within := here.depth_le
  obtain ⟨n, le, related⟩ := here.exists_related
  constructor
  · intro least
    have scores' := scores.trans (score_antitone le (within.trans effectiveDepth_le))
    obtain ⟨row', mem', name, rfl⟩ := related.exists_kept all (le.trans within) scores'
    exact Nat.le_antisymm le (least row' mem' name) ▸ related
  · intro distance row' mem' name
    obtain ⟨m, le', related'⟩ := ((mem_kept all).mp mem').1.exists_related
    rw [name] at related'
    exact distance.unique related' ▸ le'

theorem kept_inj (all : Rows g request rows) : ∀ a ∈ rows.filter (keeps request),
    ∀ b ∈ rows.filter (keeps request), a.memoryId = b.memoryId → a.depth = b.depth → a = b := by
  intro a mem b mem' same depths
  exact ((mem_kept all).mp mem).1.eq_of_depth ((mem_kept all).mp mem').1 same depths

/-- What `NoSecondRow` says of the rows. -/
theorem enough_iff (all : Rows g request rows) :
    (∀ row ∈ rows.filter (keeps request),
      ¬ Ranked.Least Record.memoryId Record.depth (rows.filter (keeps request)) row →
        (min (queryLimit config request) (effectiveLimit config request) : Nat) ≤
          (Ranked.namesBelow Record.memoryId Record.depth (rows.filter (keeps request))
            row.depth).encard) ↔
    ∀ start trail related id, g.IsMemory config.memoryNodeLabel start request.memoryId →
      Trail (Follows g.toPropertyGraph (traversalQuery config request)) start trail related →
      g.IsMemory config.memoryNodeLabel related id → id ≠ request.memoryId →
      trail.length ≤ effectiveDepth config request → clamp request.minScore ≤ score trail.length →
      ¬ Related config request g id trail.length →
      (min (queryLimit config request) (effectiveLimit config request) : Nat) ≤
        {id | ∃ n, n < trail.length ∧ Related config request g id n}.encard := by
  constructor
  · intro enough start trail related id first way last other within scores second
    have some : 1 ≤ trail.length := by
      by_contra none
      have steps := way.way.steps
      rw [show trail.length = 0 by omega] at steps
      cases steps
      exact other (Option.some.inj (last.2.symm.trans first.2))
    let row : Record π := ⟨id, g.labels related, g.properties related, trail.length⟩
    have mem : row ∈ rows.filter (keeps request) :=
      (mem_kept all).mpr ⟨⟨start, related, trail, first, way, some, within, last, other, rfl, rfl,
        rfl⟩, scores⟩
    have many := enough row mem (mt (least_iff all mem).mp second)
    rwa [namesBelow_kept all within scores] at many
  · intro enough row mem second
    obtain ⟨here, scores⟩ := (mem_kept all).mp mem
    rw [namesBelow_kept all here.depth_le scores]
    have second := mt (least_iff all mem).mpr second
    obtain ⟨start, related, trail, first, way, -, within, last, other, -, -, depth⟩ := here
    rw [depth] at scores second ⊢
    exact enough start trail related row.memoryId first way last other within scores second

/-! ### The law -/

/-- In every order of the rows the best memories are returned, if second rows come late. -/
theorem findsBest_of_noSecondRow (late : NoSecondRow config request g) (all : Rows g request rows) :
    FindsBest config request g ((top config request rows).map (toMemory request)) := by
  let kept := rows.filter (keeps request)
  have listing : Ranked.Listing Record.depth kept kept :=
    ⟨.refl _, (all.sorted.sublist List.filter_sublist)⟩
  obtain ⟨n, count⟩ : ∃ n : ℕ, (Ranked.names Record.memoryId kept).encard = n := by
    have finite := Ranked.encard_names_le Record.memoryId kept
    exact ENat.ne_top_iff_exists.mp (ne_top_of_le_ne_top (ENat.natCast_ne_top _) finite) |>.imp
      fun _ => Eq.symm
  have eligible : {id | Eligible config request g id}.encard = n := names_kept all ▸ count
  have room : min (effectiveLimit config request) n ≤ queryLimit config request := by
    have room := late.room
    rw [eligible, ← Nat.mono_cast.map_min] at room
    exact Nat.cast_le.mp room
  have best := Ranked.best_take (all.nodup.filter _) (kept_inj all) count room
    ((enough_iff all).mpr late.enough) listing
  have sub : ∀ row ∈ top config request rows, row ∈ kept := fun row mem => List.mem_of_mem_take mem
  have map_id : ((top config request rows).map (toMemory request)).map (·.memoryId) =
      (top config request rows).map Record.memoryId := by
    rw [List.map_map]
    rfl
  constructor
  · rw [map_id]
    exact best.once
  · rintro _ mem
    obtain ⟨row, here, rfl⟩ := List.mem_map.mp mem
    exact (names_kept all).subset ⟨row, sub row here, rfl⟩
  · rintro _ mem
    obtain ⟨row, here, rfl⟩ := List.mem_map.mp mem
    exact ⟨(least_iff all (sub row here)).mp (best.least row here), rfl⟩
  · refine List.pairwise_map.mpr (List.Pairwise.sublist ?_ all.score_sorted)
    exact (List.take_sublist _ _).trans List.filter_sublist
  · rw [List.length_map, eligible, ← Nat.mono_cast.map_min]
    exact congrArg Nat.cast best.length
  · rintro _ mem id n related within absent
    obtain ⟨row, here, rfl⟩ := List.mem_map.mp mem
    rw [map_id] at absent
    show score n ≤ score row.depth
    rcases le_or_gt (clamp request.minScore) (score n) with scores | low
    · obtain ⟨row', mem', name, rfl⟩ := related.exists_kept all within scores
      have le := best.best row here row' mem' (name ▸ absent)
      exact score_antitone le (within.trans effectiveDepth_le)
    · exact low.le.trans ((mem_kept all).mp (sub row here)).2

/-- Every order of the rows that are kept is that of rows of the query. -/
theorem Rows.of_listing {listed : List (Record π)} (all : Rows g request rows)
    (listing : Ranked.Listing Record.depth (rows.filter (keeps request)) listed) :
    ∃ rows', Rows g request rows' ∧ rows'.filter (keeps request) = listed := by
  let rest := rows.filter fun row => !keeps request row
  have kept : ∀ row ∈ listed, keeps request row = true := fun row mem =>
    (List.mem_filter.mp (listing.perm.mem_iff.mp mem)).2
  have dropped : ∀ row ∈ rest, keeps request row = false := fun row mem => by
    simpa using (List.mem_filter.mp mem).2
  have perm : (listed ++ rest).Perm rows :=
    (listing.perm.append_right rest).trans (List.filter_append_perm _ rows)
  refine ⟨listed ++ rest, ⟨perm.nodup_iff.mpr all.nodup, fun row => ?_, ?_⟩, ?_⟩
  · rw [perm.mem_iff, all.mem_iff]
  · refine List.pairwise_append.mpr ⟨listing.sorted, all.sorted.sublist List.filter_sublist, ?_⟩
    intro row mem row' mem'
    by_contra farther
    -- A row that is no deeper than one that is kept is kept.
    have deep := (((all.mem_iff row).mp (perm.mem_iff.mp (List.mem_append_left _ mem))).depth_le).trans
      effectiveDepth_le
    have scores := kept row mem
    have low := dropped row' mem'
    simp only [keeps, decide_eq_true_eq, decide_eq_false_iff_not] at scores low
    exact low (scores.trans (score_antitone (not_le.mp farther).le deep))
  · rw [List.filter_append, List.filter_eq_self.mpr kept,
      List.filter_eq_nil_iff.mpr fun row mem => by simp [dropped row mem], List.append_nil]

/-- If the best memories are returned in every order of the rows, then second rows come late. -/
theorem noSecondRow_of_findsBest
    (always : ∀ rows, Rows g request rows →
      FindsBest config request g ((top config request rows).map (toMemory request))) :
    NoSecondRow config request g := by
  obtain ⟨rows, all⟩ := exists_rows g request
  constructor
  · rw [← (always rows all).length, List.length_map]
    have le := List.length_take_le (min (queryLimit config request) (effectiveLimit config request))
      (rows.filter (keeps request))
    exact_mod_cast le.trans (Nat.min_le_left _ _)
  · refine (enough_iff all).mp fun row mem second => ?_
    refine Ranked.le_encard_of_best (all.nodup.filter _) (kept_inj all) ?_ mem second
    intro listed listing row' mem'
    obtain ⟨rows', all', rfl⟩ := all.of_listing listing
    have related := ((always rows' all').related _ (List.mem_map_of_mem mem')).1
    have here := listing.perm.mem_iff.mp (List.mem_of_mem_take mem')
    exact (least_iff all here).mpr related

end Rows

/-- `find_related` returns the best related memories, however the rows of equal depths are ordered,
exactly if second rows come late. -/
theorem findRelated_findsBest_iff (g : MemoryGraph ν π config.memoryNodeLabel) :
    Always (Serves g.toPropertyGraph) (findRelated config request) ()
      (fun result _ => FindsBest config request g result.memories) ↔
    NoSecondRow config request g := by
  constructor
  · intro always
    refine noSecondRow_of_findsBest fun rows all => ?_
    obtain ⟨result, _, runs, same⟩ := findRelated_memories.mpr ⟨rows, all, rfl⟩
    exact same ▸ always result () runs
  · intro late result _ runs
    obtain ⟨rows, all, same⟩ := findRelated_memories.mp ⟨result, (), runs, rfl⟩
    rw [same]
    exact findsBest_of_noSecondRow late all

/-- Three memories, each related to the others. -/
def triangle : MemoryGraph (Fin 3) Unit ({} : ModelGraphMemoryConfig).memoryNodeLabel where
  labels _ := ["Memory"]
  memoryId a := some (["a", "b", "c"].get a)
  properties _ := ()
  relationships := [⟨0, 0, 1, "related_to"⟩, ⟨1, 1, 2, "related_to"⟩, ⟨2, 0, 2, "related_to"⟩]
  ids := by decide
  unique := by
    rintro a b memoryId ⟨-, name⟩ ⟨-, name'⟩
    have inj : ∀ a b : Fin 3, ["a", "b", "c"].get a = ["a", "b", "c"].get b → a = b := by decide
    exact inj a b (Option.some.inj (name.trans name'.symm))

/-- In a triangle every other memory has a second row, for the way through the third one. -/
theorem not_findsBest_triangle :
    ¬ Always (Serves triangle.toPropertyGraph) (findRelated {} { memoryId := "a" }) ()
      (fun result _ => FindsBest {} { memoryId := "a" } triangle result.memories) := by
  let config : ModelGraphMemoryConfig := {}
  let request : Request := { memoryId := "a" }
  intro always
  have late : NoSecondRow config request triangle := noSecondRow_of_findsBest fun rows all => by
    obtain ⟨result, _, runs, same⟩ := findRelated_memories.mpr ⟨rows, all, rfl⟩
    exact same ▸ always result () runs
  have isMemory : ∀ a, triangle.IsMemory "Memory" a (["a", "b", "c"].get a) := fun _ =>
    ⟨List.mem_singleton_self _, rfl⟩
  let edge := Follows triangle.toPropertyGraph (traversalQuery config request)
  have first : edge 0 ⟨0, 0, 1, "related_to"⟩ 1 := ⟨by decide, nofun, .inl ⟨rfl, rfl⟩⟩
  have second : edge 1 ⟨1, 1, 2, "related_to"⟩ 2 := ⟨by decide, nofun, .inl ⟨rfl, rfl⟩⟩
  have direct : edge 0 ⟨2, 0, 2, "related_to"⟩ 2 := ⟨by decide, nofun, .inl ⟨rfl, rfl⟩⟩
  have trail : Trail edge 0 [⟨0, 0, 1, "related_to"⟩, ⟨1, 1, 2, "related_to"⟩] 2 :=
    ⟨.snoc (.snoc (.nil 0) first) second, by decide⟩
  have near : Related config request triangle "c" 1 := by
    refine ⟨0, 2, isMemory 0, isMemory 2, by decide, ?_, ?_⟩
    · exact .snoc (.nil 0) ⟨_, direct⟩
    · intro m steps
      by_contra less
      obtain rfl : m = 0 := by omega
      cases steps
  have many := late.enough 0 _ 2 "c" (isMemory 0) trail (isMemory 2) (by decide) (by decide)
    (by decide +kernel) fun far => absurd (near.unique far) (by decide)
  have few : {id | ∃ n, n < 2 ∧ Related config request triangle id n}.encard ≤ 2 := by
    refine (Set.encard_le_encard ?_).trans (Set.encard_pair (show "b" ≠ "c" by decide)).le
    rintro id ⟨n, -, start, related, -, ⟨-, name⟩, other, -⟩
    obtain rfl : ["a", "b", "c"].get related = id := Option.some.inj name
    have others : ∀ a : Fin 3, ["a", "b", "c"].get a ≠ "a" →
        ["a", "b", "c"].get a = "b" ∨ ["a", "b", "c"].get a = "c" := by decide
    exact others related other
  have limit : min (queryLimit config request) (effectiveLimit config request) = 100 :=
    Nat.min_eq_right (le_queryLimit (by decide))
  rw [limit] at many
  have : 100 ≤ 2 := by exact_mod_cast many.trans few
  omega

end OmniMemory.GraphMemory
