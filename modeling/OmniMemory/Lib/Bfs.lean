import Mathlib.Data.List.Nodup
import Mathlib.Data.List.Chain
import Mathlib.Data.List.Perm.Subperm
import Mathlib.Data.Nat.Find

/-! Distances in a graph, and the queue of a breadth-first search. An entry of the queue stands for a
node and holds what the search knows on the way to it. A node is marked as visited when an entry
for it joins the queue. The entries that leave the queue are one for each node that is near enough,
with the least depth. -/

namespace Bfs

variable {α ε : Type*}

/-! ### Distances -/

/-- As many steps lead from one node to the other. -/
inductive Steps (adj : α → α → Prop) : Nat → α → α → Prop where
  | nil (a : α) : Steps adj 0 a a
  | snoc {n : Nat} {a b c : α} (steps : Steps adj n a b) (last : adj b c) : Steps adj (n + 1) a c

/-- The least number of steps from one node to the other. -/
def Distance (adj : α → α → Prop) (n : Nat) (a b : α) : Prop :=
  Steps adj n a b ∧ ∀ m, Steps adj m a b → n ≤ m

/-- The nodes on the way from one node to the other. -/
structure IsPath (adj : α → α → Prop) (a b : α) (path : List α) : Prop where
  head : path.head? = some a
  last : path.getLast? = some b
  chain : path.IsChain adj

section Distances

variable {adj : α → α → Prop} {a b c : α} {n m : Nat} {path : List α}

theorem Distance.unique (distance : Distance adj n a b) (distance' : Distance adj m a b) : n = m :=
  Nat.le_antisymm (distance.2 m distance'.1) (distance'.2 n distance.1)

theorem Steps.exists_distance (steps : Steps adj n a b) : ∃ m, m ≤ n ∧ Distance adj m a b := by
  classical
  have some : ∃ m, Steps adj m a b := ⟨n, steps⟩
  exact ⟨Nat.find some, Nat.find_min' some steps, Nat.find_spec some,
    fun m steps => Nat.find_min' some steps⟩

/-- All nodes before the last of the shortest ways are nearer. -/
theorem Distance.exists_pred (distance : Distance adj (n + 1) a c) :
    ∃ b, Distance adj n a b ∧ adj b c := by
  obtain ⟨steps, least⟩ := distance
  cases steps with
  | @snoc _ _ b _ steps last =>
    refine ⟨b, ⟨steps, fun m shorter => ?_⟩, last⟩
    have := least (m + 1) (.snoc shorter last)
    omega

theorem isPath_singleton (a : α) : IsPath adj a a [a] := ⟨rfl, rfl, .singleton a⟩

theorem IsPath.concat (isPath : IsPath adj a b path) (last : adj b c) :
    IsPath adj a c (path ++ [c]) where
  head := by rw [List.head?_append, isPath.head, Option.some_or]
  last := List.getLast?_concat
  chain := by
    refine isPath.chain.append (.singleton c) fun x end_ y start => ?_
    obtain rfl := Option.some.inj (isPath.last.symm.trans end_)
    obtain rfl := Option.some.inj start
    exact last

end Distances

/-! ### The queue -/

section Queue

variable [DecidableEq α] (node : ε → α) (children : ε → List ε)

/-- An entry joins the queue unless its node is visited. -/
def enqueue (s : List ε × List α) (c : ε) : List ε × List α :=
  if node c ∈ s.2 then s else (s.1 ++ [c], node c :: s.2)

/-- The entries in the order in which they leave the queue, if there is fuel for all of them. -/
def order : Nat → List ε → List α → Option (List ε)
  | _, [], _ => some []
  | 0, _ :: _, _ => none
  | fuel + 1, e :: queue, visited =>
    let next := (children e).foldl (enqueue node) (queue, visited)
    (order fuel next.1 next.2).map (e :: ·)

variable {node children} {queue done : List ε} {visited : List α} {e : ε}

/-- What joins the queue: one entry for each node that was not visited. -/
theorem foldl_enqueue (node : ε → α) (cs : List ε) (queue : List ε) (visited : List α) :
    ∃ new, (cs.foldl (enqueue node) (queue, visited)).1 = queue ++ new ∧ new ⊆ cs ∧
      (new.map node).Nodup ∧ (∀ c ∈ new, node c ∉ visited) ∧
      (∀ a, a ∈ (cs.foldl (enqueue node) (queue, visited)).2 ↔
        a ∈ visited ∨ ∃ c ∈ new, node c = a) ∧
      ∀ c ∈ cs, node c ∈ visited ∨ ∃ c' ∈ new, node c' = node c := by
  induction cs generalizing queue visited with
  | nil => exact ⟨[], by simp⟩
  | cons c cs ih =>
    rw [List.foldl_cons, enqueue]
    split
    · rename_i old
      obtain ⟨new, same, sub, nodup, fresh, visits, all⟩ := ih queue visited
      exact ⟨new, same, List.subset_cons_of_subset c sub, nodup, fresh, visits,
        List.forall_mem_cons.mpr ⟨.inl old, all⟩⟩
    · rename_i old
      obtain ⟨new, same, sub, nodup, fresh, visits, all⟩ := ih (queue ++ [c]) (node c :: visited)
      refine ⟨c :: new, ?_, List.cons_subset_cons c sub, ?_, ?_, ?_, ?_⟩
      · rw [same, List.append_assoc, List.singleton_append]
      · refine List.nodup_cons.mpr ⟨fun again => ?_, nodup⟩
        obtain ⟨c', mem, eq⟩ := List.mem_map.mp again
        exact fresh c' mem (eq ▸ List.mem_cons_self)
      · exact List.forall_mem_cons.mpr ⟨old, fun c' mem visited' =>
          fresh c' mem (List.mem_cons_of_mem _ visited')⟩
      · intro a
        rw [visits a, List.mem_cons, List.exists_mem_cons_iff]
        tauto
      · refine List.forall_mem_cons.mpr ⟨.inr ⟨c, List.mem_cons_self, rfl⟩, fun c' mem => ?_⟩
        rcases all c' mem with visited' | ⟨c'', mem'', eq⟩
        · rcases List.mem_cons.mp visited' with eq | old'
          · exact .inr ⟨c, List.mem_cons_self, eq.symm⟩
          · exact .inl old'
        · exact .inr ⟨c'', List.mem_cons_of_mem _ mem'', eq⟩

variable (node children) in
/-- The entries so far: those that have left the queue, and the queue. -/
structure Invariant (depth : ε → Nat) (done queue : List ε) (visited : List α) : Prop where
  nodup : ((done ++ queue).map node).Nodup
  visits : ∀ a, a ∈ visited ↔ ∃ e ∈ done ++ queue, node e = a
  sorted : queue.Pairwise fun e e' => depth e ≤ depth e'
  levels : ∀ e ∈ queue, ∀ e' ∈ done ++ queue, depth e' ≤ depth e + 1
  closed : ∀ e ∈ done, ∀ c ∈ children e, ∃ e' ∈ done ++ queue, node e' = node c ∧ depth e' ≤ depth c

variable {depth : ε → Nat}

omit [DecidableEq α] in
theorem invariant_root (root : ε) : Invariant node children depth [] [root] [node root] where
  nodup := List.nodup_singleton _
  visits a := by simp [eq_comm]
  sorted := List.pairwise_singleton _ root
  levels := by simp
  closed := by simp

/-- An entry leaves the queue. -/
theorem Invariant.step (invariant : Invariant node children depth done (e :: queue) visited)
    (deeper : ∀ e, ∀ c ∈ children e, depth c = depth e + 1) :
    Invariant node children depth (done ++ [e])
      ((children e).foldl (enqueue node) (queue, visited)).1
      ((children e).foldl (enqueue node) (queue, visited)).2 := by
  obtain ⟨new, same, sub, nodup, fresh, visits, all⟩ :=
    foldl_enqueue node (children e) queue visited
  have entries : done ++ [e] ++ (queue ++ new) = (done ++ e :: queue) ++ new := by simp
  have first := List.pairwise_cons.mp invariant.sorted
  have level := invariant.levels e List.mem_cons_self
  have below : ∀ c ∈ new, depth c = depth e + 1 := fun c mem => deeper e c (sub mem)
  rw [same]
  constructor
  · rw [entries, List.map_append, List.nodup_append]
    refine ⟨invariant.nodup, nodup, ?_⟩
    rintro a old b mem rfl
    obtain ⟨e', mem', eq⟩ := List.mem_map.mp old
    obtain ⟨c, isNew, eq'⟩ := List.mem_map.mp mem
    exact fresh c isNew (eq' ▸ (invariant.visits a).mpr ⟨e', mem', eq⟩)
  · intro a
    rw [entries, visits a, invariant.visits a]
    simp only [List.mem_append (t := new), or_and_right, exists_or]
  · refine List.pairwise_append.mpr ⟨first.2, ?_, fun e' mem c isNew => ?_⟩
    · exact List.pairwise_of_forall_mem_list fun c mem c' mem' =>
        (below c mem).le.trans (below c' mem').ge
    · rw [below c isNew]
      exact level e' (List.mem_append_right _ (List.mem_cons_of_mem _ mem))
  · rw [entries]
    have deep : ∀ e' ∈ queue ++ new, depth e ≤ depth e' := by
      intro e' mem
      rcases List.mem_append.mp mem with mem | mem
      · exact first.1 e' mem
      · have := below e' mem
        omega
    intro e' mem e'' mem''
    have := deep e' mem
    rcases List.mem_append.mp mem'' with mem'' | mem''
    · have := level e'' mem''
      omega
    · have := below e'' mem''
      omega
  · rw [entries]
    intro e' mem c child
    rcases List.mem_append.mp mem with old | last
    · obtain ⟨e'', mem'', eq, le⟩ := invariant.closed e' old c child
      exact ⟨e'', List.mem_append_left _ mem'', eq, le⟩
    · obtain rfl := List.mem_singleton.mp last
      rcases all c child with visited' | ⟨c', mem', eq⟩
      · obtain ⟨e'', mem'', eq⟩ := (invariant.visits _).mp visited'
        exact ⟨e'', List.mem_append_left _ mem'', eq, (deeper _ c child) ▸ level e'' mem''⟩
      · exact ⟨c', List.mem_append_right _ mem', eq, by rw [below c' mem', deeper _ c child]⟩

/-- With fuel for every node the search ends, and nothing is left in the queue. What holds of an
entry and then of its children holds of all that leave it. -/
theorem Invariant.exists_order {P : ε → Prop} {nodes : List α} {fuel : Nat}
    (invariant : Invariant node children depth done queue visited)
    (deeper : ∀ e, ∀ c ∈ children e, depth c = depth e + 1)
    (known : ∀ e ∈ done ++ queue, node e ∈ nodes) (inside : ∀ e, ∀ c ∈ children e, node c ∈ nodes)
    (here : ∀ e ∈ queue, P e) (passes : ∀ e, P e → ∀ c ∈ children e, P c)
    (enough : nodes.length ≤ fuel + done.length) :
    ∃ es visited', order node children fuel queue visited = some es ∧ queue ⊆ es ∧
      (∀ e ∈ es, P e) ∧ Invariant node children depth (done ++ es) [] visited' := by
  induction fuel generalizing done queue visited with
  | zero =>
    cases queue with
    | nil => exact ⟨[], visited, rfl, List.Subset.refl _, nofun, by rwa [List.append_nil]⟩
    | cons e queue =>
      have sub : (done ++ e :: queue).map node ⊆ nodes := by
        intro a mem
        obtain ⟨e', mem', rfl⟩ := List.mem_map.mp mem
        exact known e' mem'
      have le := (invariant.nodup.subperm sub).length_le
      rw [List.length_map, List.length_append, List.length_cons] at le
      omega
  | succ fuel ih =>
    cases queue with
    | nil => exact ⟨[], visited, rfl, List.Subset.refl _, nofun, by rwa [List.append_nil]⟩
    | cons e queue =>
      obtain ⟨new, same, sub, -⟩ := foldl_enqueue node (children e) queue visited
      have later : ∀ e' ∈ ((children e).foldl (enqueue node) (queue, visited)).1,
          e' ∈ queue ∨ e' ∈ children e := by
        rw [same]
        exact fun e' mem => (List.mem_append.mp mem).imp id (sub ·)
      have known' : ∀ e' ∈ done ++ [e] ++ ((children e).foldl (enqueue node) (queue, visited)).1,
          node e' ∈ nodes := by
        intro e' mem
        rcases List.mem_append.mp mem with mem | mem
        · refine known e' ?_
          rw [List.append_cons]
          exact List.mem_append_left _ mem
        · rcases later e' mem with old | child
          · exact known e' (List.mem_append_right _ (List.mem_cons_of_mem _ old))
          · exact inside e e' child
      have here' : ∀ e' ∈ ((children e).foldl (enqueue node) (queue, visited)).1, P e' := by
        intro e' mem
        rcases later e' mem with old | child
        · exact here e' (List.mem_cons_of_mem _ old)
        · exact passes e (here e List.mem_cons_self) e' child
      obtain ⟨es, visited', ends, contains, all, invariant'⟩ := ih (invariant.step deeper) known'
        here' (by rw [List.length_append, List.length_singleton]; omega)
      refine ⟨e :: es, visited', ?_, ?_, ?_, ?_⟩
      · rw [order, ends, Option.map_some]
      · refine List.cons_subset_cons e fun e' mem => contains ?_
        rw [same]
        exact List.mem_append_left _ mem
      · exact List.forall_mem_cons.mpr ⟨here e List.mem_cons_self, all⟩
      · rwa [List.append_assoc, List.singleton_append] at invariant'

/-- The entries that have left the queue are the nodes up to a depth, with their distances. -/
structure Nearest (adj : α → α → Prop) (bound : Nat) (a : α) (node : ε → α) (depth : ε → Nat)
    (es : List ε) : Prop where
  nodup : (es.map node).Nodup
  distance : ∀ e ∈ es, Distance adj (depth e) a (node e)
  within : ∀ e ∈ es, depth e ≤ bound
  complete : ∀ n b, Steps adj n a b → n ≤ bound → ∃ e ∈ es, node e = b

variable {adj : α → α → Prop} {bound : Nat} {es : List ε}

omit [DecidableEq α] in
/-- Entries that are closed under children are no deeper than any way to their nodes. -/
theorem exists_entry {n : Nat} {root : ε} {b : α} (steps : Steps adj n (node root) b)
    (mem : root ∈ es) (start : depth root = 0)
    (deeper : ∀ e, ∀ c ∈ children e, depth c = depth e + 1)
    (child_iff : ∀ e b, (∃ c ∈ children e, node c = b) ↔ depth e < bound ∧ adj (node e) b)
    (closed : ∀ e ∈ es, ∀ c ∈ children e, ∃ e' ∈ es, node e' = node c ∧ depth e' ≤ depth c)
    (within : n ≤ bound) : ∃ e ∈ es, node e = b ∧ depth e ≤ n := by
  generalize origin : node root = a at steps
  induction steps with
  | nil => exact ⟨root, mem, origin, start.le⟩
  | @snoc n _ b c _ last ih =>
    obtain ⟨e, here, rfl, le⟩ := ih (by omega) origin
    obtain ⟨c', child, rfl⟩ := (child_iff e c).mpr ⟨by omega, last⟩
    obtain ⟨e', here', same, le'⟩ := closed e here c' child
    have := deeper e c' child
    exact ⟨e', here', same, by omega⟩

/-- The search from a root finds the nodes up to the depth to which entries have children. -/
theorem exists_nearest {fuel : Nat} {root : ε} {nodes : List α} {P : ε → Prop}
    (start : depth root = 0) (deeper : ∀ e, ∀ c ∈ children e, depth c = depth e + 1)
    (child_iff : ∀ e b, (∃ c ∈ children e, node c = b) ↔ depth e < bound ∧ adj (node e) b)
    (known : node root ∈ nodes) (inside : ∀ a b, adj a b → b ∈ nodes)
    (here : P root) (passes : ∀ e, P e → ∀ c ∈ children e, P c) (enough : nodes.length ≤ fuel) :
    ∃ es, order node children fuel [root] [node root] = some es ∧ (∀ e ∈ es, P e) ∧
      Nearest adj bound (node root) node depth es := by
  have adjacent : ∀ e, ∀ c ∈ children e, depth e < bound ∧ adj (node e) (node c) :=
    fun e c child => (child_iff e (node c)).mp ⟨c, child, rfl⟩
  let Q : ε → Prop := fun e => P e ∧ Steps adj (depth e) (node root) (node e) ∧ depth e ≤ bound
  have base : Q root := ⟨here, by rw [start]; exact .nil _, by omega⟩
  have passes' : ∀ e, Q e → ∀ c ∈ children e, Q c := by
    rintro e ⟨first, steps, -⟩ c child
    obtain ⟨less, last⟩ := adjacent e c child
    have depth := deeper e c child
    exact ⟨passes e first c child, depth ▸ steps.snoc last, by omega⟩
  have starts : Invariant node children depth [] [root] [node root] := invariant_root root
  obtain ⟨es, visited, ends, contains, all, invariant⟩ :=
    starts.exists_order deeper (List.forall_mem_singleton.mpr known)
      (fun e c child => inside _ _ (adjacent e c child).2) (List.forall_mem_singleton.mpr base)
      passes' (by simpa using enough)
  have nodup := invariant.nodup
  have closed := invariant.closed
  rw [List.nil_append, List.append_nil] at nodup
  rw [List.nil_append] at closed
  simp only [List.append_nil] at closed
  have near : ∀ n b, Steps adj n (node root) b → n ≤ bound → ∃ e ∈ es, node e = b ∧ depth e ≤ n :=
    fun n b steps within => exists_entry steps (contains (List.mem_singleton_self root)) start deeper
      child_iff closed within
  refine ⟨es, ends, fun e mem => (all e mem).1, nodup, fun e mem => ?_, fun e mem => (all e mem).2.2,
    fun n b steps within => ?_⟩
  · obtain ⟨-, steps, within⟩ := all e mem
    refine ⟨steps, fun m shorter => ?_⟩
    by_contra less
    obtain ⟨e', mem', same, le⟩ := near m (node e) shorter (by omega)
    obtain rfl := List.inj_on_of_nodup_map nodup mem' mem same
    omega
  · obtain ⟨e, mem, same, -⟩ := near n b steps within
    exact ⟨e, mem, same⟩

end Queue

end Bfs
