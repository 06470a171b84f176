import OmniMemory.Lib.Pages
import OmniMemory.Subscription.Handler

/-! Pages of a listing. The total count is read from the rows of the page, so an empty page has none;
and rows that are created at the same time may be listed twice or left out at the border of two
pages. -/

namespace OmniMemory

open Interleave Interleave.Prog Pages

namespace Subscription

/-- The ACTIVE rows of an agent. -/
def Subscriptions.activeRows (t : Subscriptions) (agentId : String) : List SubscriptionRow :=
  t.rows.filter (Subscriptions.activeOf agentId)

/-- The database answers, and lists rows in some order. -/
def Choice.Orders : Choice → Prop
  | .run | .rows _ => True
  | _ => False

def Answers (X : External) (op : Op) (s : State) (answer : Res op) (s' : State) : Prop :=
  ∃ choice : Choice, choice.Orders ∧ exec X op choice s = some (answer, s')

/-- What `list_subscriptions(agent_id, limit=k, offset=o)` may return or raise. -/
def ListsPage (X : External) (self : HandlerSubscription) (s : State) (agentId : String) (k o : Nat)
    (out : Except PyError Listing) : Prop :=
  ∃ s', Runs (Answers X) (self.listSubscriptions X agentId (some (k : Int)) o) s out s'

/-- A page at offset `o` counts the ACTIVE subscriptions, and the pages at the multiples of `k` are
returned and list each of them once. -/
structure PagesCohere (X : External) (handler : HandlerSubscription) (s : State) (agentId : String)
    (k o : Nat) : Prop where
  total : ∀ subscriptions totalCount,
    ListsPage X handler s agentId k o (.ok (.page subscriptions totalCount k o)) →
      totalCount = (s.table.activeRows agentId).length
  pages : ∀ outs : Nat → Except PyError Listing,
    (∀ i, ListsPage X handler s agentId k (i * k) (outs i)) →
      ∃ pages : Nat → List ModelSubscription,
        (∀ i, ∃ totalCount, outs i = .ok (.page (pages i) totalCount k (i * k))) ∧
        ∀ n, (s.table.activeRows agentId).length ≤ n * k →
          ((List.range n).flatMap pages).Perm ((s.table.activeRows agentId).map (·.toModel))

theorem nodup_activeRows (t : Subscriptions) (agentId : String) : (t.activeRows agentId).Nodup :=
  (List.Nodup.of_map _ t.primaryKey).filter _

theorem toModel_injective : Function.Injective SubscriptionRow.toModel := by
  intro row row' same
  cases row
  cases row'
  simpa [SubscriptionRow.toModel] using same

/-! ### A page -/

section Page

variable {X : External} {self : HandlerSubscription} {s : State} {agentId : String} {k o : Nat}
  {listed : List SubscriptionRow} {out : Except PyError Listing}

/-- Orders rows by `created_at DESC`. -/
abbrev creation (row : SubscriptionRow) : Nat := row.createdAt.rank

theorem lists_iff_orders :
    (Query.activeByAgent agentId).Lists s.table listed ↔
      Orders creation (s.table.activeRows agentId) listed := by
  have before : (fun row row' => (Query.activeByAgent agentId).before row row' = true) =
      fun row row' => creation row' ≤ creation row := by
    funext row row'
    simp [Query.before]
  unfold Query.Lists
  rw [before]
  exact ⟨fun lists => ⟨lists.1, lists.2⟩, fun orders => ⟨orders.perm, orders.sorted⟩⟩

theorem answers_queryPage {answer : Res (.queryPage agentId k o)} {s' : State} :
    Answers X (.queryPage agentId k o) s answer s' ↔
      s' = s ∧ ∃ listed, Orders creation (s.table.activeRows agentId) listed ∧
        answer = .ok (((listed.drop o).take k).map fun row => (X.driverRow row, listed.length)) := by
  constructor
  · rintro ⟨choice, ordered, executed⟩
    cases choice with
    | run =>
      obtain ⟨rfl, rfl⟩ := Prod.mk.inj (Option.some.inj executed)
      exact ⟨rfl, _, lists_iff_orders.mp (Query.lists_list _ _), rfl⟩
    | rows listed =>
      simp only [exec] at executed
      split at executed
      · rename_i lists
        obtain ⟨rfl, rfl⟩ := Prod.mk.inj (Option.some.inj executed)
        exact ⟨rfl, listed, lists_iff_orders.mp lists, rfl⟩
      · contradiction
    | members | fail | lost | cut => exact ordered.elim
  · rintro ⟨rfl, listed, orders, rfl⟩
    refine ⟨.rows listed, trivial, ?_⟩
    simp only [exec]
    rw [if_pos (lists_iff_orders.mpr orders)]

/-- The page that is made of the rows that the query finds. -/
def pageOf (X : External) (k o totalCount : Nat) : List SubscriptionRow → Except PyError Listing
  | [] => .ok (.page [] 0 k o)
  | row :: rest => (((row :: rest).map X.driverRow).mapM (rowToSubscription X)).map
      (.page · totalCount k o)

theorem listsPage_iff (pos : 0 < k) (most : k ≤ self.paginationMaxLimit) :
    ListsPage X self s agentId k o out ↔
      ∃ listed, Orders creation (s.table.activeRows agentId) listed ∧
        out = pageOf X k o listed.length ((listed.drop o).take k) := by
  have program : self.listSubscriptions X agentId (some (k : Int)) o =
      (HandlerSubscription.getSubscriptionsWithCountFromDb X agentId k o >>= fun page =>
        .ret (page.map fun listed => .page listed.1 listed.2 k o)) := by
    unfold HandlerSubscription.listSubscriptions
    simp only [show ¬ (o : Int) < 0 by omega, show ¬ (k : Int) ≤ 0 by omega,
      show ¬ (self.paginationMaxLimit : Int) < k by omega, if_false, Int.toNat_natCast]
    rfl
  unfold ListsPage
  rw [program]
  unfold HandlerSubscription.getSubscriptionsWithCountFromDb
  rw [Prog.bind_assoc]
  simp only [call, runs_op, answers_queryPage]
  have rows : ∀ (totalCount : Nat) (read : Except PyError (List ModelSubscription)),
      (read.map (·, totalCount)).map (fun listed => Listing.page listed.1 listed.2 k o) =
        read.map (.page · totalCount k o) := by
    intro totalCount read
    cases read <;> rfl
  constructor
  · rintro ⟨s', answer, s₁, ⟨-, listed, orders, rfl⟩, runs⟩
    refine ⟨listed, orders, ?_⟩
    cases page : (listed.drop o).take k with
    | nil =>
      rw [page] at runs
      exact (runs_ret.mp runs).1
    | cons row rest =>
      rw [page] at runs
      rw [(runs_ret.mp runs).1, rows]
      simp [pageOf, Function.comp_def]
  · rintro ⟨listed, orders, rfl⟩
    refine ⟨s, _, s, ⟨rfl, listed, orders, rfl⟩, ?_⟩
    cases (listed.drop o).take k with
    | nil => exact .ret _ _
    | cons row rest =>
      refine runs_ret.mpr ⟨?_, rfl⟩
      rw [rows]
      simp [pageOf, Function.comp_def]

/-- The rows of a page are listed if they are valid, and the total count is lost if there are none. -/
theorem pageOf_eq_ok (reads : X.Reads) {totalCount : Nat} {rows : List SubscriptionRow}
    {listing : Listing} : pageOf X k o totalCount rows = .ok listing ↔
      (∀ row ∈ rows, row.toModel.Valid) ∧
        listing = .page (rows.map (·.toModel)) (if rows = [] then 0 else totalCount) k o := by
  cases rows with
  | nil => simp [pageOf, eq_comm]
  | cons row rest =>
    rw [if_neg (List.cons_ne_nil row rest), pageOf]
    cases read : ((row :: rest).map X.driverRow).mapM (rowToSubscription X) with
    | error e =>
      refine iff_of_false (by simp [Except.map]) ?_
      rintro ⟨valid, -⟩
      rw [reads.rows.mpr ⟨valid, rfl⟩] at read
      contradiction
    | ok subscriptions =>
      obtain ⟨valid, rfl⟩ := reads.rows.mp read
      simp only [Except.map, Except.ok.injEq]
      exact ⟨fun same => ⟨valid, same.symm⟩, fun same => same.2.symm⟩

end Page

/-! ### All pages -/

section All

variable {X : External} {self : HandlerSubscription} {s : State} {agentId : String} {k o : Nat}

/-- The total count is right at an offset within the rows, and when there are none. -/
theorem total_iff (reads : X.Reads) (pos : 0 < k) (most : k ≤ self.paginationMaxLimit)
    (valid : ∀ row ∈ s.table.activeRows agentId, row.toModel.Valid) :
    (∀ subscriptions totalCount,
      ListsPage X self s agentId k o (.ok (.page subscriptions totalCount k o)) →
        totalCount = (s.table.activeRows agentId).length) ↔
      o < (s.table.activeRows agentId).length ∨ s.table.activeRows agentId = [] := by
  constructor
  · intro total
    have orders := orders_insertionSort creation (s.table.activeRows agentId)
    generalize (s.table.activeRows agentId).insertionSort
      (fun row row' => creation row' ≤ creation row) = listed at orders
    have page : pageOf X k o listed.length ((listed.drop o).take k) = .ok (.page _ _ k o) :=
      (pageOf_eq_ok reads).mpr ⟨fun row mem => valid row (orders.perm.mem_iff.mp
        (List.mem_of_mem_drop (List.mem_of_mem_take mem))), rfl⟩
    have right := total _ _ ((listsPage_iff pos most).mpr ⟨listed, orders, page.symm⟩)
    by_cases inside : o < (s.table.activeRows agentId).length
    · exact .inl inside
    · have none : listed.drop o = [] :=
        List.drop_eq_nil_of_le (orders.perm.length_eq ▸ Nat.le_of_not_lt inside)
      rw [none, List.take_nil, if_pos rfl] at right
      exact .inr (List.length_eq_zero_iff.mp right.symm)
  · intro place subscriptions totalCount page
    obtain ⟨listed, orders, page⟩ := (listsPage_iff pos most).mp page
    obtain ⟨-, same⟩ := (pageOf_eq_ok reads).mp page.symm
    obtain ⟨-, rfl, -, -⟩ := Listing.page.inj same
    rw [← orders.perm.length_eq] at place ⊢
    rcases place with inside | none
    · have some : (listed.drop o).take k ≠ [] := by
        refine List.ne_nil_of_length_pos ?_
        rw [List.length_take, List.length_drop]
        omega
      rw [if_neg some]
    · have empty : listed = [] := (none ▸ orders.perm).eq_nil
      rw [empty]
      simp

/-- The pages list each subscription once exactly if the rows are valid and no border lies between
rows that are created at the same time. -/
theorem pages_iff (reads : X.Reads) (pos : 0 < k) (most : k ≤ self.paginationMaxLimit) :
    (∀ outs : Nat → Except PyError Listing,
      (∀ i, ListsPage X self s agentId k (i * k) (outs i)) →
      ∃ pages : Nat → List ModelSubscription,
        (∀ i, ∃ totalCount, outs i = .ok (.page (pages i) totalCount k (i * k))) ∧
        ∀ n, (s.table.activeRows agentId).length ≤ n * k →
          ((List.range n).flatMap pages).Perm ((s.table.activeRows agentId).map (·.toModel))) ↔
      (∀ row ∈ s.table.activeRows agentId, row.toModel.Valid) ∧
        ∀ i, Separates creation (s.table.activeRows agentId) (i * k) := by
  constructor
  · intro once
    have pages : ∀ orders : Nat → List SubscriptionRow,
        (∀ i, Orders creation (s.table.activeRows agentId) (orders i)) →
        (∀ i, ∀ row ∈ page k i (orders i), row.toModel.Valid) ∧
        ∀ n, (s.table.activeRows agentId).length ≤ n * k →
          ((List.range n).flatMap fun i => page k i (orders i)).Perm
            (s.table.activeRows agentId) := by
      intro orders listings
      obtain ⟨pages, returned, all⟩ := once _ fun i =>
        (listsPage_iff pos most).mpr ⟨orders i, listings i, rfl⟩
      have rows : ∀ i, (∀ row ∈ page k i (orders i), row.toModel.Valid) ∧
          pages i = (page k i (orders i)).map (·.toModel) := by
        intro i
        obtain ⟨totalCount, out⟩ := returned i
        obtain ⟨valid, same⟩ := (pageOf_eq_ok reads).mp out
        exact ⟨valid, (Listing.page.inj same).1⟩
      refine ⟨fun i => (rows i).1, fun n enough => ?_⟩
      have perm := all n enough
      rw [show pages = fun i => (page k i (orders i)).map (·.toModel) from
        funext fun i => (rows i).2, ← List.map_flatMap] at perm
      exact (List.map_perm_map_iff toModel_injective).mp perm
    refine ⟨fun row mem => ?_, (pages_perm_iff (nodup_activeRows _ _) pos).mp fun orders listings =>
      (pages orders listings).2⟩
    obtain ⟨valid, all⟩ := pages _ fun _ => orders_insertionSort creation _
    have listed := (all _ (Nat.le_mul_of_pos_right _ pos)).mem_iff.mpr mem
    obtain ⟨i, -, here⟩ := List.mem_flatMap.mp listed
    exact valid i row here
  · rintro ⟨valid, separates⟩ outs listed
    choose orders listings returned using fun i => (listsPage_iff pos most).mp (listed i)
    refine ⟨fun i => (page k i (orders i)).map (·.toModel), fun i => ?_, fun n enough => ?_⟩
    · refine ⟨if page k i (orders i) = [] then 0 else (orders i).length, ?_⟩
      rw [returned i]
      refine (pageOf_eq_ok reads).mpr ⟨fun row mem => valid row ?_, rfl⟩
      exact (listings i).perm.mem_iff.mp (List.mem_of_mem_drop (List.mem_of_mem_take mem))
    · rw [← List.map_flatMap]
      exact ((pages_perm_iff (nodup_activeRows _ _) pos).mpr separates orders listings n enough).map _

/-- The pages cohere exactly if the offset lies within the rows, or there are none, all rows are
valid, and no border lies between rows that are created at the same time. -/
theorem pagesCohere_iff (reads : X.Reads) (pos : 0 < k) (most : k ≤ self.paginationMaxLimit) :
    PagesCohere X self s agentId k o ↔
      (o < (s.table.activeRows agentId).length ∨ s.table.activeRows agentId = []) ∧
      (∀ row ∈ s.table.activeRows agentId, row.toModel.Valid) ∧
      ∀ i, Separates creation (s.table.activeRows agentId) (i * k) := by
  constructor
  · rintro ⟨total, pages⟩
    have whole := (pages_iff reads pos most).mp pages
    exact ⟨(total_iff reads pos most whole.1).mp total, whole⟩
  · rintro ⟨place, whole⟩
    exact ⟨(total_iff reads pos most whole.1).mpr place, (pages_iff reads pos most).mpr whole⟩

/-- A table with one subscription of the agent `a`. -/
def plainState : State := ⟨plainTable (plainSubscription 1 "a"), .empty⟩

theorem pagesCohere_iff_plain :
    plainExternal.Reads ∧ 0 < 1 ∧ 1 ≤ ({} : HandlerSubscription).paginationMaxLimit ∧
      (PagesCohere plainExternal {} plainState "a" 1 0 ↔
        (0 < (plainState.table.activeRows "a").length ∨ plainState.table.activeRows "a" = []) ∧
        (∀ row ∈ plainState.table.activeRows "a", row.toModel.Valid) ∧
        ∀ i, Separates creation (plainState.table.activeRows "a") (i * 1)) :=
  ⟨reads_plain, by decide, by decide, pagesCohere_iff reads_plain (by decide) (by decide)⟩

/-- The page after the only subscription counts none. -/
theorem not_pagesCohere_past_end :
    ¬ ∀ (X : External) (self : HandlerSubscription) (s : State) (agentId : String) (k o : Nat),
      X.Reads → 0 < k → k ≤ self.paginationMaxLimit → PagesCohere X self s agentId k o := by
  intro holds
  have cohere := holds plainExternal {} plainState "a" 1 1 reads_plain (by decide) (by decide)
  have page : ListsPage plainExternal {} plainState "a" 1 1 (.ok (.page [] 0 1 1)) :=
    ⟨plainState, .call ⟨.run, trivial, rfl⟩ (.ret _ _)⟩
  have total := cohere.total [] 0 page
  revert total
  decide +kernel

end All

end Subscription

end OmniMemory
