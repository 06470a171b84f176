import OmniMemory.Lib.Highest
import OmniMemory.Lib.Keyed
import OmniMemory.Lib.Words
import OmniMemory.Retrieval.GraphMock

/-! `HandlerDbMock`: the snapshots that are seeded, and the search for the terms of a text in them. The
latency that the configuration simulates is left out. -/

namespace OmniMemory.Retrieval.Text

open OmniMemory.Retrieval.Graph (Operation Status)
open Highest Words

/-- What the search uses of characters: `str.lower`, and the class `\w`. -/
structure Unicode where
  lower : String → String
  isWord : Char → Bool

/-- The subject of a snapshot; its type as `str` gives it. -/
structure Subject where
  subjectKey : Option String
  subjectType : Option String

/-- A snapshot, by its id, its searched fields, and all that the search does not read. -/
structure ModelMemorySnapshot (β : Type) where
  snapshotId : String
  subject : Option Subject
  tags : List String
  content : β

/-- The default limit is within its bounds. -/
theorem limit_default : 1 ≤ 10 ∧ 10 ≤ 1000 := by decide

/-- The fields of a request that `execute` reads. -/
structure ModelMemoryRetrievalRequest where
  operation : Operation
  queryText : Option String
  limit : Nat := 10
  tags : Option (List String) := none
  limit_bounds : 1 ≤ limit ∧ limit ≤ 1000
  /-- What the model validator asks of the operation `search_text`. -/
  queryText_isSome : operation = .searchText → queryText.isSome = true

/-- A search result; its score has passed the checks of the model. -/
structure ModelSearchResult (β : Type) where
  snapshot : ModelMemorySnapshot β
  score : ℚ
  score_bounds : 0 ≤ score ∧ score ≤ 1

structure ModelMemoryRetrievalResponse (β : Type) where
  status : Status
  results : List (ModelSearchResult β) := []
  totalCount : Nat := 0
  errorMessage : Option String := none

/-- `MIN_TOKEN_LENGTH`. -/
def minTokenLength : Nat := 2

/-- The handler, with its dict of snapshots in the order in which they were put in. -/
structure HandlerDbMock (β : Type) where
  caseSensitive : Bool
  snapshots : List (ModelMemorySnapshot β)
  distinct : (snapshots.map ModelMemorySnapshot.snapshotId).Nodup

/-- `part in s`, for lists of characters. -/
def contains (s part : List Char) : Bool := decide (part <:+: s)

namespace HandlerDbMock

variable {β : Type}

/-- `__init__`. -/
def new (caseSensitive : Bool) : HandlerDbMock β := ⟨caseSensitive, [], List.nodup_nil⟩

/-- One turn of the loop of `seed_snapshots`. -/
def seedSnapshot (self : HandlerDbMock β) (s : ModelMemorySnapshot β) : HandlerDbMock β :=
  if isBlank s.snapshotId then self
  else
    { self with
      snapshots := Keyed.put ModelMemorySnapshot.snapshotId self.snapshots s
      distinct := Keyed.nodup_put self.distinct }

def seedSnapshots (self : HandlerDbMock β) (snapshots : List (ModelMemorySnapshot β)) :
    HandlerDbMock β := snapshots.foldl seedSnapshot self

def clear (self : HandlerDbMock β) : HandlerDbMock β := { self with snapshots := [], distinct := List.nodup_nil }

/-- `_tokenize`: the text split where it is not made of word characters, without what is short. -/
def tokenize (u : Unicode) (text : List Char) : List (List Char) :=
  (words (fun c => !u.isWord c) text).filter fun token => minTokenLength ≤ token.length

variable (u : Unicode) (self : HandlerDbMock β)

/-- In lower case, unless the handler minds the case. -/
def fold (text : String) : String := if self.caseSensitive then text else u.lower text

/-- The parts of a snapshot that are searched. -/
def textParts (snapshot : ModelMemorySnapshot β) : List String :=
  (match snapshot.subject with
    | none => []
    | some subject =>
      (subject.subjectKey.filter (· ≠ "")).toList ++ (subject.subjectType.filter (· ≠ "")).toList) ++
    snapshot.tags ++ [snapshot.snapshotId]

/-- `_get_snapshot_text`. -/
def getSnapshotText (snapshot : ModelMemorySnapshot β) : String :=
  self.fold u (" ".intercalate (textParts snapshot))

/-- One turn of the loop of `_compute_text_score`, with the score and the number of matched terms. -/
def scoreTerm (text : List Char) (textTokens : List (List Char)) (sofar : ℚ × Nat) (term : List Char) :
    ℚ × Nat :=
  if textTokens.contains term then (sofar.1 + 2, sofar.2 + 1)
  else if textTokens.any (contains · term) then (sofar.1 + 1, sofar.2 + 1)
  else if contains text term then (sofar.1 + 1 / 2, sofar.2 + 1)
  else sofar

/-- `_compute_text_score`. The sum of halves is exact, and the coverage and the product are rounded. -/
def computeTextScore (snapshot : ModelMemorySnapshot β) (searchTerms : List (List Char)) : ℚ :=
  if searchTerms = [] then 0
  else
    let text := (self.getSnapshotText u snapshot).toList
    let textTokens := tokenize u text
    let (score, matchedTerms) := searchTerms.foldl (scoreTerm text textTokens) (0, 0)
    let coverage := Binary64.round (matchedTerms / searchTerms.length)
    Binary64.round (score * Binary64.round (1 + coverage))

/-- `_matches_filters`. -/
def matchesFilters (snapshot : ModelMemorySnapshot β) (request : ModelMemoryRetrievalRequest) : Bool :=
  match request.tags with
  | none | some [] => true
  | some tags => tags.any (· ∈ snapshot.tags)

/-- `ModelSearchResult(...)`, which raises for a score that is not from 0 to 1. -/
def searchResult (snapshot : ModelMemorySnapshot β) (score : ℚ) : Except PyError (ModelSearchResult β) :=
  if bounds : 0 ≤ score ∧ score ≤ 1 then .ok ⟨snapshot, score, bounds⟩
  else .error (.valueError "score must be between 0 and 1")

/-- The search terms of a query. -/
def searchTerms (query : String) : List (List Char) := tokenize u (self.fold u query).toList

/-- The snapshots that score and pass the filters, with their scores. -/
def scoredResults (query : String) (request : ModelMemoryRetrievalRequest) :
    List (ModelMemorySnapshot β × ℚ) :=
  (self.snapshots.map fun s => (s, self.computeTextScore u s (self.searchTerms u query))).filter
    fun scored => decide (0 < scored.2) && matchesFilters scored.1 request

/-- The scores as parts of the first one. -/
def normalize : List (ModelMemorySnapshot β × ℚ) → List (ModelMemorySnapshot β × ℚ)
  | [] => []
  | scored@((_, maxScore) :: _) =>
    if 0 < maxScore then scored.map fun (s, score) => (s, Binary64.round (score / maxScore)) else scored

/-- `execute`. -/
def execute (request : ModelMemoryRetrievalRequest) : Except PyError (ModelMemoryRetrievalResponse β) :=
  if request.operation ≠ .searchText then
    .ok
      { status := .error
        errorMessage := some (s!"HandlerDbMock: Only supports 'search_text', " ++
          s!"got '{request.operation.value}'") }
  else
    match request.queryText with
    | none =>
      .ok
        { status := .error
          errorMessage := some (s!"HandlerDbMock: query_text is required " ++
            s!"for operation '{request.operation.value}'") }
    | some query =>
      let scored := normalize (highest Prod.snd request.limit (self.scoredResults u query request))
      if scored = [] then .ok { status := .noResults }
      else do
        let results ← scored.mapM fun (s, score) => searchResult s score
        return { status := .success, results, totalCount := results.length }

/-! ### What is found -/

/-- The terms that are tokens of the text. -/
def exactTerms (text : List Char) (terms : List (List Char)) : Nat :=
  terms.countP (tokenize u text).contains

/-- The terms that the text contains. -/
def containedTerms (text : List Char) (terms : List (List Char)) : Nat :=
  terms.countP (contains text)

/-- The snapshot contains a term of the query, and has one of the tags asked for, if there are any. -/
def Found (query : String) (request : ModelMemoryRetrievalRequest) (s : ModelMemorySnapshot β) : Prop :=
  (∃ term ∈ self.searchTerms u query, term <:+: (self.getSnapshotText u s).toList) ∧
    ∀ tags ∈ request.tags, tags ≠ [] → ∃ tag ∈ tags, tag ∈ s.tags

instance (query : String) (request : ModelMemoryRetrievalRequest) :
    DecidablePred (self.Found u query request) := fun s =>
  inferInstanceAs (Decidable (_ ∧ ∀ tags ∈ request.tags, tags ≠ [] → ∃ tag ∈ tags, tag ∈ s.tags))

/-- A point for a term that the text contains, another for one that is a token, times one more than
the part of the terms that the text contains. -/
def rank (query : String) (s : ModelMemorySnapshot β) : ℚ :=
  let text := (self.getSnapshotText u s).toList
  let terms := self.searchTerms u query
  Binary64.round ((exactTerms u text terms + containedTerms text terms : ℕ) *
    Binary64.round (1 + Binary64.round (containedTerms text terms / terms.length)))

section Tokens

variable {u : Unicode} {self : HandlerDbMock β} {text query token term : List Char} {c : Char}

theorem mem_tokenize : token ∈ tokenize u text ↔
    token ∈ words (fun c => !u.isWord c) text ∧ minTokenLength ≤ token.length := by
  simp [tokenize]

theorem isInfix_of_mem_tokenize (mem : token ∈ tokenize u text) : token <:+: text :=
  (spaced_words _ text).isInfix token (mem_tokenize.mp mem).1

theorem isWord_of_mem_tokenize (mem : token ∈ tokenize u text) (inside : c ∈ token) :
    u.isWord c = true := by
  simpa using (spaced_words _ text).plain token (mem_tokenize.mp mem).1 c inside

/-- A token of one text that another contains lies within a token of it. -/
theorem exists_tokenize_of_isInfix (mem : term ∈ tokenize u query) (inside : term <:+: text) :
    ∃ token ∈ tokenize u text, term <:+: token := by
  have long := (mem_tokenize.mp mem).2
  have some : term ≠ [] := by
    rintro rfl
    simp [minTokenLength] at long
  have plain : ∀ c ∈ term, (!u.isWord c) = false := fun c here => by
    rw [isWord_of_mem_tokenize mem here]
    rfl
  obtain ⟨token, there, within⟩ := exists_words_of_isInfix some plain inside
  exact ⟨token, mem_tokenize.mpr ⟨there, long.trans within.length_le⟩, within⟩

/-- The last and lowest weight of a match is never given. -/
theorem scoreTerm_eq (mem : term ∈ tokenize u query) (sofar : ℚ × Nat) :
    scoreTerm text (tokenize u text) sofar term =
      (sofar.1 + (if term ∈ tokenize u text then 1 else 0) + (if contains text term then 1 else 0),
        sofar.2 + if contains text term then 1 else 0) := by
  by_cases exact_ : term ∈ tokenize u text
  · have within : contains text term = true := decide_eq_true (isInfix_of_mem_tokenize exact_)
    rw [scoreTerm, if_pos (List.contains_iff_mem.mpr exact_), if_pos exact_, if_pos within, if_pos within]
    ring_nf
  · have other : ¬ (tokenize u text).contains term = true := fun found =>
      exact_ (List.contains_iff_mem.mp found)
    by_cases within : term <:+: text
    · obtain ⟨token, there, inside⟩ := exists_tokenize_of_isInfix mem within
      have part : (tokenize u text).any (contains · term) = true :=
        List.any_eq_true.mpr ⟨token, there, decide_eq_true inside⟩
      have whole : contains text term = true := decide_eq_true within
      rw [scoreTerm, if_neg other, if_pos part, if_neg exact_, if_pos whole, if_pos whole, add_zero]
    · have part : ¬ (tokenize u text).any (contains · term) = true := by
        intro any
        obtain ⟨token, there, inside⟩ := List.any_eq_true.mp any
        exact within ((of_decide_eq_true inside).trans (isInfix_of_mem_tokenize there))
      have whole : ¬ contains text term = true := fun holds => within (of_decide_eq_true holds)
      rw [scoreTerm, if_neg other, if_neg part, if_neg whole, if_neg exact_, if_neg whole, if_neg whole]
      simp

theorem foldl_scoreTerm (terms : List (List Char)) (all : ∀ term ∈ terms, term ∈ tokenize u query)
    (sofar : ℚ × Nat) : terms.foldl (scoreTerm text (tokenize u text)) sofar =
      (sofar.1 + (exactTerms u text terms + containedTerms text terms : ℕ),
        sofar.2 + containedTerms text terms) := by
  induction terms generalizing sofar with
  | nil => simp [exactTerms, containedTerms]
  | cons term terms ih =>
    rw [List.foldl_cons, scoreTerm_eq (all term List.mem_cons_self),
      ih fun other mem => all other (List.mem_cons_of_mem _ mem)]
    simp only [exactTerms, containedTerms, List.countP_cons, List.contains_iff_mem]
    refine Prod.ext ?_ ?_
    · simp only
      push_cast
      ring
    · simp only
      omega

end Tokens

section Search

variable {u : Unicode} {self : HandlerDbMock β} {query : String} {request : ModelMemoryRetrievalRequest}
  {s : ModelMemorySnapshot β} {scored : List (ModelMemorySnapshot β × ℚ)} {maxScore : ℚ}

theorem computeTextScore_eq (some : self.searchTerms u query ≠ []) :
    self.computeTextScore u s (self.searchTerms u query) = self.rank u query s := by
  rw [computeTextScore, if_neg some, rank]
  simp only [foldl_scoreTerm (self.searchTerms u query) (fun _ mem => mem), zero_add]

theorem rank_nonneg : 0 ≤ self.rank u query s := by
  refine Binary64.round_nonneg (mul_nonneg (Nat.cast_nonneg _) (Binary64.round_nonneg ?_))
  have : (0 : ℚ) ≤ containedTerms (self.getSnapshotText u s).toList (self.searchTerms u query) /
      (self.searchTerms u query).length := by positivity
  have := Binary64.round_nonneg this
  linarith

/-- A snapshot scores exactly when it contains one of the terms. -/
theorem rank_pos : 0 < self.rank u query s ↔
    ∃ term ∈ self.searchTerms u query, term <:+: (self.getSnapshotText u s).toList := by
  have contained : 0 < containedTerms (self.getSnapshotText u s).toList (self.searchTerms u query) ↔
      ∃ term ∈ self.searchTerms u query, term <:+: (self.getSnapshotText u s).toList := by
    rw [containedTerms, List.countP_pos_iff]
    simp [contains]
  rw [← contained]
  constructor
  · intro pos
    by_contra none
    have zero : containedTerms (self.getSnapshotText u s).toList (self.searchTerms u query) = 0 := by omega
    have exact_ : exactTerms u (self.getSnapshotText u s).toList (self.searchTerms u query) = 0 := by
      have le : exactTerms u (self.getSnapshotText u s).toList (self.searchTerms u query) ≤
          containedTerms (self.getSnapshotText u s).toList (self.searchTerms u query) :=
        List.countP_mono_left fun term _ token =>
          decide_eq_true (isInfix_of_mem_tokenize (List.contains_iff_mem.mp token))
      omega
    have : self.rank u query s = Binary64.round 0 := by
      rw [rank]
      simp only [zero, exact_, Nat.add_zero, Nat.cast_zero, zero_mul]
    rw [this, show Binary64.round 0 = 0 by decide +kernel] at pos
    exact lt_irrefl 0 pos
  · intro pos
    have part : (0 : ℚ) ≤ containedTerms (self.getSnapshotText u s).toList (self.searchTerms u query) /
        (self.searchTerms u query).length := by positivity
    have coverage := Binary64.round_nonneg part
    refine Binary64.round_pos (mul_pos (by exact_mod_cast Nat.add_pos_right _ pos)
      (Binary64.round_pos (by linarith)))

theorem matchesFilters_iff : matchesFilters s request = true ↔
    ∀ tags ∈ request.tags, tags ≠ [] → ∃ tag ∈ tags, tag ∈ s.tags := by
  rw [matchesFilters]
  split
  · rename_i none
    simp [none]
  · rename_i empty
    simp [empty]
  · rename_i tags other given
    have some : tags ≠ [] := other
    simp [given, some]

theorem scoredResults_eq : self.scoredResults u query request =
    (self.snapshots.filter (self.Found u query request ·)).map fun s => (s, self.rank u query s) := by
  rw [scoredResults, List.filter_map]
  by_cases none : self.searchTerms u query = []
  · have left : self.snapshots.filter ((fun scored : ModelMemorySnapshot β × ℚ =>
        decide (0 < scored.2) && matchesFilters scored.1 request) ∘ fun s =>
          (s, self.computeTextScore u s (self.searchTerms u query))) = [] :=
      List.filter_eq_nil_iff.mpr fun s _ => by simp [computeTextScore, none]
    have right : self.snapshots.filter (self.Found u query request ·) = [] :=
      List.filter_eq_nil_iff.mpr fun s _ => by simp [Found, none]
    rw [left, right, List.map_nil, List.map_nil]
  · have same : (self.snapshots.filter ((fun scored : ModelMemorySnapshot β × ℚ =>
        decide (0 < scored.2) && matchesFilters scored.1 request) ∘ fun s =>
          (s, self.computeTextScore u s (self.searchTerms u query)))) =
        self.snapshots.filter (self.Found u query request ·) := by
      refine List.filter_congr fun s _ => ?_
      rw [Function.comp_apply, computeTextScore_eq none, ← Bool.decide_eq_true (b := matchesFilters s request),
        ← Bool.decide_and]
      exact decide_eq_decide.mpr (and_congr rank_pos matchesFilters_iff)
    rw [same]
    exact List.map_congr_left fun s _ => by rw [computeTextScore_eq none]

theorem highest_scoredResults {limit : Nat} : highest Prod.snd limit (self.scoredResults u query request) =
    (highest (self.rank u query) limit (self.snapshots.filter (self.Found u query request ·))).map
      fun s => (s, self.rank u query s) := by
  rw [scoredResults_eq, highest, highest, List.map_take]
  refine congrArg (List.take limit) (Eq.symm ?_)
  exact List.map_insertionSort _ _ _ _ fun _ _ _ _ => Iff.rfl

theorem searchResult_eq {score : ℚ} (bounds : 0 ≤ score ∧ score ≤ 1) :
    searchResult s score = .ok ⟨s, score, bounds⟩ := dif_pos bounds

/-- The score in the results: the rank as a part of the highest one. -/
theorem part_bounds {high low : ℚ} (pos : 0 < low) (le : low ≤ high) :
    0 < Binary64.round (low / high) ∧ Binary64.round (low / high) ≤ 1 := by
  have ratio : 0 < low / high := div_pos pos (pos.trans_le le)
  refine ⟨Binary64.round_pos ratio, ?_⟩
  have := Binary64.round_le (n := 1) ratio (by
    rw [Nat.cast_one]
    exact (div_le_one (pos.trans_le le)).mpr le) (by norm_num)
  simpa using this

/-- A response gives the snapshots listed, with parts of the highest rank as scores. -/
structure Lists (u : Unicode) (handler : HandlerDbMock β) (query : String)
    (listed : List (ModelMemorySnapshot β)) (response : ModelMemoryRetrievalResponse β) : Prop where
  snapshots : response.results.map ModelSearchResult.snapshot = listed
  status : response.status = if listed = [] then .noResults else .success
  totalCount : response.totalCount = listed.length
  scores : ∀ first ∈ response.results.head?, ∀ r ∈ response.results,
    r.score = Binary64.round (handler.rank u query r.snapshot / handler.rank u query first.snapshot)
  pos : ∀ r ∈ response.results, 0 < r.score
  descending : response.results.Pairwise fun r r' => r'.score ≤ r.score

theorem mapM_searchResult {high : ℚ} {listed : List (ModelMemorySnapshot β)}
    (bounds : ∀ s ∈ listed, 0 < self.rank u query s ∧ self.rank u query s ≤ high) :
    ∃ results, (listed.map fun s => (s, Binary64.round (self.rank u query s / high))).mapM
        (fun (s, score) => searchResult s score) = Except.ok (ε := PyError) results ∧
      results.map ModelSearchResult.snapshot = listed ∧
      ∀ r ∈ results, r.score = Binary64.round (self.rank u query r.snapshot / high) := by
  induction listed with
  | nil => exact ⟨[], rfl, rfl, by simp⟩
  | cons s listed ih =>
    obtain ⟨results, ran, snapshots, scores⟩ := ih fun s mem => bounds s (List.mem_cons_of_mem _ mem)
    obtain ⟨pos, le⟩ := bounds s List.mem_cons_self
    have part := part_bounds pos le
    refine ⟨⟨s, _, part.1.le, part.2⟩ :: results, ?_, by rw [List.map_cons, snapshots], ?_⟩
    · rw [List.map_cons, List.mapM_cons, ran]
      simp only [searchResult_eq ⟨part.1.le, part.2⟩]
      rfl
    · exact List.forall_mem_cons.mpr ⟨rfl, scores⟩

end Search

/-- The search finds exactly the snapshots that contain a term of the query and have a tag asked for,
and lists the ones of the highest ranks, of equal ones those that were put in first. -/
theorem execute_searchText (u : Unicode) (self : HandlerDbMock β) (query : String)
    (request : ModelMemoryRetrievalRequest) (operation : request.operation = .searchText)
    (text : request.queryText = some query) :
    ∃ listed response, self.execute u request = .ok response ∧
      IsHighest (self.rank u query) request.limit (self.snapshots.filter (self.Found u query request ·)) listed ∧
      Lists u self query listed response := by
  have isHighest := isHighest_highest (self.rank u query) request.limit
    (self.snapshots.filter (self.Found u query request ·))
  generalize listing : highest (self.rank u query) request.limit
    (self.snapshots.filter (self.Found u query request ·)) = listed at isHighest
  have whole : self.execute u request =
      (let scored := normalize (listed.map fun s => (s, self.rank u query s))
      if scored = [] then .ok { status := .noResults }
      else do
        let results ← scored.mapM fun (s, score) => searchResult s score
        return { status := .success, results, totalCount := results.length }) := by
    rw [execute, if_neg (by simp [operation])]
    simp only [text, highest_scoredResults, listing]
  cases listed with
  | nil => exact ⟨[], _, whole, isHighest, rfl, rfl, rfl, by simp, by simp, .nil⟩
  | cons first rest =>
    have found : ∀ s ∈ first :: rest, 0 < self.rank u query s := fun s mem =>
      rank_pos.mpr (of_decide_eq_true (List.mem_filter.mp (isHighest.mem mem)).2).1
    have bounds : ∀ s ∈ first :: rest,
        0 < self.rank u query s ∧ self.rank u query s ≤ self.rank u query first := by
      intro s mem
      refine ⟨found s mem, ?_⟩
      rcases List.mem_cons.mp mem with rfl | later
      · exact le_rfl
      · exact (List.pairwise_cons.mp isHighest.descending).1 s later
    obtain ⟨results, ran, snapshots, scores⟩ := mapM_searchResult bounds
    have normalized : normalize ((first :: rest).map fun s => (s, self.rank u query s)) =
        (first :: rest).map fun s => (s, Binary64.round (self.rank u query s / self.rank u query first)) := by
      rw [List.map_cons, normalize, if_pos (found first List.mem_cons_self)]
      simp [Function.comp_def]
    simp only [normalized, ran] at whole
    have count : results.length = (first :: rest).length := by rw [← snapshots, List.length_map]
    have listed : ∀ r ∈ results, r.snapshot ∈ first :: rest := fun r mem =>
      snapshots ▸ List.mem_map_of_mem mem
    refine ⟨first :: rest, _, whole, isHighest, snapshots, rfl, count, ?_, ?_, ?_⟩
    · intro top mem r there
      rw [scores r there]
      cases results with
      | nil => cases mem
      | cons r' results =>
        obtain rfl := Option.mem_some_iff.mp mem
        rw [(List.cons.inj snapshots).1]
    · intro r there
      obtain ⟨pos, le⟩ := bounds _ (listed r there)
      rw [scores r there]
      exact (part_bounds pos le).1
    · have ranks := isHighest.descending
      rw [← snapshots, List.pairwise_map] at ranks
      refine ranks.imp_of_mem fun {r r'} mem mem' le => ?_
      obtain ⟨pos, high⟩ := bounds _ (listed r mem)
      obtain ⟨pos', -⟩ := bounds _ (listed r' mem')
      rw [scores r mem, scores r' mem']
      have top := pos.trans_le high
      exact Binary64.round_mono (div_pos pos' top) (div_le_div_of_nonneg_right le top.le)

/-- The characters of ASCII. -/
def ascii : Unicode where
  lower s := String.ofList (s.toList.map Char.toLower)
  isWord c := c.isAlphanum || c == '_'

/-- Two snapshots about logins and one that is not. -/
def logins : HandlerDbMock Unit := (new false).seedSnapshots
  [⟨"1", some ⟨some "Login-page errors", none⟩, [], ()⟩, ⟨"2", none, ["billing"], ()⟩,
    ⟨"3", some ⟨some "login", some "task"⟩, ["error"], ()⟩, ⟨" ", some ⟨some "login", none⟩, [], ()⟩]

def loginRequest : ModelMemoryRetrievalRequest where
  operation := .searchText
  queryText := some "a LOGIN error"
  limit_bounds := limit_default
  queryText_isSome := fun _ => rfl

theorem execute_searchText_logins : ∃ listed response,
    logins.execute ascii loginRequest = .ok response ∧
      IsHighest (logins.rank ascii "a LOGIN error") 10
        (logins.snapshots.filter (logins.Found ascii "a LOGIN error" loginRequest ·)) listed ∧
      Lists ascii logins "a LOGIN error" listed response :=
  execute_searchText ascii logins "a LOGIN error" loginRequest rfl rfl

end HandlerDbMock

end OmniMemory.Retrieval.Text
