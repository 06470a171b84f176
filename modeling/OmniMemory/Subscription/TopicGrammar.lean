import Mathlib.Data.List.TakeWhile
import OmniMemory.Subscription.Handler

/-! The topics that `subscribe` and `ModelSubscription` take. Both match the pattern and the model
bounds the length; the `$` of the pattern also matches before a line feed that ends the text, so a
topic with a line feed after it is taken as well. -/

namespace OmniMemory

open Interleave Interleave.Prog

namespace Subscription

/-- A lower-case letter, as in `[a-z]`. -/
def IsLetter (c : Char) : Prop := 'a' ≤ c ∧ c ≤ 'z'

/-- A character of `[a-z0-9_]`. -/
def IsNameChar (c : Char) : Prop := IsLetter c ∨ ('0' ≤ c ∧ c ≤ '9') ∨ c = '_'

def IsIdentifier (l : List Char) : Prop :=
  ∃ first rest, l = first :: rest ∧ IsLetter first ∧ ∀ c ∈ rest, IsNameChar c

/-- A text `memory.<entity>.<event>` of at most 256 characters. -/
structure IsTopic (topic : String) : Prop where
  form : ∃ entity event, IsIdentifier entity ∧ IsIdentifier event ∧
    topic.toList = "memory.".toList ++ (entity ++ '.' :: event)
  short : topic.length ≤ 256

section Matching

variable {l rest : List Char} {c : Char} {topic : String}

instance (c : Char) : Decidable (IsLetter c) := inferInstanceAs (Decidable (_ ∧ _))

instance (c : Char) : Decidable (IsNameChar c) := inferInstanceAs (Decidable (_ ∨ _ ∨ _))

theorem matchIdentifier_cons : matchIdentifier (c :: l) =
    if IsLetter c then some (l.dropWhile fun d => IsNameChar d) else none := by
  have same : (fun d => decide (IsNameChar d)) = fun d : Char =>
      decide ('a' ≤ d ∧ d ≤ 'z') || decide ('0' ≤ d ∧ d ≤ '9') || d == '_' := by
    funext d
    rw [Bool.eq_iff_iff, decide_eq_true_iff]
    simp only [IsNameChar, IsLetter, Bool.or_eq_true, decide_eq_true_eq, beq_iff_eq, or_assoc]
  rw [same]
  rfl

/-- What a match goes over is an identifier. -/
theorem exists_identifier (matched : matchIdentifier l = some rest) :
    ∃ name, IsIdentifier name ∧ l = name ++ rest := by
  cases l with
  | nil => contradiction
  | cons c l =>
    rw [matchIdentifier_cons] at matched
    split at matched
    · rename_i letter
      obtain rfl := Option.some.inj matched
      refine ⟨c :: l.takeWhile fun d => IsNameChar d, ⟨c, _, rfl, letter, fun d mem => ?_⟩, ?_⟩
      · exact of_decide_eq_true (List.mem_takeWhile_imp (p := fun d => decide (IsNameChar d)) mem)
      · rw [List.cons_append, List.takeWhile_append_dropWhile]
    · contradiction

/-- An identifier is matched up to a character that it cannot have. -/
theorem matchIdentifier_append (name : IsIdentifier l) (stops : ∀ c ∈ rest.head?, ¬ IsNameChar c) :
    matchIdentifier (l ++ rest) = some rest := by
  obtain ⟨first, tail, rfl, letter, all⟩ := name
  rw [List.cons_append, matchIdentifier_cons, if_pos letter,
    List.dropWhile_append_of_pos fun d mem => decide_eq_true (all d mem)]
  cases rest with
  | nil => rfl
  | cons d rest => rw [List.dropWhile_cons_of_neg (by simpa using stops d rfl)]

/-- What is matched: a topic of any length, with a line feed after it or not. -/
theorem matchTopic_iff : matchTopic topic = true ↔
    ∃ entity event, IsIdentifier entity ∧ IsIdentifier event ∧
      ∃ feed, (feed = [] ∨ feed = ['\n']) ∧
        topic.toList = "memory.".toList ++ (entity ++ '.' :: event) ++ feed := by
  constructor
  · intro matched
    unfold matchTopic at matched
    split at matched
    · rename_i rest text
      split at matched
      · rename_i rest' first
        obtain ⟨entity, isEntity, rfl⟩ := exists_identifier first
        split at matched
        · rename_i last
          obtain ⟨event, isEvent, rfl⟩ := exists_identifier last
          exact ⟨entity, event, isEntity, isEvent, [], .inl rfl, by simp [text]⟩
        · rename_i last
          obtain ⟨event, isEvent, rfl⟩ := exists_identifier last
          exact ⟨entity, event, isEntity, isEvent, ['\n'], .inr rfl, by simp [text]⟩
        · contradiction
      · contradiction
    · contradiction
  · rintro ⟨entity, event, isEntity, isEvent, feed, ends, text⟩
    have first : matchIdentifier (entity ++ '.' :: (event ++ feed)) = some ('.' :: (event ++ feed)) :=
      matchIdentifier_append isEntity (by simp; decide)
    have text : topic.toList =
        'm' :: 'e' :: 'm' :: 'o' :: 'r' :: 'y' :: '.' :: (entity ++ '.' :: (event ++ feed)) := by
      simpa using text
    have second : matchIdentifier (event ++ feed) = some feed := by
      rcases ends with rfl | rfl
      · exact matchIdentifier_append isEvent (by simp)
      · exact matchIdentifier_append isEvent (by simp; decide)
    unfold matchTopic
    rw [text]
    simp only [first, second]
    rcases ends with rfl | rfl <;> rfl

/-- What the pattern and the bound of the length take together. -/
theorem matched_iff : topic.length ≤ 256 ∧ matchTopic topic = true ↔
    IsTopic topic ∨ ∃ topic', IsTopic topic' ∧ topic'.length < 256 ∧ topic = topic' ++ "\n" := by
  rw [matchTopic_iff]
  constructor
  · rintro ⟨short, entity, event, isEntity, isEvent, feed, rfl | rfl, text⟩
    · exact .inl ⟨⟨entity, event, isEntity, isEvent, by simpa using text⟩, short⟩
    · have whole : topic = String.ofList ("memory.".toList ++ (entity ++ '.' :: event)) ++ "\n" := by
        apply String.toList_injective
        simp [text]
      have length := congrArg String.length whole
      rw [String.length_append] at length
      have one : "\n".length = 1 := rfl
      exact .inr ⟨_, ⟨⟨entity, event, isEntity, isEvent, String.toList_ofList⟩, by omega⟩, by omega,
        whole⟩
  · rintro (⟨⟨entity, event, isEntity, isEvent, text⟩, short⟩ |
      ⟨topic, ⟨⟨entity, event, isEntity, isEvent, text⟩, -⟩, short, rfl⟩)
    · exact ⟨short, entity, event, isEntity, isEvent, [], .inl rfl, by simp [text]⟩
    · refine ⟨?_, entity, event, isEntity, isEvent, ['\n'], .inr rfl, by simp [text]⟩
      rw [String.length_append]
      have one : "\n".length = 1 := rfl
      omega

theorem not_isNameChar_feed : ¬ IsNameChar '\n' := by decide

/-- No topic ends in a line feed. -/
theorem not_isTopic_feed : ¬ IsTopic (topic ++ "\n") := by
  rintro ⟨⟨entity, event, -, ⟨first, rest, rfl, letter, all⟩, text⟩, -⟩
  have last := congrArg List.getLast? text
  have ends : (first :: rest).getLast? = some '\n' := by
    rw [String.toList_append] at last
    simpa [List.getLast?_append, List.getLast?_cons] using last.symm
  rcases List.mem_cons.mp (List.mem_of_getLast? ends) with same | mem
  · exact not_isNameChar_feed (.inl (same ▸ letter))
  · exact not_isNameChar_feed (all _ mem)

end Matching

/-- Some answers to its calls make a `subscribe` return a subscription. -/
def Accepts (X : External) (agentId topic : String) (metadata : Option Metadata) (uuid4 : UUID)
    (now : DateTime) : Prop :=
  Possibly (fun _ _ _ _ => True) (HandlerSubscription.subscribe X agentId topic metadata uuid4 now)
    () fun result _ => ∃ s, result = .ok s

section Subscribe

variable {X : External} {agentId topic : String} {metadata : Option Metadata} {uuid4 : UUID}
  {now : DateTime}

theorem matched_of_accepts (accepts : Accepts X agentId topic metadata uuid4 now) :
    topic.length ≤ 256 ∧ matchTopic topic = true := by
  obtain ⟨result, _, runs, s, rfl⟩ := accepts
  unfold HandlerSubscription.subscribe at runs
  split at runs
  · cases (runs_ret.mp runs).1
  obtain ⟨existing, _, -, runs⟩ := runs_bind.mp runs
  cases existing with
  | error e => cases (runs_ret.mp runs).1
  | ok existing =>
    simp only at runs
    split at runs
    · cases (runs_ret.mp runs).1
    · rename_i subscription checked
      exact (ModelSubscription.check_eq_ok.mp checked).1.2

/-- With no subscription yet, and statements that succeed, a matching topic is subscribed to. -/
theorem accepts_of_matched (named : isBlank agentId = false) (short : topic.length ≤ 256)
    (matched : matchTopic topic = true) : Accepts X agentId topic metadata uuid4 now := by
  have valid : (HandlerSubscription.newSubscription agentId topic metadata uuid4 now none).check =
      .ok (HandlerSubscription.newSubscription agentId topic metadata uuid4 now none) :=
    ModelSubscription.check_eq_ok.mpr ⟨⟨named, short, matched⟩, rfl⟩
  unfold Accepts HandlerSubscription.subscribe
  rw [matched]
  simp only [Bool.not_true, Bool.false_eq_true, if_false, pure_eq]
  refine Possibly.seq (Q := fun existing _ => existing = .ok none) ?_ ?_
  · exact possibly_op.mpr ⟨.ok [], (), trivial, possibly_ret.mpr rfl⟩
  · rintro _ ⟨⟩ rfl
    simp only [valid]
    refine Possibly.seq (Q := fun done _ => done = .ok ()) ?_ ?_
    · exact ⟨.ok (), (), .call trivial (.ret _ _), rfl⟩
    · rintro _ ⟨⟩ rfl
      exact possibly_op.mpr ⟨.ok (), (), trivial, possibly_ret.mpr ⟨_, rfl⟩⟩

end Subscribe

/-- A model for the topic can be built, and `subscribe` accepts it, just when it is a topic. -/
structure TopicsExact (X : External) (s : ModelSubscription) : Prop where
  model : (∃ s', s.check = .ok s') ↔ IsTopic s.topic
  subscribe : ∀ uuid4 now, Accepts X s.agentId s.topic s.metadata uuid4 now ↔ IsTopic s.topic

/-- What is accepted is the topics, but for a topic of at most 255 characters with a line feed. -/
theorem topicsExact_iff (X : External) (s : ModelSubscription) (named : isBlank s.agentId = false) :
    TopicsExact X s ↔ ¬ ∃ topic, IsTopic topic ∧ topic.length < 256 ∧ s.topic = topic ++ "\n" := by
  have model : (∃ s', s.check = .ok s') ↔ s.topic.length ≤ 256 ∧ matchTopic s.topic = true := by
    simp only [ModelSubscription.check_eq_ok, exists_and_left, exists_eq, and_true]
    exact and_iff_right named
  constructor
  · rintro exact_ ⟨topic, isTopic, short, feed⟩
    have accepted := exact_.model.mp (model.mpr (matched_iff.mpr (.inr ⟨topic, isTopic, short, feed⟩)))
    rw [feed] at accepted
    exact not_isTopic_feed accepted
  · intro none_
    have matched : s.topic.length ≤ 256 ∧ matchTopic s.topic = true ↔ IsTopic s.topic :=
      matched_iff.trans (or_iff_left none_)
    refine ⟨model.trans matched, fun uuid4 now => Iff.trans ⟨matched_of_accepts, ?_⟩ matched⟩
    rintro ⟨short, matches_⟩
    exact accepts_of_matched named short matches_

theorem topicsExact_plain : TopicsExact plainExternal (plainSubscription 1 "a") := by
  refine (topicsExact_iff plainExternal (plainSubscription 1 "a") (by decide +kernel)).mpr ?_
  rintro ⟨topic, -, -, feed⟩
  have last := congrArg (fun topic => topic.toList.getLast?) feed
  rw [String.toList_append] at last
  simp [plainSubscription, List.getLast?_append] at last

/-- A topic with a line feed after it is accepted. -/
theorem not_topicsExact_feed : ¬ ∀ (X : External) (s : ModelSubscription),
    isBlank s.agentId = false → TopicsExact X s := by
  intro all
  let s : ModelSubscription := { plainSubscription 1 "a" with topic := "memory.item.created\n" }
  have law := all plainExternal s (by decide +kernel)
  have built : s.check = .ok s := ModelSubscription.check_eq_ok.mpr ⟨by decide +kernel, rfl⟩
  exact @not_isTopic_feed "memory.item.created" (law.model.mp ⟨s, built⟩)

end Subscription

end OmniMemory
