import OmniMemory.IsoFormat
import Mathlib.Algebra.GroupWithZero.Nat
import Mathlib.Algebra.Order.Group.Nat
import Mathlib.Data.Nat.Find
import Mathlib.Data.String.Basic
import Mathlib.Order.Monotone.Basic

/-! The days of the calendar: the times of UTC as numbers of microseconds, the time some hours before,
and that the texts of `isoformat` are ordered as the times are, with a fraction of a second or
without. -/

namespace OmniMemory

/-! ### Days -/

/-- The days before the first of January. -/
def daysBeforeYear (year : Nat) : Nat :=
  (year - 1) * 365 + (year - 1) / 4 - (year - 1) / 100 + (year - 1) / 400

/-- The days of a year before the first of a month. -/
def daysBeforeMonth (year month : Nat) : Nat :=
  ((List.range (month - 1)).map fun m => daysInMonth year (m + 1)).sum

def dayMicroseconds : Nat := 86400000000

def hourMicroseconds : Nat := 3600000000

namespace DateTime

/-- `toordinal()`: the day, where the first of January of the year 1 is day 1. -/
def ordinal (t : DateTime) : Nat :=
  daysBeforeYear t.year + daysBeforeMonth t.year t.month + t.day

def microseconds (t : DateTime) : Nat := t.ordinal * dayMicroseconds + t.time

/-- A day by its number, with a time of the day. -/
def ofOrdinal (days time : Nat) : DateTime :=
  let year := Nat.findGreatest (fun year => daysBeforeYear year < days) 9999
  let month := Nat.findGreatest (fun month => daysBeforeMonth year month < days - daysBeforeYear year) 12
  ⟨year, month, days - daysBeforeYear year - daysBeforeMonth year month, time⟩

/-- The time of a number of microseconds. -/
def ofMicroseconds (n : Nat) : DateTime := ofOrdinal (n / dayMicroseconds) (n % dayMicroseconds)

/-- `t - timedelta(hours=hours)`, which raises `OverflowError` if there is no such time. -/
def minusHours (t : DateTime) (hours : Nat) : Option DateTime :=
  if t.microseconds < dayMicroseconds + hours * hourMicroseconds then none
  else some (ofMicroseconds (t.microseconds - hours * hourMicroseconds))

example : minusHours ⟨2024, 3, 1, 5⟩ 24 = some ⟨2024, 2, 29, 5⟩ := by decide +kernel

end DateTime

theorem daysBeforeMonth_succ {year month : Nat} (some : 1 ≤ month) :
    daysBeforeMonth year (month + 1) = daysBeforeMonth year month + daysInMonth year month := by
  obtain ⟨m, rfl⟩ : ∃ m, month = m + 1 := ⟨month - 1, by omega⟩
  simp [daysBeforeMonth, List.range_succ]

theorem daysBeforeMonth_end (year : Nat) : daysBeforeMonth year 13 = daysInMonth year 2 + 337 := by
  simp only [daysBeforeMonth, daysInMonth, Nat.reduceSub, List.range_succ, List.range_zero,
    List.nil_append, List.map_append, List.map_cons, List.map_nil, List.sum_append, List.sum_cons,
    List.sum_nil]
  simp
  omega

/-- A year has the days of its twelve months: a fourth year is a leap year, a hundredth is not, and a
four hundredth is. -/
theorem daysBeforeYear_succ {year : Nat} (some : 1 ≤ year) :
    daysBeforeYear (year + 1) = daysBeforeYear year + daysBeforeMonth year 13 := by
  obtain ⟨y, rfl⟩ : ∃ y, year = y + 1 := ⟨year - 1, by omega⟩
  have century : y / 100 ≤ y := Nat.div_le_self _ _
  have fourth : (y + 1) % 100 = 0 → (y + 1) % 4 = 0 := by omega
  have fourfold : (y + 1) % 400 = 0 → (y + 1) % 100 = 0 := by omega
  rw [daysBeforeMonth_end, daysInMonth, if_pos rfl, daysBeforeYear, daysBeforeYear]
  simp only [Nat.add_sub_cancel, Nat.succ_div, Nat.dvd_iff_mod_eq_zero]
  generalize y / 4 = a, y / 100 = b, y / 400 = c at *
  by_cases leap : (y + 1) % 4 = 0
  · by_cases hundred : (y + 1) % 100 = 0
    · by_cases four : (y + 1) % 400 = 0
      · simp only [leap, hundred, four, if_true, ne_eq, not_true, or_true, and_self]
        omega
      · simp only [leap, hundred, four, if_true, if_false, ne_eq, not_true, or_false, and_false]
        omega
    · have four : ¬ (y + 1) % 400 = 0 := fun four => hundred (fourfold four)
      simp only [leap, hundred, four, if_true, if_false, ne_eq, not_false_eq_true, true_or, and_self]
      omega
  · have hundred : ¬ (y + 1) % 100 = 0 := fun hundred => leap (fourth hundred)
    have four : ¬ (y + 1) % 400 = 0 := fun four => hundred (fourfold four)
    simp only [leap, hundred, four, if_false, false_and]
    omega

theorem daysBeforeMonth_mono (year : Nat) {m m' : Nat} (le : m ≤ m') :
    daysBeforeMonth year m ≤ daysBeforeMonth year m' := by
  refine monotone_nat_of_le_succ (fun month => ?_) le
  rcases Nat.eq_zero_or_pos month with rfl | some
  · rfl
  · rw [daysBeforeMonth_succ some]
    omega

theorem daysBeforeYear_mono {y y' : Nat} (le : y ≤ y') : daysBeforeYear y ≤ daysBeforeYear y' := by
  refine monotone_nat_of_le_succ (fun year => ?_) le
  rcases Nat.eq_zero_or_pos year with rfl | some
  · rfl
  · rw [daysBeforeYear_succ some]
    omega

namespace DateTime

variable {t t' : DateTime} {n hours : Nat}

/-! ### The time of a number -/

theorem day_lt (inRange : t.InRange) :
    daysBeforeMonth t.year t.month < daysBeforeMonth t.year t.month + t.day ∧
      daysBeforeMonth t.year t.month + t.day ≤ daysBeforeMonth t.year (t.month + 1) := by
  obtain ⟨-, month, day, -⟩ := inRange
  rw [daysBeforeMonth_succ month.1]
  omega

theorem ordinal_mem (inRange : t.InRange) :
    daysBeforeYear t.year < t.ordinal ∧ t.ordinal ≤ daysBeforeYear (t.year + 1) := by
  have day := day_lt inRange
  have year := daysBeforeMonth_mono t.year (show t.month + 1 ≤ 13 by have := inRange.2.1.2; omega)
  rw [daysBeforeYear_succ inRange.1.1, ordinal]
  omega

/-- The times, read as their year, month, day and time of day, are ordered as the numbers are. -/
theorem microseconds_lt (inRange : t.InRange) (inRange' : t'.InRange)
    (less : t.year < t'.year ∨ t.year = t'.year ∧ (t.month < t'.month ∨ t.month = t'.month ∧
      (t.day < t'.day ∨ t.day = t'.day ∧ t.time < t'.time))) :
    t.microseconds < t'.microseconds := by
  have time := inRange.2.2.2
  unfold microseconds dayMicroseconds
  rcases less with year | ⟨year, month | ⟨month, day | ⟨day, less⟩⟩⟩
  · have years := daysBeforeYear_mono (show t.year + 1 ≤ t'.year from year)
    have first := (ordinal_mem inRange).2
    have second := (ordinal_mem inRange').1
    omega
  · have months := daysBeforeMonth_mono t.year (show t.month + 1 ≤ t'.month from month)
    have first := (day_lt inRange).2
    have second := (day_lt inRange').1
    unfold ordinal
    rw [← year] at second ⊢
    omega
  · unfold ordinal
    rw [year, month]
    omega
  · unfold ordinal
    rw [year, month, day]
    omega

/-- The greatest up to a bound whose value is below a number, when the value of one is. -/
theorem findGreatest_below (f : Nat → Nat) (b : Nat) {m : Nat} (some : 1 ≤ b) (low : f 1 < m)
    (high : m ≤ f (b + 1)) :
    ∃ k, Nat.findGreatest (fun k => f k < m) b = k ∧ 1 ≤ k ∧ k ≤ b ∧ f k < m ∧ m ≤ f (k + 1) := by
  have le := Nat.findGreatest_le (P := fun k => f k < m) b
  refine ⟨_, rfl, Nat.le_findGreatest some low, le, Nat.findGreatest_spec (P := fun k => f k < m) some low, ?_⟩
  rcases le.lt_or_eq with less | same
  · have next := Nat.findGreatest_is_greatest (P := fun k => f k < m) (Nat.lt_succ_self _) less
    exact Nat.not_lt.mp next
  · rw [same]
    exact high

theorem ofOrdinal_spec {days time : Nat} (low : 0 < days) (high : days ≤ daysBeforeYear 10000)
    (less : time < dayMicroseconds) :
    (ofOrdinal days time).InRange ∧ (ofOrdinal days time).ordinal = days := by
  obtain ⟨year, year_eq, year_low, year_high, year_lt, year_le⟩ :=
    findGreatest_below daysBeforeYear 9999 (by decide) low high
  rw [daysBeforeYear_succ year_low] at year_le
  obtain ⟨month, month_eq, month_low, month_high, month_lt, month_le⟩ :=
    findGreatest_below (daysBeforeMonth year) 12 (by decide) (Nat.sub_pos_of_lt year_lt)
      (Nat.sub_le_iff_le_add'.mpr year_le)
  rw [daysBeforeMonth_succ month_low] at month_le
  have same : ofOrdinal days time =
      ⟨year, month, days - daysBeforeYear year - daysBeforeMonth year month, time⟩ := by
    simp only [ofOrdinal, year_eq, month_eq]
  rw [same]
  refine ⟨⟨⟨year_low, year_high⟩, ⟨month_low, month_high⟩, ⟨?_, ?_⟩, less⟩, ?_⟩
  · simp only
    omega
  · simp only
    omega
  · simp only [ordinal]
    omega

theorem time_ofOrdinal (days time : Nat) : (ofOrdinal days time).time = time := rfl

theorem ofMicroseconds_spec (low : dayMicroseconds ≤ n)
    (high : n < (daysBeforeYear 10000 + 1) * dayMicroseconds) :
    (ofMicroseconds n).InRange ∧ (ofMicroseconds n).microseconds = n := by
  have days_low : 0 < n / dayMicroseconds := Nat.div_pos low (by decide)
  have days_high : n / dayMicroseconds ≤ daysBeforeYear 10000 :=
    Nat.lt_succ_iff.mp ((Nat.div_lt_iff_lt_mul (by decide)).mpr high)
  have time := Nat.mod_lt n (show 0 < dayMicroseconds by decide)
  obtain ⟨inRange, days⟩ := ofOrdinal_spec days_low days_high time
  refine ⟨inRange, ?_⟩
  rw [microseconds, ofMicroseconds, days, time_ofOrdinal]
  exact Nat.div_add_mod' n dayMicroseconds

/-- The time some hours before. -/
theorem minusHours_spec {since : DateTime} (inRange : t.InRange)
    (before : t.minusHours hours = some since) :
    since.InRange ∧ since.microseconds + hours * hourMicroseconds = t.microseconds := by
  unfold minusHours at before
  split at before
  · contradiction
  · rename_i enough
    obtain rfl := Option.some.inj before
    have last : t.microseconds < (daysBeforeYear 10000 + 1) * dayMicroseconds := by
      have year := (ordinal_mem inRange).2
      have years := daysBeforeYear_mono (show t.year + 1 ≤ 10000 by have := inRange.1.2; omega)
      have time : t.time < dayMicroseconds := inRange.2.2.2
      calc t.microseconds < (t.ordinal + 1) * dayMicroseconds := by
            rw [microseconds, Nat.succ_mul]
            omega
        _ ≤ (daysBeforeYear 10000 + 1) * dayMicroseconds := Nat.mul_le_mul_right _ (by omega)
    have low : dayMicroseconds ≤ t.microseconds - hours * hourMicroseconds := by omega
    obtain ⟨inRange, same⟩ := ofMicroseconds_spec low (Nat.lt_of_le_of_lt (Nat.sub_le _ _) last)
    exact ⟨inRange, by rw [same]; omega⟩

/-! ### Texts -/

/-- The texts differ first in a character that is smaller in the first one. -/
def Below (l l' : List Char) : Prop :=
  ∃ start c rest d rest', l = start ++ c :: rest ∧ l' = start ++ d :: rest' ∧ c < d

theorem Below.lt {l l' : List Char} (below : Below l l') : l < l' := by
  obtain ⟨start, c, rest, d, rest', rfl, rfl, less⟩ := below
  induction start with
  | nil => exact List.Lex.rel less
  | cons a start ih => exact List.Lex.cons ih

/-- A text that starts below another one, or as it and goes on below it, is below it. -/
theorem below_append {l l' x x' : List Char} (below : Below l l' ∨ l = l' ∧ Below x x') :
    Below (l ++ x) (l' ++ x') := by
  rcases below with ⟨start, c, rest, d, rest', rfl, rfl, less⟩ | ⟨rfl, start, c, rest, d, rest', rfl, rfl, less⟩
  · exact ⟨start, c, rest ++ x, d, rest' ++ x', by simp, by simp, less⟩
  · exact ⟨l ++ start, c, rest, d, rest', by simp, by simp, less⟩

theorem digitChar_lt {d d' : Nat} (less : d < d') (ten : d' < 10) : d.digitChar < d'.digitChar := by
  have all : ∀ d' < 10, ∀ d < d', d.digitChar < d'.digitChar := by decide
  exact all d' ten d less

theorem below_decimal {width m : Nat} (less : m < n) (bound : n < 10 ^ width) :
    Below (decimal width m) (decimal width n) := by
  induction width generalizing m n with
  | zero => omega
  | succ width ih =>
    rw [decimal, decimal]
    apply below_append
    rcases Nat.lt_or_eq_of_le (Nat.div_le_div_right (c := 10) less.le) with high | same
    · exact .inl (ih high (by omega))
    · refine .inr ⟨by rw [same], [], _, [], _, [], rfl, rfl, digitChar_lt ?_ ?_⟩
      · omega
      · omega

/-- A number of a text, and what comes after it. -/
theorem below_number {width m : Nat} {x x' : List Char} (bound : n < 10 ^ width)
    (below : m < n ∨ m = n ∧ Below x x') : Below (decimal width m ++ x) (decimal width n ++ x') :=
  below_append (below.imp (below_decimal · bound) fun ⟨same, below⟩ => ⟨by rw [same], below⟩)

theorem below_cons {c : Char} {x x' : List Char} (below : Below x x') : Below (c :: x) (c :: x') :=
  below_append (.inr ⟨rfl, below⟩ : Below [c] [c] ∨ [c] = [c] ∧ _)

/-- The fraction of a second and the offset, which a `+` starts if there is no fraction. -/
theorem below_fraction {m : Nat} (less : m < n) (bound : n < 10 ^ 6) :
    Below ((if m = 0 then [] else '.' :: decimal 6 m) ++ "+00:00".toList)
      ((if n = 0 then [] else '.' :: decimal 6 n) ++ "+00:00".toList) := by
  rw [if_neg (show n ≠ 0 by omega)]
  split
  · exact ⟨[], '+', _, '.', _, rfl, rfl, by decide⟩
  · exact below_append (.inl (below_cons (below_decimal less bound)))

/-- A time of day, as its hour, minute, second and microsecond. -/
theorem time_lt (less : t.time < t'.time) :
    t.hour < t'.hour ∨ t.hour = t'.hour ∧ (t.minute < t'.minute ∨ t.minute = t'.minute ∧
      (t.second < t'.second ∨ t.second = t'.second ∧ t.microsecond < t'.microsecond)) := by
  have same := t.time_eq
  have same' := t'.time_eq
  have small : t.minute < 60 ∧ t.second < 60 ∧ t.microsecond < 1000000 :=
    ⟨Nat.mod_lt _ (by decide), Nat.mod_lt _ (by decide), Nat.mod_lt _ (by decide)⟩
  have small' : t'.minute < 60 ∧ t'.second < 60 ∧ t'.microsecond < 1000000 :=
    ⟨Nat.mod_lt _ (by decide), Nat.mod_lt _ (by decide), Nat.mod_lt _ (by decide)⟩
  omega

theorem isoformat_lt_of_lt (inRange' : t'.InRange)
    (less : t.year < t'.year ∨ t.year = t'.year ∧ (t.month < t'.month ∨ t.month = t'.month ∧
      (t.day < t'.day ∨ t.day = t'.day ∧ t.time < t'.time))) : t.isoformat < t'.isoformat := by
  obtain ⟨year, month, day, hour, minute, second⟩ := year_lt inRange'
  have microsecond : t'.microsecond < 10 ^ 6 := Nat.mod_lt _ (by decide)
  rw [String.lt_iff_toList_lt]
  refine Below.lt ?_
  simp only [isoformat, isoWith, isoStart, String.toList_ofList, List.append_assoc, List.cons_append]
  refine below_number year (less.imp_right (And.imp_right fun less => below_cons ?_))
  refine below_number month (less.imp_right (And.imp_right fun less => below_cons ?_))
  refine below_number day (less.imp_right (And.imp_right fun less => below_cons ?_))
  refine below_number hour ((time_lt less).imp_right (And.imp_right fun less => below_cons ?_))
  refine below_number (by omega) (less.imp_right (And.imp_right fun less => below_cons ?_))
  exact below_number (by omega)
    (less.imp_right (And.imp_right fun less => below_fraction less microsecond))

/-- The texts are ordered as the times. -/
theorem isoformat_lt_iff (inRange : t.InRange) (inRange' : t'.InRange) :
    t.isoformat < t'.isoformat ↔ t.microseconds < t'.microseconds := by
  by_cases less : t.year < t'.year ∨ t.year = t'.year ∧ (t.month < t'.month ∨ t.month = t'.month ∧
      (t.day < t'.day ∨ t.day = t'.day ∧ t.time < t'.time))
  · exact iff_of_true (isoformat_lt_of_lt inRange' less) (microseconds_lt inRange inRange' less)
  by_cases above : t'.year < t.year ∨ t'.year = t.year ∧ (t'.month < t.month ∨ t'.month = t.month ∧
      (t'.day < t.day ∨ t'.day = t.day ∧ t'.time < t.time))
  · exact iff_of_false (isoformat_lt_of_lt inRange above).not_gt
      (microseconds_lt inRange' inRange above).not_gt
  · have same : t = t' := by
      obtain ⟨year, month, day, time⟩ := t
      obtain ⟨year', month', day', time'⟩ := t'
      simp only [mk.injEq] at less above ⊢
      omega
    rw [same]
    exact iff_of_false (lt_irrefl _) (lt_irrefl _)

theorem isoformat_le_iff (inRange : t.InRange) (inRange' : t'.InRange) :
    t.isoformat ≤ t'.isoformat ↔ t.microseconds ≤ t'.microseconds := by
  rw [← not_lt, isoformat_lt_iff inRange' inRange, not_lt]

end DateTime

end OmniMemory
