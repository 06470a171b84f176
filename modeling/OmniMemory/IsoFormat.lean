import OmniMemory.Strings

/-! `datetime.isoformat` and `datetime.fromisoformat` for times in UTC, and the texts that other
writers make of such a time: the offset may be `Z`, and the fraction may have fewer digits. -/

namespace OmniMemory

/-! ### Decimal digits -/

/-- The last `width` decimal digits of a number. -/
def decimal : (width : Nat) → Nat → List Char
  | 0, _ => []
  | width + 1, n => decimal width (n / 10) ++ [(n % 10).digitChar]

def decimalNumber (digits : List Char) : Option Nat :=
  digits.foldlM (fun n c => if c.isDigit then some (10 * n + (c.toNat - 48)) else none) 0

/-- A number of `width` digits. -/
def readDecimal (width : Nat) (l : List Char) : Option (Nat × List Char) :=
  if l.length < width then none else (decimalNumber (l.take width)).map (·, l.drop width)

theorem digitChar_eq {d : Nat} (less : d < 10) :
    d.digitChar.isDigit = true ∧ d.digitChar.toNat - 48 = d := by
  have all : ∀ d < 10, d.digitChar.isDigit = true ∧ d.digitChar.toNat - 48 = d := by decide
  exact all d less

@[simp] theorem length_decimal (width n : Nat) : (decimal width n).length = width := by
  induction width generalizing n with
  | zero => rfl
  | succ width ih => simp [decimal, ih]

theorem isDigit_of_mem_decimal {width n : Nat} {c : Char} (mem : c ∈ decimal width n) :
    c.isDigit = true := by
  induction width generalizing n with
  | zero => simp [decimal] at mem
  | succ width ih =>
    rcases List.mem_append.mp mem with mem | mem
    · exact ih mem
    · rw [List.mem_singleton.mp mem]
      exact (digitChar_eq (Nat.mod_lt n (by omega))).1

theorem decimalNumber_decimal {width n : Nat} (less : n < 10 ^ width) :
    decimalNumber (decimal width n) = some n := by
  induction width generalizing n with
  | zero =>
    obtain rfl : n = 0 := by simpa using less
    rfl
  | succ width ih =>
    have high := @ih (n / 10) (by omega)
    obtain ⟨digit, value⟩ := digitChar_eq (Nat.mod_lt n (show 0 < 10 by omega))
    unfold decimalNumber at high ⊢
    rw [decimal, List.foldlM_append, high]
    simp only [Option.bind_eq_bind, Option.bind_some, List.foldlM_cons, List.foldlM_nil, digit,
      if_true, value]
    exact congrArg some (by omega)

theorem decimalNumber_zeros (l : List Char) (n : Nat) :
    decimalNumber (l ++ List.replicate n '0') = (decimalNumber l).map (· * 10 ^ n) := by
  induction n with
  | zero => simp
  | succ n ih =>
    unfold decimalNumber at ih ⊢
    rw [List.replicate_succ', ← List.append_assoc, List.foldlM_append, ih]
    cases l.foldlM (fun n c => if c.isDigit then some (10 * n + (c.toNat - 48)) else none) 0 with
    | none => rfl
    | some m =>
      show some (10 * (m * 10 ^ n) + 0) = some (m * 10 ^ (n + 1))
      rw [Nat.add_zero, Nat.pow_succ, Nat.mul_comm 10, Nat.mul_assoc]

theorem readDecimal_decimal {width n : Nat} (less : n < 10 ^ width) (rest : List Char) :
    readDecimal width (decimal width n ++ rest) = some (n, rest) := by
  have long : ¬ (decimal width n ++ rest).length < width := by simp
  have take : (decimal width n ++ rest).take width = decimal width n :=
    List.take_left' (length_decimal width n)
  have drop : (decimal width n ++ rest).drop width = rest := List.drop_left' (length_decimal width n)
  rw [readDecimal, if_neg long, take, drop, decimalNumber_decimal less, Option.map_some]

/-! ### Times -/

def daysInMonth (year month : Nat) : Nat :=
  if month = 2 then if year % 4 = 0 ∧ (year % 100 ≠ 0 ∨ year % 400 = 0) then 29 else 28
  else if month = 4 ∨ month = 6 ∨ month = 9 ∨ month = 11 then 30
  else 31

namespace DateTime

/-- What every `datetime` is. -/
def InRange (t : DateTime) : Prop :=
  (1 ≤ t.year ∧ t.year ≤ 9999) ∧ (1 ≤ t.month ∧ t.month ≤ 12) ∧
    (1 ≤ t.day ∧ t.day ≤ daysInMonth t.year t.month) ∧ t.time < 86400000000

instance (t : DateTime) : Decidable t.InRange := inferInstanceAs (Decidable (_ ∧ _ ∧ _ ∧ _))

def hour (t : DateTime) : Nat := t.time / 3600000000
def minute (t : DateTime) : Nat := t.time / 60000000 % 60
def second (t : DateTime) : Nat := t.time / 1000000 % 60
def microsecond (t : DateTime) : Nat := t.time % 1000000

/-- The text up to the seconds. -/
def isoStart (t : DateTime) (separator : Char) : List Char :=
  decimal 4 t.year ++ '-' :: (decimal 2 t.month ++ '-' :: (decimal 2 t.day ++ separator ::
    (decimal 2 t.hour ++ ':' :: (decimal 2 t.minute ++ ':' :: decimal 2 t.second))))

def isoWith (t : DateTime) (zone : List Char) : String :=
  String.ofList (t.isoStart 'T' ++
    ((if t.microsecond = 0 then [] else '.' :: decimal 6 t.microsecond) ++ zone))

/-- `isoformat()`. -/
def isoformat (t : DateTime) : String := t.isoWith "+00:00".toList

example : isoformat ⟨2026, 1, 31, 86399000001⟩ = "2026-01-31T23:59:59.000001+00:00" := by
  decide +kernel

/-- The text is a fraction of a second, with up to six digits. -/
def Fraction (microsecond : Nat) (l : List Char) : Prop :=
  microsecond = 0 ∧ l = [] ∨ ∃ width n, 1 ≤ width ∧ width ≤ 6 ∧ n < 10 ^ width ∧
    microsecond = n * 10 ^ (6 - width) ∧ l = '.' :: decimal width n

/-- The text is one of the time, as JSON writers and drivers make them. -/
def IsoText (t : DateTime) (s : String) : Prop :=
  ∃ separator fraction zone, separator ∈ ['T', ' '] ∧ Fraction t.microsecond fraction ∧
    zone ∈ ["+00:00".toList, ['Z']] ∧ s.toList = t.isoStart separator ++ (fraction ++ zone)

/-- A character that is as expected. -/
def readChar (c : Char) : List Char → Option (List Char)
  | d :: rest => if d = c then some rest else none
  | [] => none

/-- A `T` or a space. -/
def readSeparator : List Char → Option (List Char)
  | 'T' :: rest | ' ' :: rest => some rest
  | _ => none

/-- The digits after the sixth are dropped. -/
def readFraction : List Char → Option (Nat × List Char)
  | '.' :: rest =>
    let digits := rest.takeWhile Char.isDigit
    if digits = [] then none
    else (decimalNumber ((digits ++ List.replicate 6 '0').take 6)).map
      (·, rest.dropWhile Char.isDigit)
  | rest => some (0, rest)

def readIso (l : List Char) : Option DateTime := do
  let (year, rest) ← readDecimal 4 l
  let rest ← readChar '-' rest
  let (month, rest) ← readDecimal 2 rest
  let rest ← readChar '-' rest
  let (day, rest) ← readDecimal 2 rest
  let rest ← readSeparator rest
  let (hour, rest) ← readDecimal 2 rest
  let rest ← readChar ':' rest
  let (minute, rest) ← readDecimal 2 rest
  let rest ← readChar ':' rest
  let (second, rest) ← readDecimal 2 rest
  let (microsecond, rest) ← readFraction rest
  let t : DateTime := ⟨year, month, day, ((hour * 60 + minute) * 60 + second) * 1000000 + microsecond⟩
  if rest ∈ ["+00:00".toList, ['Z']] ∧ minute < 60 ∧ second < 60 ∧ t.InRange then some t else none

/-- `datetime.fromisoformat(s)`, for the texts of a time in UTC with the date, the hour, the minute and
the second in full. -/
def fromIsoFormat (s : String) : Option DateTime := readIso s.toList

@[simp] theorem readChar_cons (c : Char) (rest : List Char) : readChar c (c :: rest) = some rest :=
  if_pos rfl

theorem readFraction_append {microsecond : Nat} {fraction zone : List Char}
    (isFraction : Fraction microsecond fraction) (isZone : zone ∈ ["+00:00".toList, ['Z']]) :
    readFraction (fraction ++ zone) = some (microsecond, zone) := by
  have stop : zone.takeWhile Char.isDigit = [] ∧ zone.dropWhile Char.isDigit = zone := by
    revert zone
    decide
  rcases isFraction with ⟨rfl, rfl⟩ | ⟨width, n, some, short, less, rfl, rfl⟩
  · rcases List.mem_cons.mp isZone with rfl | last
    · rfl
    · rw [List.mem_singleton.mp last]
      rfl
  · have digits : ∀ c ∈ decimal width n, c.isDigit = true := fun c => isDigit_of_mem_decimal
    have nonempty : decimal width n ≠ [] := by
      intro empty
      have := length_decimal width n
      simp [empty] at this
      omega
    have padded : (decimal width n ++ List.replicate 6 '0').take 6 =
        decimal width n ++ List.replicate (6 - width) '0' := by
      rw [List.take_append, List.take_of_length_le (by simp [short]), length_decimal,
        List.take_replicate, Nat.min_eq_left (by omega)]
    simp only [List.cons_append, readFraction]
    rw [List.takeWhile_append_of_pos digits, List.dropWhile_append_of_pos digits, stop.1, stop.2,
      List.append_nil, if_neg nonempty, padded, decimalNumber_zeros, decimalNumber_decimal less]
    rfl

theorem year_lt {t : DateTime} (inRange : t.InRange) :
    t.year < 10 ^ 4 ∧ t.month < 10 ^ 2 ∧ t.day < 10 ^ 2 ∧ t.hour < 10 ^ 2 ∧ t.minute < 60 ∧
      t.second < 60 := by
  obtain ⟨year, month, day, time⟩ := inRange
  have month_le : daysInMonth t.year t.month ≤ 31 := by
    unfold daysInMonth
    split_ifs <;> omega
  unfold hour minute second
  omega

theorem time_eq (t : DateTime) :
    ((t.hour * 60 + t.minute) * 60 + t.second) * 1000000 + t.microsecond = t.time := by
  unfold hour minute second microsecond
  omega

/-- The texts of a time are read. -/
theorem readIso_eq {t : DateTime} {separator : Char} {fraction zone : List Char}
    (inRange : t.InRange) (isSeparator : separator ∈ ['T', ' ']) (isFraction : Fraction t.microsecond fraction)
    (isZone : zone ∈ ["+00:00".toList, ['Z']]) :
    readIso (t.isoStart separator ++ (fraction ++ zone)) = some t := by
  obtain ⟨year, month, day, hour, minute, second⟩ := year_lt inRange
  have minute' : t.minute < 10 ^ 2 := by omega
  have second' : t.second < 10 ^ 2 := by omega
  have same : (⟨t.year, t.month, t.day,
      ((t.hour * 60 + t.minute) * 60 + t.second) * 1000000 + t.microsecond⟩ : DateTime) = t := by
    rw [time_eq]
  have separated : ∀ rest, readSeparator (separator :: rest) = some rest := by
    intro rest
    rcases List.mem_cons.mp isSeparator with rfl | last
    · rfl
    · rw [List.mem_singleton.mp last]
      rfl
  simp only [isoStart, readIso, List.append_assoc, List.cons_append, readDecimal_decimal year,
    readDecimal_decimal month, readDecimal_decimal day, readDecimal_decimal hour,
    readDecimal_decimal minute', readDecimal_decimal second', readChar_cons, separated,
    readFraction_append isFraction isZone, Option.bind_eq_bind, Option.bind_some, same]
  exact if_pos ⟨isZone, minute, second, inRange⟩

theorem IsoText.fromIsoFormat {t : DateTime} {s : String} (isText : IsoText t s)
    (inRange : t.InRange) : fromIsoFormat s = some t := by
  obtain ⟨separator, fraction, zone, isSeparator, isFraction, isZone, same⟩ := isText
  rw [DateTime.fromIsoFormat, same]
  exact readIso_eq inRange isSeparator isFraction isZone

/-- A text is of one time. -/
theorem IsoText.unique {t t' : DateTime} {s : String} (isText : IsoText t s)
    (inRange : t.InRange) (isText' : IsoText t' s) (inRange' : t'.InRange) : t = t' :=
  Option.some.inj ((isText.fromIsoFormat inRange).symm.trans (isText'.fromIsoFormat inRange'))

theorem isoText_isoWith (t : DateTime) {zone : List Char}
    (isZone : zone ∈ ["+00:00".toList, ['Z']]) : IsoText t (t.isoWith zone) := by
  refine ⟨'T', _, zone, by decide, ?_, isZone, String.toList_ofList⟩
  have less : t.microsecond < 10 ^ 6 := Nat.mod_lt _ (by decide)
  split
  · rename_i none
    exact .inl ⟨none, rfl⟩
  · exact .inr ⟨6, t.microsecond, by decide, le_rfl, less, (Nat.mul_one _).symm, rfl⟩

theorem isoText_isoformat (t : DateTime) : IsoText t t.isoformat := t.isoText_isoWith (by decide)

/-- `replace("Z", "+00:00")` gives another text of the time. -/
theorem IsoText.replace {t : DateTime} {s : String} (isText : IsoText t s) :
    IsoText t (s.replace "Z" "+00:00") := by
  obtain ⟨separator, fraction, zone, isSeparator, isFraction, isZone, same⟩ := isText
  have digits : ∀ width n, ∀ c ∈ decimal width n, c ≠ 'Z' := by
    rintro width n c mem rfl
    exact absurd (isDigit_of_mem_decimal mem) (by decide)
  have plain : ∀ c ∈ t.isoStart separator ++ fraction, c ≠ 'Z' := by
    have separator_ne : separator ≠ 'Z' := by
      rintro rfl
      exact absurd isSeparator (by decide)
    have fraction_ne : ∀ c ∈ fraction, c ≠ 'Z' := by
      rcases isFraction with ⟨-, rfl⟩ | ⟨width, n, -, -, -, -, rfl⟩
      · exact nofun
      · exact List.forall_mem_cons.mpr ⟨by decide, digits width n⟩
    simp only [isoStart, List.forall_mem_append, List.forall_mem_cons]
    exact ⟨⟨digits _ _, by decide, digits _ _, by decide, digits _ _, separator_ne, digits _ _,
      by decide, digits _ _, by decide, digits _ _⟩, fraction_ne⟩
  refine ⟨separator, fraction, "+00:00".toList, isSeparator, isFraction, by decide, ?_⟩
  have replaced := toList_replace s 'Z' "+00:00"
  rw [same, ← List.append_assoc, substitute_append, substitute_of_ne plain] at replaced
  have last : substitute 'Z' "+00:00" zone = "+00:00".toList := by
    rcases List.mem_cons.mp isZone with rfl | last
    · decide
    · rw [List.mem_singleton.mp last]
      decide
  rw [last, List.append_assoc] at replaced
  exact replaced

end DateTime

end OmniMemory
