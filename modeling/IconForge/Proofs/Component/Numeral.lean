import IconForge.Component.Literal
import IconForge.Text.Cut
import Mathlib.Algebra.Field.Rat
import Mathlib.Tactic.FieldSimp
import Mathlib.Tactic.Ring

/-!
# Decimals and numerals

A declaration writes a number as a decimal: digits of any script, at most one point, and a minus sign at will. A module writes it as a
numeral, whose digits are ASCII digits and whose whole part is a zero alone or does not begin with one. The numerals are the decimals
that are strict in this sense, and as numerals they denote the numbers that they denote as decimals (`signedNumeral_iff`).
-/

namespace IconForge.Component

open Text

/-! ## Numbers in digits -/

/-- The number that digits of one kind denote, most significant first. -/
def numberOf (value? : Char → Option Nat) (digits : List Char) : Nat := ofDigits 10 (digits.filterMap value?)

theorem numberOf_nil (value? : Char → Option Nat) : numberOf value? [] = 0 := rfl

/-- The digits behind others count less: the front is moved up by as many places as there are behind it. -/
theorem ofDigits_append (base : Nat) (ds es : List Nat) :
    ofDigits base (ds ++ es) = ofDigits base ds * base ^ es.length + ofDigits base es := by
  have hfrom : ∀ n, es.foldl (fun n d => n * base + d) n = n * base ^ es.length + ofDigits base es := by
    unfold ofDigits
    induction es with
    | nil => simp
    | cons e es ih =>
      intro n
      rw [List.foldl_cons, ih, List.foldl_cons, ih (0 * base + e), List.length_cons]
      ring
  rw [ofDigits, List.foldl_append, hfrom]
  rfl

/-- A digit of a format has the value that it has among the digits of all scripts. -/
theorem digitValue?_of_isDigit {c : Char} (h : isDigit c = true) : digitValue? c = digit? c := by
  have hrow := h
  simp only [isDigit, Bool.and_eq_true, decide_eq_true_eq, Char.le_def, UInt32.le_iff_toNat_le] at hrow
  have low : 0x30 ≤ c.toNat := hrow.1
  have high : c.toNat < 0x30 + 10 := Nat.lt_succ_of_le hrow.2
  simp [digit?, h, digitValue?, digitZeros, low, high]

/-! ## Decimals -/

/-- The number that an unsigned decimal denotes: its digits, of whatever script, over a power of ten for the digits behind the
point. -/
def unsignedValue (s : List Char) : Rat :=
  let whole := s.takeWhile isDecimalDigit
  let fraction := (s.dropWhile isDecimalDigit).drop 1
  (numberOf digitValue? (whole ++ fraction) : Rat) / 10 ^ fraction.length

/-- The number that a decimal denotes. -/
def decimalValue : List Char → Rat
  | '-' :: s => -unsignedValue s
  | s => unsignedValue s

/-- The forms of an unsigned decimal. -/
inductive UnsignedDecimal : List Char → Prop
  | whole {whole : List Char} (hwhole : ∀ d ∈ whole, isDecimalDigit d = true) (hne : whole ≠ []) : UnsignedDecimal whole
  | pointed {whole fraction : List Char} (hwhole : ∀ d ∈ whole, isDecimalDigit d = true)
      (hfraction : ∀ d ∈ fraction, isDecimalDigit d = true) (hne : whole ≠ [] ∨ fraction ≠ []) :
      UnsignedDecimal (whole ++ '.' :: fraction)

/-- The check for digits with a point among them finds exactly the unsigned decimals. -/
theorem isUnsignedDecimal_iff (s : List Char) : isUnsignedDecimal s = true ↔ UnsignedDecimal s := by
  constructor
  · intro h
    have hsplit := List.takeWhile_append_dropWhile (p := isDecimalDigit) (l := s)
    have hwhole : ∀ d ∈ s.takeWhile isDecimalDigit, isDecimalDigit d = true :=
      fun d hd => List.all_eq_true.mp List.all_takeWhile d hd
    unfold isUnsignedDecimal at h
    simp only at h
    split at h
    case h_1 hdrop =>
      rw [hdrop, List.append_nil] at hsplit
      rw [← hsplit]
      exact .whole hwhole (by simpa using h)
    case h_2 fraction hdrop =>
      rw [hdrop] at hsplit
      rw [← hsplit]
      obtain ⟨hfraction, hne⟩ := Bool.and_eq_true_iff.mp h
      exact .pointed hwhole (List.all_eq_true.mp hfraction) (by simpa using hne)
    case h_3 => cases h
  · intro h
    cases h with
    | whole hwhole hne =>
      obtain ⟨htake, hdrop⟩ := takeWhile_of_all hwhole
      simpa [isUnsignedDecimal, htake, hdrop] using hne
    | @pointed whole fraction hwhole hfraction hne =>
      obtain ⟨htake, hdrop⟩ := takeWhile_append_cons hwhole (c := '.') (by decide) fraction
      simp only [isUnsignedDecimal, htake, hdrop, Bool.and_eq_true]
      exact ⟨List.all_eq_true.mpr hfraction, by simpa using hne⟩

/-- A decimal is unsigned, or an unsigned one behind a minus sign. -/
inductive SignedDecimal : List Char → Prop
  | unsigned {s : List Char} (h : UnsignedDecimal s) : SignedDecimal s
  | negative {s : List Char} (h : UnsignedDecimal s) : SignedDecimal ('-' :: s)

/-- A decimal without its sign. -/
def withoutMinus : List Char → List Char
  | '-' :: s => s
  | s => s

/-- The characters of decimals. -/
def IsDecimalChar (c : Char) : Prop := isDecimalDigit c = true ∨ c = '.' ∨ c = '-'

instance (c : Char) : Decidable (IsDecimalChar c) := inferInstanceAs (Decidable (_ ∨ _ ∨ _))

theorem UnsignedDecimal.ne_nil {s : List Char} (h : UnsignedDecimal s) : s ≠ [] := by
  cases h with
  | whole _ hne => exact hne
  | pointed => exact List.append_ne_nil_of_right_ne_nil _ (List.cons_ne_nil _ _)

/-- An unsigned decimal consists of digits and a point. -/
theorem UnsignedDecimal.digit_or_point {s : List Char} (h : UnsignedDecimal s) : ∀ c ∈ s, isDecimalDigit c = true ∨ c = '.' := by
  cases h with
  | whole hwhole _ => exact fun c hc => .inl (hwhole c hc)
  | pointed hwhole hfraction _ =>
    intro c hc
    rcases List.mem_append.mp hc with hc | hc
    · exact .inl (hwhole c hc)
    · rcases List.mem_cons.mp hc with rfl | hc
      · exact .inr rfl
      · exact .inl (hfraction c hc)

theorem UnsignedDecimal.not_minus {s rest : List Char} (h : UnsignedDecimal s) : s ≠ '-' :: rest := by
  rintro rfl
  have hminus := h.digit_or_point '-' List.mem_cons_self
  revert hminus
  decide

/-- A signed decimal consists of digits, a point and a minus sign. -/
theorem SignedDecimal.isDecimalChar {s : List Char} (h : SignedDecimal s) : ∀ c ∈ s, IsDecimalChar c := by
  have hunsigned : ∀ {s}, UnsignedDecimal s → ∀ c ∈ s, IsDecimalChar c :=
    fun h c hc => (h.digit_or_point c hc).imp_right .inl
  cases h with
  | unsigned h => exact hunsigned h
  | negative h => exact List.forall_mem_cons.mpr ⟨.inr (.inr rfl), hunsigned h⟩

theorem SignedDecimal.exists_cons {s : List Char} (h : SignedDecimal s) : ∃ c rest, s = c :: rest ∧ IsDecimalChar c := by
  have hne : s ≠ [] := by
    cases h with
    | unsigned h => exact h.ne_nil
    | negative => exact List.cons_ne_nil _ _
  obtain ⟨c, rest, rfl⟩ := List.exists_cons_of_ne_nil hne
  exact ⟨c, rest, rfl, h.isDecimalChar c List.mem_cons_self⟩

theorem UnsignedDecimal.withoutMinus_eq {s : List Char} (h : UnsignedDecimal s) : withoutMinus s = s := by
  unfold withoutMinus
  split
  case h_1 => exact absurd rfl h.not_minus
  case h_2 => rfl

theorem UnsignedDecimal.decimalValue_eq {s : List Char} (h : UnsignedDecimal s) : decimalValue s = unsignedValue s := by
  unfold decimalValue
  split
  case h_1 => exact absurd rfl h.not_minus
  case h_2 => rfl

/-- The check for sizes finds exactly the signed decimals. -/
theorem isDecimal_iff (s : List Char) : isDecimal s = true ↔ SignedDecimal s := by
  constructor
  · intro h
    unfold isDecimal at h
    split at h
    case h_1 => exact .negative ((isUnsignedDecimal_iff _).mp h)
    case h_2 => exact .unsigned ((isUnsignedDecimal_iff _).mp h)
  · intro h
    cases h with
    | unsigned h =>
      unfold isDecimal
      split
      case h_1 => exact absurd rfl h.not_minus
      case h_2 => exact (isUnsignedDecimal_iff _).mpr h
    | negative h => exact (isUnsignedDecimal_iff _).mpr h

/-! ## Numerals of a module -/

/-- The whole part of a numeral: a zero alone, or digits that do not begin with a zero. -/
inductive IsWhole : List Char → Prop
  | zero : IsWhole ['0']
  | positive {c : Char} {rest : List Char} (hc : isDigit c = true) (hne : c ≠ '0') (hrest : ∀ d ∈ rest, isDigit d = true) :
      IsWhole (c :: rest)

/-- The decimal numerals of a module without an exponent, and the numbers that they denote: the number of the whole part, and that of
the digits behind the point over a power of ten. -/
inductive Numeral : List Char → Rat → Prop
  | whole {whole : List Char} (hwhole : IsWhole whole) : Numeral whole (numberOf digit? whole)
  | pointed {whole fraction : List Char} (hwhole : IsWhole whole) (hfraction : ∀ d ∈ fraction, isDigit d = true) :
      Numeral (whole ++ '.' :: fraction) (numberOf digit? whole + numberOf digit? fraction / 10 ^ fraction.length)
  | fraction {fraction : List Char} (hne : fraction ≠ []) (hfraction : ∀ d ∈ fraction, isDigit d = true) :
      Numeral ('.' :: fraction) (numberOf digit? fraction / 10 ^ fraction.length)

/-- A numeral with a minus sign in front at will, and the number it denotes. -/
inductive SignedNumeral : List Char → Rat → Prop
  | unsigned {s : List Char} {q : Rat} (h : Numeral s q) : SignedNumeral s q
  | negative {s : List Char} {q : Rat} (h : Numeral s q) : SignedNumeral ('-' :: s) (-q)

/-- The decimals that are numerals: all digits are ASCII digits, and no digit follows a zero at the front. -/
structure IsStrict (s : List Char) : Prop where
  ascii : ∀ c ∈ s, isDecimalDigit c = true → isDigit c = true
  leading : ∀ d rest, s = '0' :: d :: rest → isDecimalDigit d = false

/-- A whole numeral consists of digits. -/
theorem IsWhole.isDigit {whole : List Char} (h : IsWhole whole) : ∀ d ∈ whole, isDigit d = true := by
  cases h with
  | zero =>
    intro d hd
    rw [List.mem_singleton.mp hd]
    rfl
  | positive hc _ hrest => exact List.forall_mem_cons.mpr ⟨hc, hrest⟩

/-- On digits from zero to nine the values of all scripts and those of a program text agree. -/
theorem numberOf_digitValue? {digits : List Char} (h : ∀ d ∈ digits, isDigit d = true) :
    numberOf digitValue? digits = numberOf digit? digits := by
  unfold numberOf
  rw [List.filterMap_congr fun d hd => digitValue?_of_isDigit (h d hd)]

/-- Each digit has a value. -/
theorem length_filterMap_digit? {digits : List Char} (h : ∀ d ∈ digits, isDigit d = true) :
    (digits.filterMap digit?).length = digits.length := by
  have hmap : digits.filterMap digit? = digits.map fun d => d.toNat - '0'.toNat := by
    rw [← List.filterMap_eq_map]
    exact List.filterMap_congr fun d hd => if_pos (h d hd)
  rw [hmap, List.length_map]

/-- A number goes on with the digits behind it. -/
theorem numberOf_append {digits : List Char} (h : ∀ d ∈ digits, isDigit d = true) (front : List Char) :
    numberOf digit? (front ++ digits) = numberOf digit? front * 10 ^ digits.length + numberOf digit? digits := by
  rw [numberOf, List.filterMap_append, ofDigits_append, length_filterMap_digit? h]
  rfl

/-- The value of a numeral without a point is the number of its digits. -/
theorem unsignedValue_whole {whole : List Char} (h : ∀ d ∈ whole, isDigit d = true) :
    unsignedValue whole = numberOf digit? whole := by
  obtain ⟨htake, hdrop⟩ := takeWhile_of_all fun d hd => isDecimalDigit_of_isDigit d (h d hd)
  simp [unsignedValue, htake, hdrop, numberOf_digitValue? h]

/-- The digits on both sides of the point can be counted apart. -/
theorem unsignedValue_pointed {whole fraction : List Char} (hwhole : ∀ d ∈ whole, isDigit d = true)
    (hfraction : ∀ d ∈ fraction, isDigit d = true) :
    unsignedValue (whole ++ '.' :: fraction) =
      numberOf digit? whole + (numberOf digit? fraction : Rat) / 10 ^ fraction.length := by
  obtain ⟨htake, hdrop⟩ := takeWhile_append_cons (fun d hd => isDecimalDigit_of_isDigit d (hwhole d hd)) (c := '.') (by decide)
    fraction
  have hdigits : ∀ d ∈ whole ++ fraction, isDigit d = true := List.forall_mem_append.mpr ⟨hwhole, hfraction⟩
  simp only [unsignedValue, htake, hdrop, List.drop_one, List.tail_cons]
  rw [numberOf_digitValue? hdigits, numberOf_append hfraction, Nat.cast_add, Nat.cast_mul, Nat.cast_pow, Nat.cast_ofNat]
  field_simp

theorem IsWhole.ne_nil {whole : List Char} (h : IsWhole whole) : whole ≠ [] := by
  cases h <;> exact List.cons_ne_nil _ _

/-- A zero at the front of a whole part has no digit behind it. -/
theorem IsWhole.eq_of_zero {rest : List Char} (h : IsWhole ('0' :: rest)) : rest = [] := by
  cases h with
  | zero => rfl
  | positive _ hne _ => exact absurd rfl hne

/-- Digits without a needless zero in front are a whole numeral. -/
theorem isWhole_of_leading {whole : List Char} (hne : whole ≠ []) (hdigits : ∀ d ∈ whole, isDigit d = true)
    (hleading : ∀ d rest, whole ≠ '0' :: d :: rest) : IsWhole whole := by
  obtain ⟨c, rest, rfl⟩ := List.exists_cons_of_ne_nil hne
  by_cases hc : c = '0'
  · subst hc
    cases rest with
    | nil => exact .zero
    | cons d rest => exact absurd rfl (hleading d rest)
  · exact .positive (hdigits c List.mem_cons_self) hc fun d hd => hdigits d (List.mem_cons_of_mem _ hd)

/-- A numeral of a program is an unsigned decimal. -/
theorem UnsignedDecimal.of_numeral {s : List Char} {q : Rat} (h : Numeral s q) : UnsignedDecimal s := by
  cases h with
  | whole hwhole => exact .whole (fun d hd => isDecimalDigit_of_isDigit d (hwhole.isDigit d hd)) hwhole.ne_nil
  | pointed hwhole hfraction =>
    exact .pointed (fun d hd => isDecimalDigit_of_isDigit d (hwhole.isDigit d hd))
      (fun d hd => isDecimalDigit_of_isDigit d (hfraction d hd)) (.inl hwhole.ne_nil)
  | @fraction fraction hne hfraction =>
    have hpointed : UnsignedDecimal ([] ++ '.' :: fraction) :=
      .pointed nofun (fun d hd => isDecimalDigit_of_isDigit d (hfraction d hd)) (.inr hne)
    exact hpointed

/-- A numeral of a program keeps the rules about digits and leading zeros. -/
theorem IsStrict.of_numeral {s : List Char} {q : Rat} (h : Numeral s q) : IsStrict s := by
  have hpoint : isDecimalDigit '.' = false := by decide
  cases h with
  | whole hwhole =>
    refine ⟨fun c hc _ => hwhole.isDigit c hc, ?_⟩
    rintro d rest rfl
    cases hwhole.eq_of_zero
  | @pointed whole fraction hwhole hfraction =>
    constructor
    · intro c hc hdigit
      rcases List.mem_append.mp hc with hc | hc
      · exact hwhole.isDigit c hc
      · rcases List.mem_cons.mp hc with rfl | hc
        · rw [hpoint] at hdigit
          cases hdigit
        · exact hfraction c hc
    · intro d rest hsplit
      obtain ⟨c, more, rfl⟩ := List.exists_cons_of_ne_nil hwhole.ne_nil
      obtain ⟨rfl, hmore⟩ := List.cons.inj hsplit
      rw [hwhole.eq_of_zero] at hmore
      rw [← (List.cons.inj hmore).1]
      exact hpoint
  | @fraction fraction hne hfraction =>
    constructor
    · intro c hc hdigit
      rcases List.mem_cons.mp hc with rfl | hc
      · rw [hpoint] at hdigit
        cases hdigit
      · exact hfraction c hc
    · intro d rest hsplit
      exact absurd (List.cons.inj hsplit).1 (by decide)

/-- A numeral denotes the number that it denotes as a decimal. -/
theorem Numeral.eq_value {s : List Char} {q : Rat} (h : Numeral s q) : q = unsignedValue s := by
  cases h with
  | whole hwhole => exact (unsignedValue_whole hwhole.isDigit).symm
  | pointed hwhole hfraction => exact (unsignedValue_pointed hwhole.isDigit hfraction).symm
  | @fraction fraction hne hfraction =>
    have hvalue := unsignedValue_pointed (List.forall_mem_nil _) hfraction
    rw [List.nil_append, numberOf_nil, Nat.cast_zero, zero_add] at hvalue
    exact hvalue.symm

/-- A strict decimal is a numeral. -/
theorem IsStrict.numeral {s : List Char} (hs : UnsignedDecimal s) (h : IsStrict s) : Numeral s (unsignedValue s) := by
  cases hs with
  | whole hwhole hne =>
    have hdigits : ∀ d ∈ s, isDigit d = true := fun d hd => h.ascii d hd (hwhole d hd)
    have hleading : ∀ d rest, s ≠ '0' :: d :: rest := by
      rintro d rest rfl
      have := hwhole d (by simp)
      rw [h.leading d rest rfl] at this
      cases this
    rw [unsignedValue_whole hdigits]
    exact .whole (isWhole_of_leading hne hdigits hleading)
  | @pointed whole fraction hwhole hfraction hne =>
    have hwholeDigits : ∀ d ∈ whole, isDigit d = true := fun d hd => h.ascii d (by simp [hd]) (hwhole d hd)
    have hfractionDigits : ∀ d ∈ fraction, isDigit d = true := fun d hd => h.ascii d (by simp [hd]) (hfraction d hd)
    rw [unsignedValue_pointed hwholeDigits hfractionDigits]
    by_cases hnil : whole = []
    · subst hnil
      rw [List.nil_append, numberOf_nil, Nat.cast_zero, zero_add]
      exact .fraction (hne.resolve_left fun hn => hn rfl) hfractionDigits
    · have hleading : ∀ d rest, whole ≠ '0' :: d :: rest := by
        rintro d rest rfl
        have := hwhole d (by simp)
        rw [h.leading d (rest ++ '.' :: fraction) rfl] at this
        cases this
      exact .pointed (isWhole_of_leading hnil hwholeDigits hleading) hfractionDigits

/-- The numerals of a program are the unsigned decimals that keep these rules, and they have the value of the decimal. -/
theorem numeral_iff (s : List Char) (q : Rat) : Numeral s q ↔ UnsignedDecimal s ∧ IsStrict s ∧ q = unsignedValue s := by
  constructor
  · exact fun h => ⟨.of_numeral h, .of_numeral h, h.eq_value⟩
  · rintro ⟨hs, hstrict, rfl⟩
    exact hstrict.numeral hs

/-- The signed numerals are the decimals that are strict behind their sign, and they denote the same numbers. -/
theorem signedNumeral_iff (s : List Char) (q : Rat) :
    SignedNumeral s q ↔ SignedDecimal s ∧ IsStrict (withoutMinus s) ∧ q = decimalValue s := by
  constructor
  · intro h
    cases h with
    | unsigned h =>
      obtain ⟨hs, hstrict, rfl⟩ := (numeral_iff _ _).mp h
      rw [hs.withoutMinus_eq, hs.decimalValue_eq]
      exact ⟨.unsigned hs, hstrict, rfl⟩
    | negative h =>
      obtain ⟨hs, hstrict, rfl⟩ := (numeral_iff _ _).mp h
      exact ⟨.negative hs, hstrict, rfl⟩
  · rintro ⟨hs, hstrict, rfl⟩
    cases hs with
    | unsigned hs =>
      rw [hs.withoutMinus_eq] at hstrict
      rw [hs.decimalValue_eq]
      exact .unsigned (hstrict.numeral hs)
    | negative hs => exact .negative (IsStrict.numeral hs hstrict)

end IconForge.Component
