import IconForge.Component.Source
import IconForge.Proofs.Component.Literal
import IconForge.Proofs.Component.Numeral

/-!
# Declared sizes

A declared size becomes the literal that a constant of the module takes its value from. A size that is no decimal is quoted, and its
literal says its text. A decimal stands for itself, but modules know fewer numerals than declarations know decimals. So the literal
says the size, and the constant is declared as it must be, exactly if a size that is a decimal is a strict one
(`sizeLiteral_says_iff`); `007` is not (`sizeLiteral_says_false`).
-/

namespace IconForge.Component

open Text

/-! ## The literal of a size -/

/-- A literal that says a size: a numeral of the number that the size denotes as a decimal, or a string literal of its text. -/
inductive Says (size : List Char) : List Char → Prop
  | number {s : List Char} (hsize : SignedDecimal size) (h : SignedNumeral s (decimalValue size)) : Says size s
  | text {s : List Char} (h : literal? s = some (size, [])) : Says size s

/-- A size that the module can hold: if it is a decimal, then behind its sign it is a strict one. -/
def IsHoldable (size : List Char) : Prop := isDecimal size = true → IsStrict (withoutMinus size)

/-- A size is written bare when it is a decimal, and quoted otherwise, trimmed in both cases. -/
theorem toList_sizeLiteral (value : String) :
    (sizeLiteral (some value)).toList =
      if isDecimal (trim value.toList) = true then trim value.toList else quoteChars (trim value.toList) := by
  simp only [sizeLiteral]
  split <;> exact String.toList_ofList

/-- A quoted size says the size. -/
theorem says_quoteChars (size : List Char) : Says size (quoteChars size) := by
  have hread := literal?_quoteChars size []
  rw [List.append_nil] at hread
  exact .text hread

theorem SignedDecimal.literal?_eq_none {s : List Char} (h : SignedDecimal s) : literal? s = none := by
  have hquote : ¬IsDecimalChar '\'' := by decide
  unfold literal?
  split
  case h_1 => exact absurd (h.isDecimalChar _ List.mem_cons_self) hquote
  case h_2 => rfl

/-- The literal of a decimal says the size if it is a strict one. -/
theorem says_self_iff {size : List Char} (h : SignedDecimal size) : Says size size ↔ IsStrict (withoutMinus size) := by
  constructor
  · intro hsays
    cases hsays with
    | number _ hnumeral => exact ((signedNumeral_iff _ _).mp hnumeral).2.1
    | text hread =>
      rw [h.literal?_eq_none] at hread
      cases hread
  · intro hstrict
    exact .number h ((signedNumeral_iff _ _).mpr ⟨h, hstrict, rfl⟩)

/-- The literal of a size says the size if the module can hold it. -/
theorem says_sizeLiteral_iff (value : String) :
    Says (trim value.toList) (sizeLiteral (some value)).toList ↔ IsHoldable (trim value.toList) := by
  rw [toList_sizeLiteral]
  unfold IsHoldable
  split
  case isTrue h =>
    rw [says_self_iff ((isDecimal_iff _).mp h)]
    exact ⟨fun hstrict _ => hstrict, fun hstrict => hstrict h⟩
  case isFalse h => exact ⟨fun _ hd => absurd hd h, fun _ => says_quoteChars _⟩

/-! ## The declaration of a size -/

/-- What the value of a variable is taken from. -/
inductive Operand : List Char → Prop
  | undefined : Operand "undefined".toList
  | number {s : List Char} {q : Rat} (h : SignedNumeral s q) : Operand s
  | text {s : List Char} (h : IsLiteral s) : Operand s

/-- The declaration of a constant that is one value or, if that one is falsy, another. -/
def IsDeclaration (name s : List Char) : Prop :=
  ∃ value fallback, Operand value ∧ Operand fallback ∧
    s = "const ".toList ++ name ++ " = ".toList ++ value ++ " || ".toList ++ fallback ++ [';']

theorem operand_quoteChars (s : List Char) : Operand (quoteChars s) := .text (isLiteral_quoteChars s)

/-- An operand that begins like a decimal is a numeral. -/
theorem Operand.signedNumeral {c : Char} {rest : List Char} (h : Operand (c :: rest)) (hc : IsDecimalChar c) :
    ∃ q, SignedNumeral (c :: rest) q := by
  generalize hs : c :: rest = s at h
  cases h with
  | undefined =>
    obtain ⟨rfl, -⟩ := List.cons.inj hs
    exact absurd hc (by decide)
  | number h => exact ⟨_, h⟩
  | text h =>
    obtain ⟨body, text, -, rfl⟩ := h
    obtain ⟨rfl, -⟩ := List.cons.inj hs
    exact absurd hc (by decide)

/-- A decimal is an operand if it is a strict one. -/
theorem operand_iff_of_signedDecimal {s : List Char} (h : SignedDecimal s) : Operand s ↔ IsStrict (withoutMinus s) := by
  constructor
  · intro hoperand
    obtain ⟨c, rest, rfl, hc⟩ := h.exists_cons
    obtain ⟨q, hnumeral⟩ := hoperand.signedNumeral hc
    exact ((signedNumeral_iff _ _).mp hnumeral).2.1
  · exact fun hstrict => .number ((signedNumeral_iff _ _).mpr ⟨h, hstrict, rfl⟩)

/-- The declaration of a size in characters: its literal, with one em to fall back on. -/
theorem toList_sizeDeclaration (name : String) (size : Option String) :
    (sizeDeclaration name size).toList =
      "const ".toList ++ name.toList ++ " = ".toList ++ (sizeLiteral size).toList ++ " || ".toList ++ quoteChars "1em".toList ++ [';'] := by
  simp only [sizeDeclaration, String.toList_append]
  rfl

/-- An operand that begins with a decimal and a blank is that decimal: both end at the first blank. -/
theorem operand_of_append_blank {s value rest more : List Char} (h : SignedDecimal s) (hvalue : Operand value)
    (heq : s ++ ' ' :: rest = value ++ ' ' :: more) : Operand s := by
  have hblank : ¬IsDecimalChar ' ' := by decide
  obtain ⟨c, tail, hs, hc⟩ := h.exists_cons
  cases value with
  | nil =>
    rw [hs] at heq
    rw [(List.cons.inj heq).1] at hc
    exact absurd hc hblank
  | cons d value =>
    obtain rfl : c = d := by
      rw [hs] at heq
      exact (List.cons.inj heq).1
    obtain ⟨q, hnumeral⟩ := hvalue.signedNumeral hc
    have hsigned := ((signedNumeral_iff _ _).mp hnumeral).1
    have htake := (takeWhile_ne_append_cons (fun hmem => hblank (h.isDecimalChar _ hmem)) rest).1
    rw [heq, (takeWhile_ne_append_cons (fun hmem => hblank (hsigned.isDecimalChar _ hmem)) more).1] at htake
    rw [← htake]
    exact hvalue

/-- The constant of a size is declared as it must be if the module can hold the size, or if there is none. -/
theorem isDeclaration_iff (name : String) (size? : Option String) :
    IsDeclaration name.toList (sizeDeclaration name size?).toList ↔
      ∀ value, size? = some value → IsHoldable (trim value.toList) := by
  rw [toList_sizeDeclaration]
  constructor
  · rintro ⟨operand, fallback, hoperand, hfallback, heq⟩ value rfl hdecimal
    have hsigned := (isDecimal_iff _).mp hdecimal
    rw [toList_sizeLiteral, if_pos hdecimal] at heq
    simp only [List.append_assoc, List.append_cancel_left_eq] at heq
    exact (operand_iff_of_signedDecimal hsigned).mp (operand_of_append_blank hsigned hoperand heq)
  · intro hholdable
    refine ⟨_, _, ?_, operand_quoteChars "1em".toList, rfl⟩
    cases size? with
    | none => exact .undefined
    | some value =>
      rw [toList_sizeLiteral]
      split
      case isTrue h => exact (operand_iff_of_signedDecimal ((isDecimal_iff _).mp h)).mpr (hholdable value rfl h)
      case isFalse => exact operand_quoteChars _

/-- The literal of a declared size says the size, as a numeral of the same number or as a string literal of the trimmed text, exactly
if the module can hold the size, and exactly then the constant that takes its value from it is declared as it must be. Without a size
it always is. -/
theorem sizeLiteral_says_iff (name value : String) :
    (Says (trim value.toList) (sizeLiteral (some value)).toList ↔ IsHoldable (trim value.toList)) ∧
      (IsDeclaration name.toList (sizeDeclaration name (some value)).toList ↔ IsHoldable (trim value.toList)) ∧
      IsDeclaration name.toList (sizeDeclaration name none).toList := by
  refine ⟨says_sizeLiteral_iff value, ?_, (isDeclaration_iff name none).mpr nofun⟩
  rw [isDeclaration_iff]
  constructor
  · exact fun h => h value rfl
  · intro h other hother
    rwa [← Option.some.inj hother]

/-- A zero in front of another digit and a digit of another script are written as they are declared. -/
theorem sizeLiteral_says_false :
    ¬Says (trim "007".toList) (sizeLiteral (some "007")).toList ∧
      ¬Says (trim "\u0663".toList) (sizeLiteral (some "\u0663")).toList ∧
      ¬IsDeclaration "widthFromSvg".toList (sizeDeclaration "widthFromSvg" (some "007")).toList := by
  have hzero : ¬IsHoldable (trim "007".toList) := by
    intro h
    exact absurd ((h (by decide)).leading '0' ['7'] (by decide)) (by decide)
  have hscript : ¬IsHoldable (trim "\u0663".toList) := by
    intro h
    exact absurd ((h (by decide)).ascii '\u0663' (by decide) (by decide)) (by decide)
  exact ⟨fun h => hzero ((says_sizeLiteral_iff _).mp h), fun h => hscript ((says_sizeLiteral_iff _).mp h),
    fun h => hzero ((isDeclaration_iff _ _).mp h _ rfl)⟩

end IconForge.Component
