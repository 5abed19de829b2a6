import IconForge.Proofs.Component.Value
import IconForge.Text.Digit

/-!
# What an attribute says in the compiled module

A compiler reads the two notations of a value differently. A string literal in braces says the text that it denotes. Between double
quotes, references such as `&lt;` and `&#60;` are replaced by the characters they stand for, and all else stands for itself. The
notation is chosen by double quotes and line feeds alone, so a value between double quotes may hold a reference by accident, as
`&amp;lt;` in a document does. A value keeps its meaning exactly if it is written as a literal or holds no reference
(`compiled?_attributeValue_iff`).
-/

namespace IconForge.Component

open Text

/-! ## References -/

/-- The characters that names in references stand for. Compilers know different names, and these four at least. -/
structure Entities where
  named : List Char → Option Char
  amp : named "amp".toList = some '&'
  lt : named "lt".toList = some '<'
  gt : named "gt".toList = some '>'
  quot : named "quot".toList = some '"'

/-- The four names and no other. -/
def Entities.basic : Entities where
  named := fun name => [("amp".toList, '&'), ("lt".toList, '<'), ("gt".toList, '>'), ("quot".toList, '"')].lookup name
  amp := by decide
  lt := by decide
  gt := by decide
  quot := by decide

/-- The character whose number the digits denote. There is one digit at least, and not every number is that of a character. -/
def numbered? (base : Nat) (digit? : Char → Option Nat) : List Char → Option Char
  | [] => none
  | digits =>
    match digits.mapM digit? with
    | none => none
    | some values => if (ofDigits base values).isValidChar then some (Char.ofNat (ofDigits base values)) else none

section
variable (E : Entities)

/-- The character that is referred to between an ampersand and a semicolon: by its number in base sixteen or ten, or by its name. -/
def Entities.character? : List Char → Option Char
  | '#' :: 'x' :: digits => numbered? 16 hexDigit? digits
  | '#' :: digits => numbered? 10 digit? digits
  | name => E.named name

/-- The character of the reference at the front of a text, and what is left behind its semicolon. -/
def reference? : List Char → Option (Char × List Char)
  | '&' :: s =>
    match E.character? (s.takeWhile (· ≠ ';')), s.dropWhile (· ≠ ';') with
    | some c, _ :: rest => some (c, rest)
    | _, _ => none
  | _ => none

/-- Somewhere in the text stands a reference to a character. -/
def HasReference (s : List Char) : Prop :=
  ∃ before body after c, s = before ++ '&' :: (body ++ ';' :: after) ∧ ';' ∉ body ∧ E.character? body = some c

variable {E}

/-- A reference is read up to its semicolon. -/
theorem reference?_append {body : List Char} (h : ';' ∉ body) {c : Char} (hc : E.character? body = some c) (rest : List Char) :
    reference? E ('&' :: (body ++ ';' :: rest)) = some (c, rest) := by
  obtain ⟨htake, hdrop⟩ := takeWhile_ne_append_cons h rest
  simp only [reference?, htake, hdrop, hc]

/-- A reference begins with an ampersand and ends with the first semicolon. -/
theorem exists_body_of_reference? {s rest : List Char} {c : Char} (h : reference? E s = some (c, rest)) :
    ∃ body, s = '&' :: (body ++ ';' :: rest) ∧ ';' ∉ body ∧ E.character? body = some c := by
  unfold reference? at h
  split at h
  case h_2 => cases h
  case h_1 s =>
    split at h
    case h_2 => cases h
    case h_1 c' d rest' hc hdrop =>
      obtain ⟨rfl, rfl⟩ : c' = c ∧ rest' = rest := by simpa using h
      obtain ⟨body, hbody, rfl⟩ := exists_of_dropWhile_ne hdrop
      rw [(takeWhile_ne_append_cons hbody _).1] at hc
      exact ⟨body, rfl, hbody, hc⟩

/-- A reference is longer than the character it stands for. -/
theorem length_of_reference? {s rest : List Char} {c : Char} (h : reference? E s = some (c, rest)) :
    rest.length + 1 < s.length := by
  obtain ⟨body, rfl, -, -⟩ := exists_body_of_reference? h
  simp only [List.length_cons, List.length_append]
  omega

/-! ## Decoding -/

variable (E) in
/-- A text with the character in place of every reference; all else stays. -/
def decode : List Char → List Char
  | [] => []
  | c :: s =>
    match _h : reference? E (c :: s) with
    | some (d, rest) => d :: decode rest
    | none => c :: decode s
termination_by s => s.length
decreasing_by
  · exact Nat.lt_of_succ_lt (length_of_reference? _h)
  · exact Nat.lt_succ_self s.length

/-- Decoding makes no text longer. -/
theorem length_decode_le (s : List Char) : (decode E s).length ≤ s.length := by
  fun_induction decode E s with
  | case1 => exact Nat.le_refl 0
  | case2 c s d rest h ih =>
    have := length_of_reference? h
    simp only [List.length_cons] at this ⊢
    omega
  | case3 c s h ih => exact Nat.succ_le_succ ih

/-- Decoding makes a text shorter that holds a reference. -/
theorem length_decode_lt {s : List Char} (h : HasReference E s) : (decode E s).length < s.length := by
  fun_induction decode E s with
  | case1 =>
    obtain ⟨before, body, after, c, hs, -, -⟩ := h
    simp at hs
  | case2 c s d rest href ih =>
    have hlength := length_of_reference? href
    have hle := length_decode_le (E := E) rest
    simp only [List.length_cons] at hlength ⊢
    omega
  | case3 c s href ih =>
    obtain ⟨before, body, after, d, hs, hbody, hd⟩ := h
    cases before with
    | nil =>
      rw [hs, List.nil_append, reference?_append hbody hd] at href
      cases href
    | cons e before =>
      obtain ⟨-, rfl⟩ := List.cons.inj hs
      exact Nat.succ_lt_succ (ih ⟨before, body, after, d, rfl, hbody, hd⟩)

/-- Decoding leaves the texts without a reference as they are, and no other. -/
theorem decode_eq_self_iff {s : List Char} : decode E s = s ↔ ¬HasReference E s := by
  constructor
  · intro h href
    have := length_decode_lt href
    rw [h] at this
    exact Nat.lt_irrefl _ this
  · intro h
    fun_induction decode E s with
    | case1 => rfl
    | case2 c s d rest href ih =>
      obtain ⟨body, hs, hbody, hd⟩ := exists_body_of_reference? href
      exact absurd ⟨[], body, rest, d, hs, hbody, hd⟩ h
    | case3 c s href ih =>
      rw [ih]
      rintro ⟨before, body, after, d, rfl, hbody, hd⟩
      exact h ⟨c :: before, body, after, d, rfl, hbody, hd⟩

instance (s : List Char) : Decidable (HasReference E s) :=
  decidable_of_iff (¬decode E s = s) (by rw [decode_eq_self_iff, Classical.not_not])

example : decode Entities.basic "&#60;&#x3e;&nbsp;".toList = "<>&nbsp;".toList := by cbv

/-! ## What a value says -/

variable (E) in
/-- The text that a value says in the compiled module. -/
def Value.compiled : Value → List Char
  | .quoted raw => decode E raw
  | .literal text => text

variable (E) in
/-- The text that an attribute says in the compiled module, if a value stands behind its equals sign and nothing else. -/
def compiled? (s : List Char) : Option (List Char) :=
  match value? s with
  | some (value, []) => some (value.compiled E)
  | _ => none

/-- What an attribute's value is compiled to does not depend on the attribute's name, style apart. -/
theorem compiled?_attributeValue {name : String} (h : name ≠ "style") (value : String) :
    compiled? E (attributeValue name value) = some ((Value.ofText value.toList).compiled E) := by
  have hread := value?_attributeValue h value []
  rw [List.append_nil] at hread
  simp only [compiled?, hread]

/-- A text is said as it is if it is written as a literal or holds no reference. -/
theorem compiled_ofText_eq_iff {s : List Char} :
    (Value.ofText s).compiled E = s ↔ ('"' ∈ s ∨ '\n' ∈ s) ∨ ¬HasReference E s := by
  unfold Value.ofText
  split
  case isTrue h => simp [Value.compiled, h]
  case isFalse h => simp only [Value.compiled, decode_eq_self_iff, h, false_or]

/-- In the compiled module an attribute other than an inline style says its value exactly if the value holds a double quote or a line
feed, so that it is written as a literal, or holds no reference. -/
theorem compiled?_attributeValue_iff (E : Entities) (name value : String) (h : name ≠ "style") :
    compiled? E (attributeValue name value) = some value.toList ↔
      ('"' ∈ value.toList ∨ '\n' ∈ value.toList) ∨ ¬HasReference E value.toList := by
  rw [compiled?_attributeValue h, Option.some.injEq, compiled_ofText_eq_iff]

end

/-- Ampersands that begin no reference, and backslashes, are said as they are. -/
theorem compiled?_attributeValue_bare :
    "ariaLabel" ≠ "style" ∧
      compiled? Entities.basic (attributeValue "ariaLabel" "a && b; &nbsp; \\n &#;") = some "a && b; &nbsp; \\n &#;".toList := by
  have hstyle : "ariaLabel" ≠ "style" := by decide
  have hbare : ¬HasReference Entities.basic "a && b; &nbsp; \\n &#;".toList := by decide +kernel
  exact ⟨hstyle, (compiled?_attributeValue_iff Entities.basic _ _ hstyle).mpr (.inr hbare)⟩

/-- A value that looks like a reference is said as the character, whatever other names the compiler knows. -/
theorem compiled?_attributeValue_false :
    ¬∃ E : Entities, ∀ name value : String, name ≠ "style" → compiled? E (attributeValue name value) = some value.toList := by
  rintro ⟨E, h⟩
  have hsaid := h "ariaLabel" "&lt;" (by decide)
  rw [compiled?_attributeValue (by decide), Option.some.injEq] at hsaid
  have href : HasReference E "&lt;".toList := ⟨[], "lt".toList, [], '<', rfl, by decide, E.lt⟩
  rcases compiled_ofText_eq_iff.mp hsaid with hliteral | hbare
  · exact absurd hliteral (by decide)
  · exact hbare href

end IconForge.Component
