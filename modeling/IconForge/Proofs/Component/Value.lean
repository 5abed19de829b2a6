import IconForge.Component.Element
import IconForge.Proofs.Component.Literal

/-!
# Attribute values are read back

The value of an attribute other than `style` is written in one of two notations: between double quotes, or as a string literal in
braces (`attributeValue_eq_chars`). A reader that takes all characters between double quotes as they are, and decodes literals,
gets every value back (`value?_attributeValue`).
-/

namespace IconForge.Component

open Text

/-- The value of an attribute, in one of its two notations. -/
inductive Value where
  /-- Characters between double quotes. -/
  | quoted (raw : List Char)
  /-- A text whose string literal stands in braces. -/
  | literal (text : List Char)
  deriving Repr, DecidableEq

namespace Value

/-- The characters of a value, as they stand between the quotes or as the literal denotes them. -/
def text : Value → List Char
  | .quoted raw => raw
  | .literal text => text

/-- A value as it is written. -/
def chars : Value → List Char
  | .quoted raw => '"' :: raw ++ ['"']
  | .literal text => bracedLiteral text

/-- The notation for a text: a literal if the text holds a double quote or a line feed. -/
def ofText (text : List Char) : Value := if '"' ∈ text ∨ '\n' ∈ text then .literal text else .quoted text

@[simp] theorem text_ofText (s : List Char) : (ofText s).text = s := by
  unfold ofText
  split <;> rfl

end Value

/-- Apart from inline styles, a value is written in the notation for its text, whatever the name of the attribute. -/
theorem attributeValue_eq_chars {name : String} (h : name ≠ "style") (value : String) :
    attributeValue name value = (Value.ofText value.toList).chars := by
  have hany : value.toList.any (fun c => c = '"' || c = '\n') = true ↔ '"' ∈ value.toList ∨ '\n' ∈ value.toList := by
    simp [List.any_eq_true, and_or_left, exists_or]
  rw [attributeValue, if_neg h, Value.ofText]
  simp only [hany]
  split <;> rfl

/-- A string literal in braces. -/
def bracedLiteral? : List Char → Option (List Char × List Char)
  | '{' :: s =>
    match literal? s with
    | some (text, '}' :: rest) => some (text, rest)
    | _ => none
  | _ => none

/-- The value of an attribute: characters up to the next double quote, or a literal in braces. -/
def value? : List Char → Option (Value × List Char)
  | '"' :: s =>
    match s.dropWhile (· ≠ '"') with
    | [] => none
    | _ :: rest => some (.quoted (s.takeWhile (· ≠ '"')), rest)
  | '{' :: s => (bracedLiteral? ('{' :: s)).map fun r => (.literal r.1, r.2)
  | _ => none

/-- A literal in braces is read back, with the text behind it left. -/
theorem bracedLiteral?_bracedLiteral (s rest : List Char) : bracedLiteral? (bracedLiteral s ++ rest) = some (s, rest) := by
  have h : bracedLiteral s ++ rest = '{' :: (quoteChars s ++ '}' :: rest) := by simp [bracedLiteral]
  simp only [h, bracedLiteral?, literal?_quoteChars]

/-- A value in quotes is read up to its closing quote. -/
theorem value?_quoted {raw : List Char} (h : '"' ∉ raw) (rest : List Char) :
    value? ('"' :: (raw ++ '"' :: rest)) = some (.quoted raw, rest) := by
  obtain ⟨htake, hdrop⟩ := takeWhile_ne_append_cons h rest
  simp only [value?, htake, hdrop]

/-- Every value comes back in the notation for its text, whatever stands behind it. -/
theorem value?_attributeValue {name : String} (h : name ≠ "style") (value : String) (rest : List Char) :
    value? (attributeValue name value ++ rest) = some (Value.ofText value.toList, rest) := by
  rw [attributeValue_eq_chars h, Value.ofText]
  split
  case isTrue =>
    have hbrace : value? ((Value.literal value.toList).chars ++ rest) =
        (bracedLiteral? (bracedLiteral value.toList ++ rest)).map fun r => (.literal r.1, r.2) := rfl
    rw [hbrace, bracedLiteral?_bracedLiteral]
    rfl
  case isFalse hplain =>
    have hquotes : (Value.quoted value.toList).chars ++ rest = '"' :: (value.toList ++ '"' :: rest) := by simp [Value.chars]
    rw [hquotes]
    exact value?_quoted (fun hq => hplain (Or.inl hq)) rest

end IconForge.Component
