import IconForge.Path.Basic

/-!
# Names of components

An icon file names its component by its stem, or in the joined style by the words of its stem. A name is usable when it has the
form of an identifier and is not a reserved word.
-/

namespace IconForge.Component

/-- How file names become component names. -/
inductive Naming where
  /-- The stem as it is. -/
  | preserve
  /-- The words of the stem, each with its first letter raised, joined. -/
  | pascal
  deriving Repr, DecidableEq

/-- The styles with the words that select them. -/
def Naming.words : List (String × Naming) := [("preserve", .preserve), ("pascal", .pascal)]

/-- The style that a word selects. -/
def Naming.ofString? (s : String) : Option Naming := (Naming.words.find? (·.1 == s)).map (·.2)

/-- The word that selects a style. -/
def Naming.toString : Naming → String
  | .preserve => "preserve"
  | .pascal => "pascal"

/-- An ASCII letter or digit. -/
def isWordChar (c : Char) : Bool := c.isAlphanum

/-- Drops what lies between words and raises the first character of each word; `raised` says that a word starts here. -/
def pascalFrom : Bool → List Char → List Char
  | _, [] => []
  | raised, c :: rest =>
    if isWordChar c then (if raised then c.toUpper else c) :: pascalFrom false rest else pascalFrom true rest

/-- The component name of an icon file. -/
def identifier (naming : Naming) (path : Path) : String :=
  match naming with
  | .preserve => path.stem
  | .pascal => String.ofList (pascalFrom true path.stem.toList)

/-- A character that may start an identifier. -/
def isIdentifierStart (c : Char) : Bool := c.isAlpha || c = '_' || c = '$'

/-- A character that may go on with an identifier. -/
def isIdentifierChar (c : Char) : Bool := c.isAlphanum || c = '_' || c = '$'

/-- The form of an identifier; one line feed is allowed to follow it. -/
def hasIdentifierForm : List Char → Bool
  | [] => false
  | c :: rest =>
    isIdentifierStart c && (match rest.dropWhile isIdentifierChar with
      | [] => true
      | ['\n'] => true
      | _ => false)

/-- Words of the form of an identifier that nothing can be bound to. -/
def reservedWords : List String :=
  ["arguments", "await", "break", "case", "catch", "class", "const", "continue", "debugger", "default", "delete", "do",
    "else", "enum", "eval", "export", "extends", "false", "finally", "for", "function", "if", "implements", "import", "in",
    "instanceof", "interface", "let", "new", "null", "package", "private", "protected", "public", "return", "static",
    "super", "switch", "this", "throw", "true", "try", "typeof", "var", "void", "while", "with", "yield"]

/-- A name that a component can have. -/
def isUsable (name : String) : Bool := hasIdentifierForm name.toList && !reservedWords.contains name

end IconForge.Component
