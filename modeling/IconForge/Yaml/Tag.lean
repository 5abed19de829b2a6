import IconForge.Text.Whole
import IconForge.Yaml.Timestamp

/-!
# Tags

A tag says what kind of value a node stands for. A plain scalar without a tag is resolved by its text.
-/

namespace IconForge.Yaml

open Text

/-- What kind of value a node stands for. -/
inductive Tag where
  | null
  | bool
  | whole
  | number
  | binary
  | timestamp
  | text
  | sequence
  | mapping
  | set
  | orderedMapping
  | pairs
  /-- The key under which a mapping takes in other mappings. -/
  | merge
  /-- The key of a mapping's default value. -/
  | value
  | unknown
  deriving Repr, DecidableEq

namespace Tag

/-- What the names of known tags start with. -/
def family : String := "tag:yaml.org,2002:"

/-- The names of known tags. -/
def names : List (String × Tag) :=
  [("null", null), ("bool", bool), ("int", whole), ("float", number), ("binary", binary), ("timestamp", timestamp), ("str", text),
    ("seq", sequence), ("map", mapping), ("set", set), ("omap", orderedMapping), ("pairs", pairs), ("merge", merge), ("value", value)]

/-- The tag of a full name. -/
def ofName (name : List Char) : Tag :=
  if family.toList.isPrefixOf name then (names.lookup (String.ofList (name.drop family.length))).getD unknown else unknown

/-! ## Plain scalars -/

/-- The words for truth values. -/
def boolWords : List String :=
  ["yes", "Yes", "YES", "no", "No", "NO", "true", "True", "TRUE", "false", "False", "FALSE", "on", "On", "ON", "off", "Off", "OFF"]

/-- The words for nothing. -/
def nullWords : List String := ["", "~", "null", "Null", "NULL"]

/-- A digit or an underscore. -/
def isFiller (c : Char) : Bool := isDigit c || c = '_'

/-- The power of ten of a number, which needs a sign, or nothing. -/
def isExponent : List Char → Bool
  | [] => true
  | e :: sign :: digits => (e = 'e' || e = 'E') && (sign = '+' || sign = '-') && !digits.isEmpty && digits.all isDigit
  | _ => false

/-- Digits and underscores, of which the first is a digit. -/
def isDigits (s : List Char) : Bool := comes isDigit s && s.all isFiller

/-- A place of a number in base sixty. -/
def isSixtieth : List Char → Bool
  | [d] => isDigit d
  | [c, d] => '0' ≤ c && c ≤ '5' && isDigit d
  | _ => false

/-- Digits with a point behind the first run of them. -/
def isPointed (s : List Char) : Bool :=
  comes isDigit s && match s.dropWhile isFiller with
    | '.' :: rest => isExponent (rest.dropWhile isFiller)
    | _ => false

/-- Digits behind a point. -/
def isFraction : List Char → Bool
  | '.' :: rest => comes isDigit rest && isExponent (rest.dropWhile isFiller)
  | _ => false

/-- A number in base sixty with a point. -/
def isPointedSixty (s : List Char) : Bool :=
  match cut ':' s with
  | first :: second :: rest =>
    let places := second :: rest
    let last := places.getLast?.getD []
    isDigits first && places.dropLast.all isSixtieth && isSixtieth (last.takeWhile (· != '.'))
      && match last.dropWhile (· != '.') with
        | '.' :: tail => tail.all isFiller
        | _ => false
  | _ => false

/-- A text that is taken for a number. -/
def isNumber (s : List Char) : Bool :=
  let unsigned := (splitSign s).2
  isPointed unsigned || isFraction s || isPointedSixty unsigned || [".inf", ".Inf", ".INF"].contains (String.ofList unsigned)
    || [".nan", ".NaN", ".NAN"].contains (String.ofList s)

/-- A text that is taken for a whole number. -/
def isWhole (s : List Char) : Bool :=
  match (splitSign s).2 with
  | '0' :: 'b' :: rest => !rest.isEmpty && rest.all fun c => c = '0' || c = '1' || c = '_'
  | '0' :: 'x' :: rest => !rest.isEmpty && rest.all fun c => (hexDigit? c).isSome || c = '_'
  | ['0'] => true
  | '0' :: rest => rest.all fun c => ('0' ≤ c && c ≤ '7') || c = '_'
  | unsigned =>
    match cut ':' unsigned with
    | first :: places => isDigits first && places.all isSixtieth
    | [] => false

/-- The tag of a plain scalar. A line break at its end, which only a scalar in quotes can have, does not count. -/
def resolve (s : List Char) : Tag :=
  let s := if s.getLast? = some '\n' && s.length ≠ 1 then s.dropLast else s
  let word := String.ofList s
  if boolWords.contains word then bool
  else if isNumber s then number
  else if isWhole s then whole
  else if word = "<<" then merge
  else if nullWords.contains word then null
  else if Timestamp.isEvident s then timestamp
  else if word = "=" then value
  else if word = "!" || word = "&" || word = "*" then unknown
  else text

end Tag

end IconForge.Yaml
