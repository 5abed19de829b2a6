import IconForge.Decimal.Nearest
import IconForge.Json.Value
import IconForge.Text.Digit

/-!
# Reading JSON

A text holds one value between blanks. Numbers may also be written as `NaN`, `Infinity` and `-Infinity`; strings hold no control
characters; two escaped units that form a pair denote one character.
-/

namespace IconForge.Json

open Decimal Text

/-- Why a text holds no value. -/
inductive Fault where
  | malformed
  /-- A whole number with more digits than are read. -/
  | tooLong
  deriving Repr, DecidableEq

/-- A scanner: a value and what is left. -/
abbrev Scanned (α : Type) := Except Fault (α × List Char)

/-- Whole numbers longer than this are not read. -/
def digitLimit : Nat := 4300

/-- Blanks dropped. -/
def skipBlanks (s : List Char) : List Char := s.dropWhile fun c => c = ' ' || c = '\t' || c = '\n' || c = '\r'

/-- A unit of four hexadecimal digits. -/
def unit? : List Char → Option (Nat × List Char)
  | a :: b :: c :: d :: rest => do
    let a ← hexDigit? a
    let b ← hexDigit? b
    let c ← hexDigit? c
    let d ← hexDigit? d
    pure (((a * 16 + b) * 16 + c) * 16 + d, rest)
  | _ => none

/-- The character of an escape, from behind its backslash. -/
def escape? : List Char → Option (Char × List Char)
  | '"' :: rest => some ('"', rest)
  | '\\' :: rest => some ('\\', rest)
  | '/' :: rest => some ('/', rest)
  | 'b' :: rest => some (Char.ofNat 8, rest)
  | 'f' :: rest => some (Char.ofNat 12, rest)
  | 'n' :: rest => some ('\n', rest)
  | 'r' :: rest => some ('\r', rest)
  | 't' :: rest => some ('\t', rest)
  | 'u' :: rest =>
    match unit? rest with
    | none => none
    | some (high, after) =>
      if 0xD800 ≤ high && high ≤ 0xDBFF then
        match after with
        | '\\' :: 'u' :: more =>
          match unit? more with
          | some (low, rest) =>
            if 0xDC00 ≤ low && low ≤ 0xDFFF then
              some (Char.ofNat (0x10000 + (high - 0xD800) * 0x400 + (low - 0xDC00)), rest)
            else some (Char.ofNat 0xFFFD, after)
          | none => some (Char.ofNat 0xFFFD, after)
        | _ => some (Char.ofNat 0xFFFD, after)
      else if 0xDC00 ≤ high && high ≤ 0xDFFF then some (Char.ofNat 0xFFFD, after)
      else some (Char.ofNat high, after)
  | _ => none

/-- The characters of a string, from behind its opening quote, added to those read so far, the last one first. -/
def scanString : Nat → List Char → List Char → Scanned String
  | 0, _, _ => .error .malformed
  | _ + 1, _, [] => .error .malformed
  | fuel + 1, acc, c :: rest =>
    if c = '"' then .ok (String.ofList acc.reverse, rest)
    else if c = '\\' then
      match escape? rest with
      | some (x, after) => scanString fuel (x :: acc) after
      | none => .error .malformed
    else if c.toNat < 0x20 then .error .malformed
    else scanString fuel (c :: acc) rest

/-- The fraction of a number: a point and at least one digit, or nothing. -/
def fraction (s : List Char) : List Char × List Char :=
  match s with
  | '.' :: c :: rest => if isDigit c then (c :: rest.takeWhile isDigit, rest.dropWhile isDigit) else ([], s)
  | _ => ([], s)

/-- The exponent of a number, or nothing. -/
def exponent? (s : List Char) : Option (Int × List Char) :=
  match s with
  | e :: rest =>
    if e = 'e' || e = 'E' then
      let (negative, rest) := match rest with
        | '-' :: r => (true, r)
        | '+' :: r => (false, r)
        | r => (false, r)
      let digits := rest.takeWhile isDigit
      if digits.isEmpty then none
      else
        let n : Int := Nat.ofDigitChars 10 digits 0
        some (if negative then -n else n, rest.dropWhile isDigit)
    else none
  | [] => none

/-- A number, whose sign has been read. -/
def scanNumber (negative : Bool) (s : List Char) : Scanned Value :=
  let digits := match s with
    | '0' :: _ => ['0']
    | _ => s.takeWhile isDigit
  if digits.isEmpty then .error .malformed
  else
    let rest := s.drop digits.length
    let (decimals, rest) := fraction rest
    match exponent? rest, decimals with
    | none, [] =>
      if digits.length > digitLimit then .error .tooLong
      else
        let n : Int := Nat.ofDigitChars 10 digits 0
        .ok (.whole (if negative then -n else n), rest)
    | none, _ =>
      .ok (.fractional (nearest negative (Nat.ofDigitChars 10 (digits ++ decimals) 0) (-decimals.length)), rest)
    | some (e, rest), _ =>
      .ok (.fractional (nearest negative (Nat.ofDigitChars 10 (digits ++ decimals) 0) (e - decimals.length)), rest)

/-- What is left behind a given word. -/
def afterWord? (word : String) (s : List Char) : Option (List Char) :=
  if word.toList.isPrefixOf s then some (s.drop word.length) else none

/-- The words that stand for values. -/
def words : List (String × Value) :=
  [("null", .null), ("true", .bool true), ("false", .bool false), ("NaN", .fractional (0.0 / 0.0)),
    ("Infinity", .fractional (1.0 / 0.0)), ("-Infinity", .fractional (-1.0 / 0.0))]

/-- The value of the word at the front of a text. -/
def scanWord (s : List Char) : Option (Value × List Char) :=
  words.findSome? fun w => (afterWord? w.1 s).map fun rest => (w.2, rest)

mutual

/-- A value. The fuel bounds the number of steps. -/
def scanValue : Nat → List Char → Scanned Value
  | 0, _ => .error .malformed
  | fuel + 1, s =>
    match s with
    | [] => .error .malformed
    | '"' :: rest => (scanString (rest.length + 1) [] rest).map fun r => (.string r.1, r.2)
    | '[' :: rest =>
      match skipBlanks rest with
      | ']' :: rest => .ok (.array [], rest)
      | rest => scanItems fuel [] rest
    | '{' :: rest =>
      match skipBlanks rest with
      | '}' :: rest => .ok (.object [], rest)
      | rest => scanMembers fuel [] rest
    | c :: rest =>
      match scanWord s with
      | some r => .ok r
      | none => if c = '-' then scanNumber true rest else scanNumber false s

/-- The items of an array up to its end, added to those read so far, the last one first. -/
def scanItems : Nat → List Value → List Char → Scanned Value
  | 0, _, _ => .error .malformed
  | fuel + 1, acc, s =>
    match scanValue fuel s with
    | .error f => .error f
    | .ok (v, rest) =>
      match skipBlanks rest with
      | ',' :: rest => scanItems fuel (v :: acc) (skipBlanks rest)
      | ']' :: rest => .ok (.array (v :: acc).reverse, rest)
      | _ => .error .malformed

/-- The members of an object up to its end, added to those read so far. -/
def scanMembers : Nat → List (String × Value) → List Char → Scanned Value
  | 0, _, _ => .error .malformed
  | fuel + 1, acc, s =>
    match s with
    | '"' :: rest =>
      match scanString (rest.length + 1) [] rest with
      | .error f => .error f
      | .ok (name, rest) =>
        match skipBlanks rest with
        | ':' :: rest =>
          match scanValue fuel (skipBlanks rest) with
          | .error f => .error f
          | .ok (v, rest) =>
            let acc := Value.putMember name v acc
            match skipBlanks rest with
            | ',' :: rest => scanMembers fuel acc (skipBlanks rest)
            | '}' :: rest => .ok (.object acc, rest)
            | _ => .error .malformed
        | _ => .error .malformed
    | _ => .error .malformed

end

/-- The value that a text holds. -/
def read (text : String) : Except Fault Value :=
  let s := text.toList
  match scanValue (2 * s.length + 2) (skipBlanks s) with
  | .error f => .error f
  | .ok (v, rest) => if (skipBlanks rest).isEmpty then .ok v else .error .malformed

end IconForge.Json
