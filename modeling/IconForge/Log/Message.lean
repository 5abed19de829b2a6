import IconForge.Decimal.Nearest
import IconForge.Decimal.Rounded
import IconForge.Json.Value
import IconForge.Text.Cut
import IconForge.Text.Diagnostic
import IconForge.Text.Digit

/-!
# Messages with arguments

A message may hold places for arguments: a percent sign, perhaps the name of an argument, flags, a width, a precision, and a letter that
says how the argument is shown. Arguments fill the places in order; a single argument with named parts fills places by name.
-/

namespace IconForge.Log

open Json Text

/-- An argument. -/
abbrev Argument := Value

mutual

/-- An argument as it is written in a program. -/
def written : Argument → String
  | .null => "None"
  | .bool true => "True"
  | .bool false => "False"
  | .whole n => toString n
  | .fractional x => Decimal.settingsNotation.text x
  | .string s => shown s
  | .array items => "[" ++ Text.joined ", " (writtenItems items) ++ "]"
  | .object members => Text.braced (Text.joined ", " (writtenMembers members))

/-- The items of a list as they are written. -/
def writtenItems : List Argument → List String
  | [] => []
  | item :: rest => written item :: writtenItems rest

/-- Named parts as they are written. -/
def writtenMembers : List (String × Argument) → List String
  | [] => []
  | (name, value) :: rest => (shown name ++ ": " ++ written value) :: writtenMembers rest

end

/-- An argument as plain text. -/
def plainText : Argument → String
  | .string s => s
  | a => written a

/-- A text in ASCII, with other characters by their code points. -/
def inAscii (s : String) : String :=
  String.ofList (s.toList.flatMap fun c =>
    if c.toNat < 128 then [c]
    else if c.toNat < 0x100 then '\\' :: 'x' :: hexDigits 2 c.toNat
    else if c.toNat < 0x10000 then '\\' :: 'u' :: hexDigits 4 c.toNat
    else '\\' :: 'U' :: hexDigits 8 c.toNat)

/-- A place for an argument. -/
structure Field where
  flags : List Char
  width : Nat
  precision? : Option Nat
  letter : Char
  deriving Repr, DecidableEq

namespace Field

/-- A flag is set. -/
def has (f : Field) (flag : Char) : Bool := f.flags.contains flag

/-- The sign of a number. -/
def sign (f : Field) (negative : Bool) : List Char :=
  if negative then ['-'] else if f.has '+' then ['+'] else if f.has ' ' then [' '] else []

/-- A text filled up to the width of the place. -/
def padded (f : Field) (s : List Char) : List Char :=
  let blanks := List.replicate (f.width - s.length) ' '
  if f.has '-' then s ++ blanks else blanks ++ s

/-- A number filled up to the width of the place, with zeros behind its sign if the place asks for them. -/
def paddedNumber (f : Field) (sign digits : List Char) : List Char :=
  if f.has '0' && !f.has '-' then sign ++ List.replicate (f.width - sign.length - digits.length) '0' ++ digits
  else f.padded (sign ++ digits)

/-- A text in its place. -/
def text (f : Field) (s : String) : List Char :=
  f.padded (match f.precision? with
    | some n => s.toList.take n
    | none => s.toList)

/-- A whole number in its place, in a base whose digits may have a mark. -/
def whole (f : Field) (base : Nat) (mark : List Char) (n : Int) : List Char :=
  let digits := Nat.toDigits base n.natAbs
  let digits := List.replicate (f.precision?.getD 0 - digits.length) '0' ++ digits
  f.paddedNumber (f.sign (n < 0) ++ if f.has '#' then mark else []) digits

/-- A number in its place. -/
def number (f : Field) (x : Float) : List Char :=
  let precision := f.precision?.getD 6
  let write (negative : Bool) (numerator denominator : Nat) : List Char :=
    f.paddedNumber (f.sign negative) (match f.letter.toLower with
      | 'f' => Decimal.fixed numerator denominator precision
      | 'e' => Decimal.scientific numerator denominator precision
      | _ => Decimal.general numerator denominator precision)
  match Decimal.shape x with
  | .notANumber => f.padded (f.sign false ++ "nan".toList)
  | .infinite negative => f.padded (f.sign negative ++ "inf".toList)
  | .zero negative => write negative 0 1
  | .finite negative i => write negative i.value i.denominator

/-- The whole number that an argument is; what lies behind the point is cut off. -/
def whole? (cuts : Bool) : Argument → Option Int
  | .whole n => some n
  | .bool b => some (if b then 1 else 0)
  | .fractional x =>
    if !cuts then none
    else match Decimal.shape x with
      | .zero _ => some 0
      | .finite negative i =>
        let n : Int := i.value / i.denominator
        some (if negative then -n else n)
      | _ => none
  | _ => none

/-- The number that an argument is. -/
def number? : Argument → Option Float
  | .fractional x => some x
  | a => (whole? false a).map fun n => Decimal.nearest (n < 0) n.natAbs 0

/-- The character that an argument is. -/
def character? : Argument → Option String
  | .string s => if s.length = 1 then some s else none
  | a => (whole? false a).bind fun n =>
    if n < 0 then none else if Nat.isValidChar n.toNat then some (String.singleton (Char.ofNat n.toNat)) else none

/-- A text in capital letters if the place asks for them. -/
def capital (f : Field) (s : List Char) : List Char := if f.letter.isUpper then s.map Char.toUpper else s

/-- An argument in its place; nothing if it does not fit. -/
def fill? (f : Field) (a : Argument) : Option (List Char) :=
  match f.letter with
  | 's' => some (f.text (plainText a))
  | 'r' => some (f.text (written a))
  | 'a' => some (f.text (inAscii (written a)))
  | 'c' => (character? a).map fun s => f.padded s.toList
  | 'd' | 'i' | 'u' => (whole? true a).map (f.whole 10 [])
  | 'o' => (whole? false a).map (f.whole 8 ['0', 'o'])
  | 'x' | 'X' => (whole? false a).map fun n => f.capital (f.whole 16 ['0', 'x'] n)
  | 'f' | 'F' | 'e' | 'E' | 'g' | 'G' => (number? a).map fun x => f.capital (f.number x)
  | _ => none

end Field

/-- What is left to fill a message with: arguments in order, and parts by name. -/
structure Supply where
  rest : List Argument
  named? : Option (List (String × Argument))

/-- The arguments of a message. One that has named parts is used by their names too. -/
def Supply.of (args : List Argument) : Supply :=
  match args with
  | [.object members] => if members.isEmpty then ⟨args, none⟩ else ⟨args, some members⟩
  | _ => ⟨args, none⟩

/-- A width or a precision: digits, or a star for the next argument. -/
def readSize (s : List Char) (supply : Supply) : Option ((Option Int × List Char) × Supply) :=
  match s with
  | '*' :: s =>
    match supply.rest with
    | .whole n :: rest => some ((some n, s), { supply with rest })
    | _ => none
  | _ =>
    let digits := s.takeWhile isDigit
    some ((if digits.isEmpty then none else some (Nat.ofDigitChars 10 digits 0 : Nat), s.drop digits.length), supply)

/-- A place behind its percent sign and its name. -/
def readField (s : List Char) (supply : Supply) : Option ((Field × List Char) × Supply) := do
  let flags := s.takeWhile fun c => "#0- +".toList.contains c
  let ((width?, s), supply) ← readSize (s.drop flags.length) supply
  let width := width?.getD 0
  let flags := if width < 0 then '-' :: flags else flags
  let ((precision?, s), supply) ← match s with
    | '.' :: s => (readSize s supply).map fun r => ((some (r.1.1.getD 0), r.1.2), r.2)
    | s => some ((none, s), supply)
  let s := match s with
    | c :: rest => if c = 'h' || c = 'l' || c = 'L' then rest else c :: rest
    | [] => []
  match s with
  | letter :: rest => some ((⟨flags, width.natAbs, precision?.map Int.toNat, letter⟩, rest), supply)
  | [] => none

/-- The name of an argument in round brackets, from behind the opening one. Brackets inside it come in pairs. -/
def readName : Nat → List Char → Option (List Char × List Char)
  | _, [] => none
  | 0, ')' :: rest => some ([], rest)
  | depth + 1, ')' :: rest => (readName depth rest).map fun r => (')' :: r.1, r.2)
  | depth, '(' :: rest => (readName (depth + 1) rest).map fun r => ('(' :: r.1, r.2)
  | depth, c :: rest => (readName depth rest).map fun r => (c :: r.1, r.2)

/-- A place filled, from behind its percent sign: the text, and what follows the place. -/
def fillPlace (s : List Char) (supply : Supply) : Option ((List Char × List Char) × Supply) := do
  match s with
  | '(' :: s =>
    let members ← supply.named?
    let (name, s) ← readName 0 s
    let ((field, s), _) ← readField s supply
    if field.letter = '%' then some ((['%'], s), supply)
    else
      let a ← members.lookup (String.ofList name)
      some ((← field.fill? a, s), supply)
  | _ =>
    let ((field, s), supply) ← readField s supply
    if field.letter = '%' then some ((['%'], s), supply)
    else match supply.rest with
      | a :: rest => some ((← field.fill? a, s), { supply with rest })
      | [] => none

/-- The text of a message from some place on. -/
def fillAll : Nat → List Char → Supply → Option (List Char)
  | 0, _, _ => none
  | _ + 1, [], supply => if supply.rest.isEmpty || supply.named?.isSome then some [] else none
  | fuel + 1, c :: rest, supply =>
    if c = '%' then do
      let ((text, rest), supply) ← fillPlace rest supply
      (fillAll fuel rest supply).map (text ++ ·)
    else (fillAll fuel rest supply).map (c :: ·)

/-- A message with its arguments in place; nothing if they do not fit. Without arguments percent signs stand for themselves. -/
def message? (template : String) (args : List Argument) : Option String :=
  if args.isEmpty then some template
  else (fillAll (template.length + 1) template.toList (Supply.of args)).map String.ofList

end IconForge.Log
