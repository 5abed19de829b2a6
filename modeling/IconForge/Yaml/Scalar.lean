import IconForge.Decimal.Reading
import IconForge.Text.Base64
import IconForge.Text.Lower
import IconForge.Yaml.Tag

/-!
# Values of scalars

A tag decides how the text of a scalar is read. A tag that was written out may not fit the text; then the value has a fault of its own
kind.
-/

namespace IconForge.Yaml

open Text

namespace Scalar

/-- The truth values of words in small letters. -/
def boolValues : List (String × Bool) :=
  [("yes", true), ("no", false), ("true", true), ("false", false), ("on", true), ("off", false)]

/-- The truth value that a text names in letters of either case. -/
def readBool (s : List Char) : Except Fault Bool :=
  let word := String.ofList (lower s)
  match boolValues.lookup word with
  | some b => .ok b
  | none => .error (.kind .key (shown word))

/-- A whole number in a base. -/
def readInBase (base : Nat) (s : List Char) : Except Fault Int :=
  match readWhole base s with
  | .ok n => .ok n
  | .error f => .error (.kind .value (f.message base (String.ofList s)))

/-- The fault of a text that has no first character. -/
def nothingThere : Fault := .kind .range "string index out of range"

/-- The number that places in a base of sixty denote. -/
def ofSixtieths (places : List Int) : Int := places.foldl (fun n d => n * 60 + d) 0

/-- A whole number without its sign. -/
def readUnsigned (s : List Char) : Except Fault Int :=
  match s with
  | [] => .error nothingThere
  | ['0'] => .ok 0
  | '0' :: 'b' :: digits => readInBase 2 digits
  | '0' :: 'x' :: digits => readInBase 16 digits
  | '0' :: _ => readInBase 8 s
  | _ => if s.contains ':' then ((cut ':' s).mapM (readInBase 10)).map ofSixtieths else readInBase 10 s

/-- The whole number of a scalar: binary, octal, hexadecimal, decimal or in base sixty; underscores do not count. -/
def readInt (s : List Char) : Except Fault Int :=
  let s := s.filter (· != '_')
  if s.isEmpty then .error nothingThere
  else
    let (negative, s) := splitSign s
    (readUnsigned s).map fun n => if negative then -n else n

/-- A number in decimal. -/
def readDecimal (s : List Char) : Except Fault Float :=
  match Decimal.readNumber s with
  | some x => .ok x
  | none => .error (.kind .value ("could not convert string to float: " ++ shown (String.ofList s)))

/-- The sum of places in base sixty, the last one first, of which the first has the given weight. -/
def sumSixtieths : Nat → Float → List Float → Except Fault Float
  | _, sum, [] => .ok sum
  | weight, sum, d :: rest =>
    let w := Decimal.nearest false weight 0
    if w.isInf then .error (.kind .overflow "int too large to convert to float") else sumSixtieths (weight * 60) (sum + d * w) rest

/-- A number without its sign. -/
def readUnsignedNumber (s : List Char) : Except Fault Float :=
  if s = ".inf".toList then .ok (1.0 / 0.0)
  else if s = ".nan".toList then .ok (0.0 / 0.0)
  else if s.contains ':' then ((cut ':' s).mapM readDecimal).bind fun places => sumSixtieths 1 0.0 places.reverse
  else readDecimal s

/-- The number of a scalar, in letters of either case; underscores do not count. -/
def readNumber (s : List Char) : Except Fault Float :=
  let s := lower (s.filter (· != '_'))
  if s.isEmpty then .error nothingThere
  else
    let (negative, s) := splitSign s
    (readUnsignedNumber s).map fun x => if negative then -x else x

/-- The bytes that a scalar writes in base 64. -/
def readBytes (s : List Char) : Except Fault (List UInt8) :=
  if s.all fun c => decide (c.toNat < 128) then
    match Base64.decode s with
    | some b => .ok b
    | none => .error .malformed
  else .error .malformed

/-- The point in time of a scalar. -/
def readTimestamp (s : List Char) : Except Fault Timestamp :=
  match Timestamp.read? (if s.getLast? = some '\n' then s.dropLast else s) with
  | none => .error (.kind .attribute "'NoneType' object has no attribute 'groupdict'")
  | some t =>
    match t.fault? with
    | some message => .error (.kind .value message)
    | none => .ok t

/-- The value of a text under a tag, if the tag is one of scalars. -/
def ofText (tag : Tag) (s : List Char) : Except Fault Scalar :=
  match tag with
  | .null => .ok .null
  | .bool => (readBool s).map .bool
  | .whole => (readInt s).map .whole
  | .number => (readNumber s).map .number
  | .binary => (readBytes s).map .bytes
  | .timestamp => (readTimestamp s).map .timestamp
  | .text => .ok (.text (String.ofList s))
  | _ => .error .malformed

end Scalar

end IconForge.Yaml
