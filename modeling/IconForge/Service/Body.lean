import IconForge.Decimal.Shortest
import IconForge.Json.Read
import IconForge.Service.Call

/-!
# The body of a build request

A build request is a JSON object. Its members are checked one after the other, and all that is wrong with them is found at once. A truth
value may also be written as a word or as one of two numbers.
-/

namespace IconForge.Service

open Json

/-- What can be wrong with a part of a body. -/
inductive Problem where
  | malformed
  | missing
  | notObject
  | notText
  | notTruthValue
  /-- It is of a kind that may hold a truth value, but it holds none. -/
  | unreadableTruthValue
  deriving Repr, DecidableEq

/-- The name of a problem. -/
def Problem.name : Problem → String
  | malformed => "json_invalid"
  | missing => "missing"
  | notObject => "model_attributes_type"
  | notText => "string_type"
  | notTruthValue => "bool_type"
  | unreadableTruthValue => "bool_parsing"

/-- A problem and where it lies: in the whole body, or in a member of it. -/
structure Finding where
  member? : Option String
  problem : Problem
  deriving Repr, DecidableEq

/-- The words for truth values, in small letters. -/
def truthWords : List (String × Bool) :=
  [("0", false), ("off", false), ("f", false), ("false", false), ("n", false), ("no", false),
    ("1", true), ("on", true), ("t", true), ("true", true), ("y", true), ("yes", true)]

/-- The whole number that a number is. -/
def wholeOf? (x : Float) : Option Nat :=
  match Decimal.shape x with
  | .zero _ => some 0
  | .finite _ i => if i.value % i.denominator = 0 then some (i.value / i.denominator) else none
  | _ => none

/-- The truth value of a whole number: zero and one have one. -/
def readWhole (n : Int) : Except Problem Bool :=
  if n = 0 then .ok false else if n = 1 then .ok true else .error .unreadableTruthValue

/-- The truth value that a JSON value holds. Numbers beyond those with a binary form hold none. -/
def readTruthValue : Value → Except Problem Bool
  | .bool b => .ok b
  | .string s =>
    match truthWords.lookup (String.ofList (s.toList.map Char.toLower)) with
    | some b => .ok b
    | none => .error .unreadableTruthValue
  | .whole n => if (Decimal.nearest false n.natAbs 0).isInf then .error .notTruthValue else readWhole n
  | .fractional x =>
    match wholeOf? x with
    | some n => readWhole (if x < 0.0 then -n else n)
    | none => .error .notTruthValue
  | _ => .error .notTruthValue

/-- The text that a JSON value holds. -/
def readText : Value → Except Problem String
  | .string s => .ok s
  | _ => .error .notText

/-- A member that must be there. -/
def required {α : Type} (read : Value → Except Problem α) : Option Value → Except Problem α
  | some v => read v
  | none => .error .missing

/-- A member that may be left out, or be nothing. -/
def optional {α : Type} (read : Value → Except Problem α) : Option Value → Except Problem (Option α)
  | none | some .null => .ok none
  | some v => (read v).map some

/-- A member that has a default. -/
def withDefault {α : Type} (default : α) (read : Value → Except Problem α) : Option Value → Except Problem α
  | none => .ok default
  | some v => read v

/-- What is wrong with a member. -/
def finding {α : Type} (name : String) : Except Problem α → List Finding
  | .ok _ => []
  | .error p => [⟨some name, p⟩]

/-- The build that an object asks for, or all that is wrong with the object. -/
def readMembers (body : Value) : Except (List Finding) BuildCall :=
  let input := required readText (body.get? "input_dir")
  let output := required readText (body.get? "output_dir")
  let typescript := withDefault false readTruthValue (body.get? "typescript")
  let pattern := optional readText (body.get? "pattern")
  let naming := optional readText (body.get? "naming")
  match input, output, typescript, pattern, naming with
  | .ok inputDir, .ok outputDir, .ok typescript, .ok pattern?, .ok naming? =>
    .ok { inputDir, outputDir, typescript, pattern?, naming? }
  | _, _, _, _, _ =>
    .error (finding "input_dir" input ++ finding "output_dir" output ++ finding "typescript" typescript ++ finding "pattern" pattern
      ++ finding "naming" naming)

/-- Why there is no build call in a body. -/
inductive BodyError where
  | invalid (findings : List Finding)
  /-- The body cannot be parsed, though it may be well formed. -/
  | unparsed
  deriving Repr, DecidableEq

/-- A text without the mark of its byte order. -/
def withoutMark (text : String) : String :=
  match text.toList with
  | c :: rest => if c.toNat = 0xFEFF then String.ofList rest else text
  | [] => text

/-- The build that a body asks for. -/
def readBody (body : String) : Except BodyError BuildCall :=
  if body = "" then .error (.invalid [⟨none, .missing⟩])
  else match Json.read (withoutMark body) with
    | .error .malformed => .error (.invalid [⟨none, .malformed⟩])
    | .error .tooLong => .error .unparsed
    | .ok (.object members) => (readMembers (.object members)).mapError .invalid
    | .ok _ => .error (.invalid [⟨none, .notObject⟩])

/-- A finding as the response shows it. -/
def Finding.json (f : Finding) : Value :=
  .object [("type", .string f.problem.name), ("loc", .array ((["body"] ++ f.member?.toList).map .string))]

/-- The response to a body without a build call. -/
def refusal : BodyError → Response
  | .invalid findings => detail 422 (.array (findings.map Finding.json))
  | .unparsed => detail 400 (.string "There was an error parsing the body")

/-- Reads bodies as JSON. -/
def reader : Reader := fun body => (readBody body).mapError refusal

end IconForge.Service
