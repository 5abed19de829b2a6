import IconForge.Xml.Document

/-!
# Parsing markup

A text is parsed into the tree of its root element, or refused with the cause and the place of the first fault.
-/

namespace IconForge.Markup

/-- Why a text is no markup. -/
inductive Malformed where
  | at (cause : Xml.Cause) (position : Xml.Position)
  /-- No element was reported. -/
  | empty
  deriving Repr, DecidableEq

/-- The wording of a refusal. -/
def Malformed.message : Malformed → String
  | .at cause position =>
    "Malformed markup: " ++ cause.message ++ ": line " ++ toString position.line ++ ", column " ++ toString position.column
  | .empty => "Markup contains no root element"

/-- The tree of a markup text. -/
def parse (markup : String) : Except Malformed Node :=
  let document := Xml.Source.ofString markup
  match Xml.events document with
  | .error f => .error (.at f.cause (f.position document.characters))
  | .ok events =>
    match Node.ofEvents? events with
    | some node => .ok node
    | none => .error .empty

end IconForge.Markup
