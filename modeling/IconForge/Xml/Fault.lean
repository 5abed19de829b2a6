/-!
# Faults of a document

A fault is a cause together with the input that was left where it was found; line and column follow from how much of the document
lies before that point.
-/

namespace IconForge.Xml

/-- Why a document is not well formed. -/
inductive Cause where
  | syntaxError
  | noElement
  | invalidToken
  | unclosedToken
  | partialCharacter
  | tagMismatch
  | duplicateAttribute
  | junkAfterDocument
  | parameterEntity
  | undefinedEntity
  | recursiveEntity
  | asynchronousEntity
  | badCharReference
  | binaryEntity
  | externalEntityInAttribute
  | misplacedDeclaration
  | unclosedCdata
  | malformedDeclaration
  | badPublicId
  deriving Repr, DecidableEq

/-- The wording of a cause. -/
def Cause.message : Cause → String
  | .syntaxError => "syntax error"
  | .noElement => "no element found"
  | .invalidToken => "not well-formed (invalid token)"
  | .unclosedToken => "unclosed token"
  | .partialCharacter => "partial character"
  | .tagMismatch => "mismatched tag"
  | .duplicateAttribute => "duplicate attribute"
  | .junkAfterDocument => "junk after document element"
  | .parameterEntity => "illegal parameter entity reference"
  | .undefinedEntity => "undefined entity"
  | .recursiveEntity => "recursive entity reference"
  | .asynchronousEntity => "asynchronous entity"
  | .badCharReference => "reference to invalid character number"
  | .binaryEntity => "reference to binary entity"
  | .externalEntityInAttribute => "reference to external entity in attribute"
  | .misplacedDeclaration => "XML or text declaration not at start of entity"
  | .unclosedCdata => "unclosed CDATA section"
  | .malformedDeclaration => "XML declaration not well-formed"
  | .badPublicId => "illegal character(s) in public id"

/-- A cause with the input that is left where it was found. -/
structure Fault where
  cause : Cause
  rest : List Char

/-- A place in a document: lines count from one, columns from zero. -/
structure Position where
  line : Nat
  column : Nat
  deriving Repr, DecidableEq

/-- The place after some text: a line feed, a carriage return and the pair of both each end a line. -/
def Position.after : Position → List Char → Position
  | p, [] => p
  | p, '\r' :: '\n' :: rest => Position.after ⟨p.line + 1, 0⟩ rest
  | p, c :: rest =>
    if c = '\n' || c = '\r' then Position.after ⟨p.line + 1, 0⟩ rest
    else Position.after ⟨p.line, p.column + 1⟩ rest

/-- Where a fault lies in the document it was found in. -/
def Fault.position (document : List Char) (f : Fault) : Position :=
  Position.after ⟨1, 0⟩ (document.take (document.length - f.rest.length))

end IconForge.Xml
