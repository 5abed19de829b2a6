import IconForge.Json.Value

/-!
# Calls of the service

What a request asks of a build, and what a response carries. Whoever reads the body of a request finds a build call in it, or says how to
respond to a body without one.
-/

namespace IconForge.Service

open Json

/-- What is asked of a build. -/
structure BuildCall where
  inputDir : String
  outputDir : String
  typescript : Bool
  pattern? : Option String
  naming? : Option String
  deriving Repr, DecidableEq

/-- What a response carries. -/
inductive Body where
  | json (v : Value)
  | text (s : String)

/-- A response. -/
structure Response where
  status : Nat
  body : Body

/-- A response that says one thing. -/
def detail (status : Nat) (v : Value) : Response := ⟨status, .json (.object [("detail", v)])⟩

/-- A way to read bodies. -/
abbrev Reader := String → Except Response BuildCall

end IconForge.Service
