/-!
# JSON values

The members of an object keep the order in which their names first arrived; a name that comes again changes its value.
-/

namespace IconForge.Json

/-- A JSON value. Numbers with a fraction or an exponent are kept apart from whole ones. -/
inductive Value where
  | null
  | bool (b : Bool)
  | whole (n : Int)
  | fractional (x : Float)
  | string (s : String)
  | array (items : List Value)
  | object (members : List (String × Value))
  deriving Repr, Inhabited

namespace Value

/-- Writes a member: in place when the name is there, else at the end. -/
def putMember (name : String) (value : Value) : List (String × Value) → List (String × Value)
  | [] => [(name, value)]
  | m :: rest => if m.1 = name then (name, value) :: rest else m :: putMember name value rest

/-- The member of a name; nothing if there is none or this is no object. -/
def get? (v : Value) (name : String) : Option Value :=
  match v with
  | object members => (members.find? (·.1 == name)).map (·.2)
  | _ => none

end Value

end IconForge.Json
