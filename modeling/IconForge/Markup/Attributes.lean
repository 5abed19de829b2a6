/-!
# Ordered attributes

The attributes of an element keep the order in which their names first arrived. Writing a name that is there already changes its
value and moves nothing; a new name goes to the end.
-/

namespace IconForge.Markup

/-- The attributes of an element: names with values, in order. -/
abbrev Attributes := List (String × String)

namespace Attributes

/-- Writes a value: in place when the name is there, else at the end. -/
def put (name value : String) : Attributes → Attributes
  | [] => [(name, value)]
  | (n, v) :: rest => if n = name then (n, value) :: rest else (n, v) :: put name value rest

/-- The value of a name. -/
def get? (name : String) : Attributes → Option String
  | [] => none
  | (n, v) :: rest => if n = name then some v else get? name rest

/-- The attributes without a name. -/
def erase (name : String) (attrs : Attributes) : Attributes := attrs.filter fun a => a.1 != name

/-- Pairs written one after the other: the first arrival of a name fixes its place, the last one its value. -/
def ofPairs (pairs : List (String × String)) : Attributes :=
  pairs.foldl (fun attrs p => put p.1 p.2 attrs) []

/-- The names, in order. -/
def names (attrs : Attributes) : List String := attrs.map (·.1)

/-- What was written is read back. -/
theorem get?_put_self (name value : String) (attrs : Attributes) : get? name (put name value attrs) = some value := by
  induction attrs with
  | nil => simp [put, get?]
  | cons a rest ih =>
    obtain ⟨n, v⟩ := a
    by_cases h : n = name
    · simp [put, get?, h]
    · simp [put, get?, h, ih]

/-- Writing one name leaves every other name's value as it was. -/
theorem get?_put_of_ne {name other : String} (h : other ≠ name) (value : String) (attrs : Attributes) :
    get? other (put name value attrs) = get? other attrs := by
  induction attrs with
  | nil => simp [put, get?, Ne.symm h]
  | cons a rest ih =>
    obtain ⟨n, v⟩ := a
    by_cases hn : n = name
    · subst hn
      simp [put, get?, Ne.symm h]
    · by_cases ho : n = other
      · subst ho
        simp [put, get?, hn]
      · simp [put, get?, hn, ho, ih]

end Attributes

end IconForge.Markup
