import IconForge.Markup.Attributes

/-!
# Markup trees

An element holds its attributes in order, the text before its first child, its children, and the text that follows its own end up
to the next sibling.
-/

namespace IconForge.Markup

/-- An element of a markup document. -/
structure Node where
  tag : String
  attributes : Attributes
  children : List Node
  text : String
  tail : String
  deriving Inhabited

end IconForge.Markup
