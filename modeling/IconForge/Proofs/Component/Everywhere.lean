import IconForge.Markup.Node

/-!
# Properties at every depth

A property that a node has and that all nodes below it have.
-/

namespace IconForge.Component

open Markup

/-- A property of a node and of all nodes below it. -/
inductive Everywhere (p : Node → Prop) : Node → Prop
  | intro {node : Node} (here : p node) (below : ∀ child ∈ node.children, Everywhere p child) : Everywhere p node

variable {p q : Node → Prop} {node : Node}

/-- What every node has, a tree has everywhere. -/
theorem Everywhere.of_forall (h : ∀ node, p node) : ∀ node, Everywhere p node
  | ⟨_, _, children, _, _⟩ => .intro (h _) fun child (_ : child ∈ children) => of_forall h child

theorem Everywhere.imp (hpq : ∀ node, p node → q node) (h : Everywhere p node) : Everywhere q node := by
  induction h with
  | intro here _ ih => exact .intro (hpq _ here) ih

theorem Everywhere.and (hp : Everywhere p node) (hq : Everywhere q node) : Everywhere (fun n => p n ∧ q n) node := by
  induction hp with
  | intro here _ ih =>
    obtain ⟨here', below⟩ := hq
    exact .intro ⟨here, here'⟩ fun child hchild => ih child hchild (below child hchild)

end IconForge.Component
