import Mathlib.Data.List.Basic

/-!
# Steps that may fail

A sequence of steps gives what its last step gives, or fails as the first one that fails does. So does going through a list when each item
can have a fault: the results come from the items, and so does the fault it stops at.
-/

namespace IconForge

variable {α β ε : Type} {g : α → Except ε β} {items : List α}

/-! ## Two steps -/

section
variable {m : Except ε α} {f : α → Except ε β} {e : ε} {b : β}

/-- A sequence gives an answer if both steps do. -/
theorem bind_eq_ok_iff : m >>= f = .ok b ↔ ∃ a, m = .ok a ∧ f a = .ok b := by cases m <;> simp [bind, Except.bind]

/-- A sequence fails if its first step does, or else the second one. -/
theorem bind_eq_error_iff : m >>= f = .error e ↔ m = .error e ∨ ∃ a, m = .ok a ∧ f a = .error e := by
  cases m <;> simp [bind, Except.bind]

theorem map_eq_ok_iff {f : α → β} : m.map f = .ok b ↔ ∃ a, m = .ok a ∧ f a = b := by cases m <;> simp [Except.map]

theorem map_eq_error_iff {f : α → β} : m.map f = .error e ↔ m = .error e := by cases m <;> simp [Except.map]

end

/-! ## All items of a list -/

/-- Going through a list stops at an item that has a fault. -/
theorem mapM_error_iff : (∃ f, items.mapM g = .error f) ↔ ∃ x ∈ items, ∃ f, g x = .error f := by
  induction items with
  | nil => simp [pure, Except.pure]
  | cons x rest ih =>
    simp only [List.mapM_cons, List.mem_cons, exists_eq_or_imp, ← ih]
    cases g x with
    | error f => simp [bind, Except.bind]
    | ok b => cases rest.mapM g <;> simp [bind, Except.bind, pure, Except.pure]

/-- The fault that going through a list stops at is that of an item. -/
theorem exists_of_mapM_error {f : ε} (h : items.mapM g = .error f) : ∃ x ∈ items, g x = .error f := by
  induction items with
  | nil => cases h
  | cons x rest ih =>
    rw [List.mapM_cons] at h
    cases hx : g x with
    | error f' =>
      rw [hx] at h
      cases h
      exact ⟨x, List.mem_cons_self, hx⟩
    | ok b =>
      cases hrest : rest.mapM g with
      | error f' =>
        rw [hx, hrest] at h
        cases h
        obtain ⟨y, hy, hfault⟩ := ih hrest
        exact ⟨y, List.mem_cons_of_mem _ hy, hfault⟩
      | ok bs =>
        rw [hx, hrest] at h
        cases h

/-- What going through a list gives comes from its items. -/
theorem exists_of_mem_mapM {results : List β} {b : β} (h : items.mapM g = .ok results) (hb : b ∈ results) :
    ∃ x ∈ items, g x = .ok b := by
  induction items generalizing results with
  | nil =>
    cases h
    cases hb
  | cons x rest ih =>
    rw [List.mapM_cons] at h
    cases hx : g x with
    | error f =>
      rw [hx] at h
      cases h
    | ok first =>
      cases hrest : rest.mapM g with
      | error f =>
        rw [hx, hrest] at h
        cases h
      | ok more =>
        rw [hx, hrest] at h
        cases h
        rcases List.mem_cons.mp hb with rfl | hmore
        · exact ⟨x, List.mem_cons_self, hx⟩
        · obtain ⟨y, hy, hresult⟩ := ih hrest hmore
          exact ⟨y, List.mem_cons_of_mem _ hy, hresult⟩

end IconForge
