import IconForge.Path.Pattern
import IconForge.Proofs.Traverse

/-!
# Reading patterns

A pattern is not accepted exactly if it is absolute, has no part, or has two stars inside a longer part (`read_error_iff`). The names
among the segments of an accepted pattern are parts of it.
-/

namespace IconForge.Pattern

/-- Patterns that are not accepted: they start at the root, have no part, or have two stars in a row in a part that is not just these. -/
inductive Refused (pattern : String) : Prop where
  | absolute : (Path.ofString pattern).isAbsolute = true → Refused pattern
  | nowhere : (Path.ofString pattern).parts = [] → Refused pattern
  | doubleStar {part : String} : part ∈ (Path.ofString pattern).parts → part ≠ "**" → ['*', '*'] <:+: part.toList → Refused pattern

variable {pattern part name : String} {parts : List String} {segments : List Segment} {f : Fault}

/-- Two stars are found wherever they stand next to each other. -/
theorem hasDoubleStar_iff {s : List Char} : hasDoubleStar s = true ↔ ['*', '*'] <:+: s := by
  induction s with
  | nil => simp [hasDoubleStar]
  | cons c rest ih =>
    rw [List.infix_cons_iff, ← ih]
    constructor
    · intro h
      unfold hasDoubleStar at h
      split at h
      · rename_i heq
        obtain ⟨rfl, rfl⟩ := List.cons.inj heq
        exact .inl ⟨_, rfl⟩
      · rename_i heq
        obtain ⟨-, rfl⟩ := List.cons.inj heq
        exact .inr h
      · cases h
    · rintro (⟨tail, heq⟩ | h)
      · obtain ⟨rfl, rfl⟩ := List.cons.inj heq
        rfl
      · unfold hasDoubleStar
        split
        · rfl
        · rename_i heq
          obtain ⟨-, rfl⟩ := List.cons.inj heq
          exact h
        · contradiction

/-- A part is not accepted exactly if it has two stars among other characters. -/
theorem segment_error_iff : (∃ f, segment part = .error f) ↔ part ≠ "**" ∧ ['*', '*'] <:+: part.toList := by
  rw [← hasDoubleStar_iff]
  simp only [segment]
  split
  · simp [*]
  · split
    · simp [*]
    · split <;> simp [*]

/-- A part becomes a name only as it stands. -/
theorem eq_of_segment_name (h : segment part = .ok (.name name)) : part = name := by
  simp only [segment] at h
  split at h
  · cases h
  · split at h
    · cases h
    · split at h
      · cases h
      · cases h
        rfl

/-- A relative pattern with parts is read part by part. A slash at its end adds a segment that is no name. -/
theorem read_of_parts (habs : (Path.ofString pattern).isAbsolute = false) (hparts : (Path.ofString pattern).parts ≠ []) :
    ∃ last, (∀ name, .name name ∉ last) ∧ read pattern = ((Path.ofString pattern).parts.mapM segment).map (· ++ last) := by
  have hne : pattern ≠ "" := by
    rintro rfl
    exact hparts (by decide +kernel)
  refine ⟨if pattern.toList.getLast? = some '/' then [Segment.itself] else [], ?_, ?_⟩
  · intro name
    split <;> simp
  · obtain ⟨first, rest, heq⟩ := List.exists_cons_of_ne_nil hparts
    simp only [read, if_neg hne, habs, heq, Bool.false_eq_true, if_false]
    cases (first :: rest).mapM segment <;> rfl

/-- An absolute pattern is refused. -/
theorem read_of_isAbsolute (h : (Path.ofString pattern).isAbsolute = true) : ∃ f, read pattern = .error f := by
  unfold read
  by_cases hne : pattern = "" <;> simp [hne, h, throw, throwThe, MonadExceptOf.throw, bind, Except.bind]

/-- A pattern without parts is refused. -/
theorem read_of_nowhere (h : (Path.ofString pattern).parts = []) : ∃ f, read pattern = .error f := by
  unfold read
  by_cases hne : pattern = "" <;> cases habs : (Path.ofString pattern).isAbsolute <;>
    by_cases hslash : pattern.toList.getLast? = some '/' <;>
    simp [hne, habs, hslash, h, throw, throwThe, MonadExceptOf.throw, bind, Except.bind]

/-- A pattern is not accepted exactly if it is refused for its form. -/
theorem read_error_iff : (∃ f, read pattern = .error f) ↔ Refused pattern := by
  cases habs : (Path.ofString pattern).isAbsolute with
  | true => exact ⟨fun _ => .absolute habs, fun _ => read_of_isAbsolute habs⟩
  | false =>
    by_cases hparts : (Path.ofString pattern).parts = []
    · exact ⟨fun _ => .nowhere hparts, fun _ => read_of_nowhere hparts⟩
    · obtain ⟨last, -, hread⟩ := read_of_parts habs hparts
      have hmap : (∃ f, read pattern = .error f) ↔ ∃ f, (Path.ofString pattern).parts.mapM segment = .error f := by
        rw [hread]
        cases (Path.ofString pattern).parts.mapM segment <;> simp [Except.map]
      rw [hmap, mapM_error_iff]
      simp only [segment_error_iff]
      constructor
      · rintro ⟨part, hmem, hne, hstars⟩
        exact .doubleStar hmem hne hstars
      · rintro (h | h | ⟨hmem, hne, hstars⟩)
        · rw [habs] at h
          cases h
        · exact absurd h hparts
        · exact ⟨_, hmem, hne, hstars⟩

/-- The names that an accepted pattern goes by are parts of it. -/
theorem mem_parts_of_read (h : read pattern = .ok segments) (hname : .name name ∈ segments) : name ∈ (Path.ofString pattern).parts := by
  have haccepted : ¬Refused pattern := fun hrefused => by
    obtain ⟨f, hf⟩ := read_error_iff.mpr hrefused
    rw [h] at hf
    cases hf
  obtain ⟨last, hlast, hread⟩ := read_of_parts (Bool.eq_false_iff.mpr fun h => haccepted (.absolute h)) fun h => haccepted (.nowhere h)
  rw [h] at hread
  cases hfront : (Path.ofString pattern).parts.mapM segment with
  | error f =>
    rw [hfront] at hread
    cases hread
  | ok front =>
    rw [hfront] at hread
    cases hread
    rcases List.mem_append.mp hname with hmem | hmem
    · obtain ⟨part, hpart, hsegment⟩ := exists_of_mem_mapM hfront hmem
      exact eq_of_segment_name hsegment ▸ hpart
    · exact absurd hmem (hlast name)

end IconForge.Pattern
