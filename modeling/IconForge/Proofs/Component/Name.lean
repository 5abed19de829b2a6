import IconForge.Proofs.Component.Inert

/-!
# Usable names

A name is usable when it is a plain name, or one with a line feed behind it, and no reserved word (`isUsable_iff`). With the
line feed the name of a reserved word is usable too.
-/

namespace IconForge.Component

open Text

/-- What may begin a name may stand in one. -/
theorem isIdentifierChar_of_start {c : Char} (h : isIdentifierStart c = true) : isIdentifierChar c = true := by
  simp only [isIdentifierStart, isIdentifierChar, Char.isAlphanum, Bool.or_eq_true] at h ⊢
  rcases h with (h | h) | h
  · exact .inl (.inl (.inl h))
  · exact .inl (.inr h)
  · exact .inr h

namespace IsPlainName

variable {bare : List Char}

/-- A plain name goes on like an identifier from its first character. -/
theorem isIdentifierChar (h : IsPlainName bare) : ∀ c ∈ bare, isIdentifierChar c = true := by
  obtain ⟨c, rest, rfl, hc, hrest⟩ := h
  intro d hd
  rcases List.mem_cons.mp hd with rfl | hd
  · exact isIdentifierChar_of_start hc
  · exact hrest d hd

/-- A character that names do not have is in no plain name. -/
theorem not_mem (h : IsPlainName bare) {c : Char} (hc : Component.isIdentifierChar c = false) : c ∉ bare := by
  intro hmem
  rw [h.isIdentifierChar c hmem] at hc
  cases hc

end IsPlainName

/-- A plain name with a line feed behind it, or without one. -/
def HasNameForm (s : List Char) : Prop := ∃ bare, IsPlainName bare ∧ (s = bare ∨ s = bare ++ ['\n'])

/-- The check of a name accepts what has the form of a name, with a line feed at its end allowed. -/
theorem hasIdentifierForm_iff (s : List Char) : hasIdentifierForm s = true ↔ HasNameForm s := by
  constructor
  · cases s with
    | nil => exact nofun
    | cons c rest =>
      intro h
      obtain ⟨hc, hrest⟩ := Bool.and_eq_true_iff.mp h
      have htake : ∀ d ∈ rest.takeWhile isIdentifierChar, isIdentifierChar d = true :=
        fun d hd => List.all_eq_true.mp List.all_takeWhile d hd
      have hsplit := List.takeWhile_append_dropWhile (p := isIdentifierChar) (l := rest)
      refine ⟨c :: rest.takeWhile isIdentifierChar, ⟨c, _, rfl, hc, htake⟩, ?_⟩
      split at hrest
      · rename_i hd
        rw [hd, List.append_nil] at hsplit
        exact .inl (by rw [hsplit])
      · rename_i hd
        rw [hd] at hsplit
        exact .inr (by rw [List.cons_append, hsplit])
      · cases hrest
  · rintro ⟨bare, ⟨c, rest, rfl, hc, hrest⟩, rfl | rfl⟩
    · simp [hasIdentifierForm, hc, (takeWhile_of_all hrest).2]
    · have hbreak := (takeWhile_append_cons hrest (c := '\n') (by decide) []).2
      simp [hasIdentifierForm, hc, hbreak]

/-- A usable name is a plain name with a line feed behind it at most, and no reserved word. -/
theorem isUsable_iff (name : String) : isUsable name = true ↔ HasNameForm name.toList ∧ name ∉ reservedWords := by
  rw [isUsable, Bool.and_eq_true, hasIdentifierForm_iff]
  simp

-- The reserved words are looked up with the line feed, which no reserved word has.
example : isUsable "class\n" = true := by decide

end IconForge.Component
