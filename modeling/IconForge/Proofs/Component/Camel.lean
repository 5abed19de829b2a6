import IconForge.Component.Property

/-!
# Camel case

What dropping separators and raising what follows them leaves of a name: no separator (`isSeparator_of_mem_camelFrom`), and the whole
name if it has none (`camelFrom_of_unseparated`). A word of small letters is only left of itself and of itself with separators behind
it (`camelFrom_eq_iff`), since what stands behind a separator is raised.
-/

namespace IconForge.Component

theorem isLower_iff {c : Char} : c.isLower = true ↔ 97 ≤ c.val.toNat ∧ c.val.toNat ≤ 122 := by
  have h : c.isLower = (decide (c.val ≥ 'a'.val) && decide (c.val ≤ 'z'.val)) := rfl
  simp [h, UInt32.le_iff_toNat_le]

theorem isUpper_iff {c : Char} : c.isUpper = true ↔ 65 ≤ c.val.toNat ∧ c.val.toNat ≤ 90 := by
  have h : c.isUpper = decide (c.val ≥ 'A'.val ∧ c.val ≤ 'Z'.val) := rfl
  simp [h, UInt32.le_iff_toNat_le]

theorem isAlpha_iff {c : Char} : c.isAlpha = true ↔ c.isUpper = true ∨ c.isLower = true := by
  have h : c.isAlpha = (c.isUpper || c.isLower) := rfl
  rw [h, Bool.or_eq_true]

/-- Only small letters have a raised form, which is a capital letter. -/
theorem toUpper_cases (c : Char) :
    (c.isLower = true ∧ c.toUpper.isUpper = true) ∨ (c.isLower = false ∧ c.toUpper = c) := by
  unfold Char.toUpper
  split
  case isTrue h =>
    have hrange : 97 ≤ c.val.toNat ∧ c.val.toNat ≤ 122 := by simpa [UInt32.le_iff_toNat_le] using h
    refine .inl ⟨isLower_iff.mpr hrange, isUpper_iff.mpr ?_⟩
    simp only [UInt32.toNat_add, Char.reduceVal, UInt32.reduceSub, UInt32.reduceToNat]
    omega
  case isFalse h =>
    have hrange : ¬(97 ≤ c.val.toNat ∧ c.val.toNat ≤ 122) := by simpa [UInt32.le_iff_toNat_le] using h
    exact .inr ⟨Bool.eq_false_iff.mpr fun hlower => hrange (isLower_iff.mp hlower), rfl⟩

/-- A capital letter is no small one. -/
theorem isLower_of_isUpper {c : Char} (h : c.isUpper = true) : c.isLower = false := by
  have hrange := isUpper_iff.mp h
  rw [Bool.eq_false_iff, ne_eq, isLower_iff]
  omega

theorem isLower_toUpper (c : Char) : c.toUpper.isLower = false := by
  rcases toUpper_cases c with ⟨-, hupper⟩ | ⟨hlower, hsame⟩
  · exact isLower_of_isUpper hupper
  · rw [hsame, hlower]

theorem isAlpha_toUpper {c : Char} (h : c.isAlpha = true) : c.toUpper.isAlpha = true := by
  rcases toUpper_cases c with ⟨-, hupper⟩ | ⟨-, hsame⟩
  · exact isAlpha_iff.mpr (.inl hupper)
  · rwa [hsame]

theorem isSeparator_iff {c : Char} : isSeparator c = true ↔ c = '-' ∨ c = ':' := by simp [isSeparator]

theorem isSeparator_of_isAlpha {c : Char} (h : c.isAlpha = true) : isSeparator c = false := by
  rw [Bool.eq_false_iff, ne_eq, isSeparator_iff]
  rintro (rfl | rfl) <;> exact absurd h (by decide)

theorem isSeparator_of_isLower {c : Char} (h : c.isLower = true) : isSeparator c = false :=
  isSeparator_of_isAlpha (isAlpha_iff.mpr (.inr h))

theorem isSeparator_toUpper {c : Char} (h : isSeparator c = false) : isSeparator c.toUpper = false := by
  rcases toUpper_cases c with ⟨-, hupper⟩ | ⟨-, hsame⟩
  · exact isSeparator_of_isAlpha (isAlpha_iff.mpr (.inl hupper))
  · rwa [hsame]

/-- The characters that are left stand between the separators, as they are or raised. -/
theorem exists_of_mem_camelFrom {raised : Bool} {s : List Char} {c : Char} (h : c ∈ camelFrom raised s) :
    ∃ d ∈ s, isSeparator d = false ∧ (c = d ∨ c = d.toUpper) := by
  induction s generalizing raised with
  | nil => cases h
  | cons d s ih =>
    unfold camelFrom at h
    split at h
    case isTrue =>
      obtain ⟨e, he, hc⟩ := ih h
      exact ⟨e, List.mem_cons_of_mem _ he, hc⟩
    case isFalse hd =>
      rcases List.mem_cons.mp h with rfl | h
      · refine ⟨d, List.mem_cons_self, by simpa using hd, ?_⟩
        cases raised with
        | true => exact .inr rfl
        | false => exact .inl rfl
      · obtain ⟨e, he, hc⟩ := ih h
        exact ⟨e, List.mem_cons_of_mem _ he, hc⟩

/-- No separator is left in a name in camel case. -/
theorem isSeparator_of_mem_camelFrom {raised : Bool} {s : List Char} {c : Char} (h : c ∈ camelFrom raised s) :
    isSeparator c = false := by
  obtain ⟨d, -, hd, rfl | rfl⟩ := exists_of_mem_camelFrom h
  · exact hd
  · exact isSeparator_toUpper hd

/-- A name that is not made of separators alone leaves something in camel case. -/
theorem camelFrom_ne_nil {s : List Char} (h : ∃ c ∈ s, isSeparator c = false) (raised : Bool) : camelFrom raised s ≠ [] := by
  induction s generalizing raised with
  | nil =>
    obtain ⟨c, hc, -⟩ := h
    cases hc
  | cons d s ih =>
    unfold camelFrom
    split
    case isTrue hd =>
      obtain ⟨c, hc, hseparator⟩ := h
      rcases List.mem_cons.mp hc with rfl | hc
      · rw [hd] at hseparator
        cases hseparator
      · exact ih ⟨c, hc, hseparator⟩ true
    case isFalse => exact List.cons_ne_nil _ _

/-- Separators leave nothing. -/
theorem camelFrom_of_separators {s : List Char} (h : ∀ c ∈ s, isSeparator c = true) (raised : Bool) : camelFrom raised s = [] := by
  induction s generalizing raised with
  | nil => rfl
  | cons c s ih =>
    rw [camelFrom, if_pos (h c List.mem_cons_self)]
    exact ih (fun d hd => h d (List.mem_cons_of_mem _ hd)) true

/-- What stands in front of the first separator stays. -/
theorem camelFrom_append {s : List Char} (h : ∀ c ∈ s, isSeparator c = false) (rest : List Char) :
    camelFrom false (s ++ rest) = s ++ camelFrom false rest := by
  induction s with
  | nil => rfl
  | cons c s ih =>
    have hc : ¬isSeparator c = true := by simp [h c List.mem_cons_self]
    rw [List.cons_append, camelFrom, if_neg hc, ih fun d hd => h d (List.mem_cons_of_mem _ hd)]
    rfl

/-- A name without separators is in camel case already. -/
theorem camelFrom_of_unseparated {s : List Char} (h : ∀ c ∈ s, isSeparator c = false) : camelFrom false s = s := by
  simpa [camelFrom] using camelFrom_append h []

/-- If nothing but small letters is left behind a separator, nothing is. -/
theorem separators_of_isLower {s : List Char} (h : ∀ c ∈ camelFrom true s, c.isLower = true) : ∀ c ∈ s, isSeparator c = true := by
  induction s with
  | nil => exact nofun
  | cons c s ih =>
    unfold camelFrom at h
    split at h
    case isTrue hc => exact List.forall_mem_cons.mpr ⟨hc, ih h⟩
    case isFalse =>
      have hraised : c.toUpper.isLower = true := h _ List.mem_cons_self
      rw [isLower_toUpper] at hraised
      cases hraised

/-- If nothing but small letters is left of a name, it had separators at most behind them. -/
theorem eq_append_separators_of_isLower {s : List Char} (h : ∀ c ∈ camelFrom false s, c.isLower = true) :
    ∃ separators, (∀ c ∈ separators, isSeparator c = true) ∧ s = camelFrom false s ++ separators := by
  induction s with
  | nil => exact ⟨[], nofun, rfl⟩
  | cons c s ih =>
    rw [camelFrom] at h ⊢
    by_cases hc : isSeparator c = true
    · rw [if_pos hc] at h ⊢
      have hs := separators_of_isLower h
      exact ⟨c :: s, List.forall_mem_cons.mpr ⟨hc, hs⟩, by rw [camelFrom_of_separators hs, List.nil_append]⟩
    · rw [if_neg hc] at h ⊢
      obtain ⟨separators, hseparators, hsplit⟩ := ih fun d hd => h d (List.mem_cons_of_mem _ hd)
      exact ⟨separators, hseparators, congrArg (c :: ·) hsplit⟩

/-- A word of small letters is left exactly of itself with separators behind it. -/
theorem camelFrom_eq_iff {word : List Char} (hword : ∀ c ∈ word, c.isLower = true) {s : List Char} :
    camelFrom false s = word ↔ ∃ separators, (∀ c ∈ separators, isSeparator c = true) ∧ s = word ++ separators := by
  constructor
  · rintro rfl
    exact eq_append_separators_of_isLower hword
  · rintro ⟨separators, hseparators, rfl⟩
    have hunseparated : ∀ c ∈ word, isSeparator c = false := fun c hc => isSeparator_of_isLower (hword c hc)
    rw [camelFrom_append hunseparated, camelFrom_of_separators hseparators, List.append_nil]

end IconForge.Component
