import IconForge.Text.Blank
import Mathlib.Data.List.TakeWhile

/-!
# What trimming leaves

Trimming a text leaves the one piece of it that has only blanks around it and no blank at its ends (`trimmed_eq_iff`).
-/

namespace IconForge.Text

/-- A piece of a text with only blanks around it and no blank at its ends. -/
structure IsCore (text s : List Char) : Prop where
  around : ∃ front back, text = front ++ s ++ back ∧ (∀ c ∈ front, isBlank c = true) ∧ ∀ c ∈ back, isBlank c = true
  head : ∀ c, s.head? = some c → isBlank c = false
  last : ∀ c, s.getLast? = some c → isBlank c = false

variable {s front back text : List Char}

/-- Blanks in front are dropped. -/
theorem trimLeft_append (hfront : ∀ c ∈ front, isBlank c = true) (s : List Char) : trimLeft (front ++ s) = trimLeft s := by
  induction front with
  | nil => rfl
  | cons c front ih =>
    rw [List.cons_append, trimLeft, List.dropWhile_cons_of_pos (hfront c List.mem_cons_self)]
    exact ih fun d hd => hfront d (List.mem_cons_of_mem _ hd)

/-- A text that does not start with a blank stays as it is. -/
theorem trimLeft_of_head (h : ∀ c, s.head? = some c → isBlank c = false) : trimLeft s = s := by
  cases s with
  | nil => rfl
  | cons c rest => exact List.dropWhile_cons_of_neg (by simp [h c rfl])

/-- What is cut off at the front is blank. -/
theorem exists_blanks_trimLeft (s : List Char) : ∃ front, s = front ++ trimLeft s ∧ ∀ c ∈ front, isBlank c = true :=
  ⟨s.takeWhile isBlank, List.takeWhile_append_dropWhile.symm, fun _ hc => List.mem_takeWhile_imp hc⟩

/-- A text trimmed at the front does not begin with a blank. -/
theorem head?_trimLeft (s : List Char) : ∀ c, (trimLeft s).head? = some c → isBlank c = false := by
  intro c hc
  obtain ⟨rest, hrest⟩ := List.head?_eq_some_iff.mp hc
  exact trimLeft_head s c rest hrest

/-- Trimming at the end is trimming the reversed text at its front. -/
theorem trimRight_eq (s : List Char) : trimRight s = (trimLeft s.reverse).reverse := rfl

/-- Trimming leaves a core. -/
theorem isCore_trim (text : List Char) : IsCore text (trim text) := by
  obtain ⟨front, hfront, hblank⟩ := exists_blanks_trimLeft text
  obtain ⟨back, hback, hblank'⟩ := exists_blanks_trimLeft (trimLeft text).reverse
  have hleft : trimLeft text = trim text ++ back.reverse := by
    rw [trim, trimRight_eq, ← List.reverse_append, ← hback, List.reverse_reverse]
  constructor
  case around =>
    refine ⟨front, back.reverse, ?_, hblank, fun c hc => hblank' c (List.mem_reverse.mp hc)⟩
    rw [List.append_assoc, ← hleft, ← hfront]
  case head =>
    intro c hc
    refine head?_trimLeft text c ?_
    rw [hleft, List.head?_append, hc]
    rfl
  case last =>
    intro c hc
    refine head?_trimLeft (trimLeft text).reverse c ?_
    rw [← List.getLast?_reverse]
    exact hc

theorem mem_of_mem_trim {c : Char} (h : c ∈ trim s) : c ∈ s := by
  obtain ⟨front, back, hsplit, -, -⟩ := (isCore_trim s).around
  rw [hsplit]
  exact List.mem_append_left _ (List.mem_append_right _ h)

/-- A core is what trimming leaves. -/
theorem IsCore.eq_trim (h : IsCore text s) : trim text = s := by
  obtain ⟨front, back, rfl, hfront, hback⟩ := h.around
  have hright : trimRight (s ++ back) = s := by
    rw [trimRight_eq, List.reverse_append, trimLeft_append fun c hc => hback c (List.mem_reverse.mp hc),
      trimLeft_of_head fun c hc => h.last c (List.head?_reverse ▸ hc), List.reverse_reverse]
  rw [trim, List.append_assoc, trimLeft_append hfront]
  cases hs : s with
  | nil =>
    rw [List.nil_append]
    have hnone : trimLeft back = [] := by
      have hall := trimLeft_append hback []
      rwa [List.append_nil] at hall
    rw [hnone]
    rfl
  | cons c rest =>
    rw [trimLeft_of_head fun d hd => h.head d (by rw [hs]; exact hd), ← hs, hright]

/-- A core stays one with blanks around it. -/
theorem IsCore.widen (h : IsCore text s) (hfront : ∀ c ∈ front, isBlank c = true) (hback : ∀ c ∈ back, isBlank c = true) :
    IsCore (front ++ s ++ back) s := ⟨⟨front, back, rfl, hfront, hback⟩, h.head, h.last⟩

/-- Trimming leaves the core of a text. -/
theorem trimmed_eq_iff {text s : String} : trimmed text = s ↔ IsCore text.toList s.toList := by
  constructor
  · rintro rfl
    rw [trimmed, String.toList_ofList]
    exact isCore_trim text.toList
  · intro h
    rw [trimmed, h.eq_trim, String.ofList_toList]

end IconForge.Text
