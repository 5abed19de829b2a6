/-!
# Cutting and joining

A text is cut at every occurrence of a mark, and joined again with a separator between the pieces. Joining with the mark undoes the
cut (`joinWith_cut`), and cutting undoes joining pieces without the mark (`cut_joinWith`). Readers that stop at the first occurrence
of a mark split a text there and nowhere else (`takeWhile_ne_append_cons`, `exists_of_dropWhile_ne`).
-/

namespace IconForge.Text

/-- A text cut at every occurrence of a mark; there is always a last piece. -/
def cut (mark : Char) : List Char → List (List Char)
  | [] => [[]]
  | c :: rest =>
    if c = mark then [] :: cut mark rest
    else match cut mark rest with
      | piece :: pieces => (c :: piece) :: pieces
      | [] => [[c]]

/-- Texts with a separator between them. -/
def joinWith (separator : List Char) : List (List Char) → List Char
  | [] => []
  | [s] => s
  | s :: rest => s ++ separator ++ joinWith separator rest

/-- Strings with a separator between them. -/
def joined (separator : String) : List String → String
  | [] => ""
  | [s] => s
  | s :: rest => s ++ separator ++ joined separator rest

/-- A string in braces. -/
def braced (s : String) : String := String.singleton '{' ++ s ++ String.singleton '}'

/-- A string cut at every occurrence of a mark. -/
def cutString (mark : Char) (s : String) : List String := (cut mark s.toList).map String.ofList

@[simp] theorem toList_braced (s : String) : (braced s).toList = '{' :: s.toList ++ ['}'] := by simp [braced]

/-- There is always a last piece. -/
theorem cut_ne_nil (mark : Char) (s : List Char) : cut mark s ≠ [] := by
  cases s with
  | nil => simp [cut]
  | cons c rest =>
    simp only [cut]
    split
    · simp
    · split <;> simp

/-- A text without the mark is one piece. -/
theorem cut_of_not_mem {mark : Char} {s : List Char} (h : mark ∉ s) : cut mark s = [s] := by
  induction s with
  | nil => rfl
  | cons c rest ih =>
    have hc : c ≠ mark := fun hc => h (hc ▸ List.mem_cons_self)
    rw [cut, if_neg hc, ih fun hr => h (List.mem_cons_of_mem _ hr)]

/-- A text is cut at the first occurrence of the mark. -/
theorem cut_append_cons {mark : Char} {s : List Char} (h : mark ∉ s) (rest : List Char) :
    cut mark (s ++ mark :: rest) = s :: cut mark rest := by
  induction s with
  | nil => simp [cut]
  | cons c s ih =>
    have hc : c ≠ mark := fun hc => h (hc ▸ List.mem_cons_self)
    rw [List.cons_append, cut, if_neg hc, ih fun hr => h (List.mem_cons_of_mem _ hr)]

/-- A text is cut at each of its marks: the pieces on both sides of one are those of the two texts beside it. -/
theorem cut_append_mark (mark : Char) (s rest : List Char) : cut mark (s ++ mark :: rest) = cut mark s ++ cut mark rest := by
  induction s with
  | nil => simp [cut]
  | cons c s ih =>
    rw [List.cons_append, cut, cut, ih]
    by_cases hc : c = mark
    · rw [if_pos hc, if_pos hc, List.cons_append]
    · rw [if_neg hc, if_neg hc]
      cases hs : cut mark s with
      | nil => exact absurd hs (cut_ne_nil mark s)
      | cons piece pieces => rfl

/-- No piece holds the mark. -/
theorem not_mem_of_mem_cut {mark : Char} {s piece : List Char} (h : piece ∈ cut mark s) : mark ∉ piece := by
  induction s generalizing piece with
  | nil =>
    rw [cut, List.mem_singleton] at h
    simp [h]
  | cons c s ih =>
    rw [cut] at h
    split at h
    · rcases List.mem_cons.mp h with rfl | h
      · simp
      · exact ih h
    · rename_i hc
      cases hs : cut mark s with
      | nil => exact absurd hs (cut_ne_nil mark s)
      | cons first pieces =>
        rw [hs] at h ih
        rcases List.mem_cons.mp h with rfl | h
        · rw [List.mem_cons, not_or]
          exact ⟨fun hmark => hc hmark.symm, ih List.mem_cons_self⟩
        · exact ih (List.mem_cons_of_mem _ h)

/-- Joining the pieces with the mark gives the text back. -/
theorem joinWith_cut (mark : Char) (s : List Char) : joinWith [mark] (cut mark s) = s := by
  induction s with
  | nil => rfl
  | cons c rest ih =>
    have hne := cut_ne_nil mark rest
    simp only [cut]
    cases hr : cut mark rest with
    | nil => exact absurd hr hne
    | cons piece pieces =>
      rw [hr] at ih
      by_cases h : c = mark
      · subst h
        simp [joinWith, ih]
      · cases pieces with
        | nil => simp_all [joinWith]
        | cons q qs =>
          simp only [joinWith] at ih
          simp [h, joinWith, ← ih]

/-- Cutting gives back pieces without the mark that were joined with it. -/
theorem cut_joinWith {mark : Char} {pieces : List (List Char)} (hne : pieces ≠ []) (h : ∀ piece ∈ pieces, mark ∉ piece) :
    cut mark (joinWith [mark] pieces) = pieces := by
  induction pieces with
  | nil => exact absurd rfl hne
  | cons piece pieces ih =>
    have hpiece := h piece List.mem_cons_self
    cases pieces with
    | nil => exact cut_of_not_mem hpiece
    | cons next pieces =>
      have hrest := ih (List.cons_ne_nil _ _) fun p hp => h p (List.mem_cons_of_mem _ hp)
      have hmore : joinWith [mark] (piece :: next :: pieces) = piece ++ [mark] ++ joinWith [mark] (next :: pieces) := rfl
      rw [hmore, List.append_assoc, List.singleton_append, cut_append_cons hpiece, hrest]

/-- Joined texts are the first one and a separator in front of every other one. -/
theorem joinWith_cons (separator s : List Char) (rest : List (List Char)) :
    joinWith separator (s :: rest) = s ++ rest.flatMap (separator ++ ·) := by
  induction rest generalizing s with
  | nil => simp [joinWith]
  | cons t rest ih =>
    have hmore : joinWith separator (s :: t :: rest) = s ++ separator ++ joinWith separator (t :: rest) := rfl
    rw [hmore, ih, List.flatMap_cons, List.append_assoc, List.append_assoc]

/-- Joined texts hold a character only if one of them or the separator does. -/
theorem mem_joinWith {separator : List Char} {c : Char} {pieces : List (List Char)} (h : c ∈ joinWith separator pieces) :
    c ∈ separator ∨ ∃ piece ∈ pieces, c ∈ piece := by
  induction pieces with
  | nil => cases h
  | cons piece pieces ih =>
    cases pieces with
    | nil => exact .inr ⟨piece, List.mem_cons_self, h⟩
    | cons next pieces =>
      simp only [joinWith, List.mem_append] at h
      rcases h with (h | h) | h
      · exact .inr ⟨piece, List.mem_cons_self, h⟩
      · exact .inl h
      · exact (ih h).imp_right fun ⟨p, hp, hc⟩ => ⟨p, List.mem_cons_of_mem _ hp, hc⟩

/-! ## Up to a mark -/

/-- A text that goes on to its end is not split. -/
theorem takeWhile_of_all {p : Char → Bool} {s : List Char} (hs : ∀ d ∈ s, p d = true) : s.takeWhile p = s ∧ s.dropWhile p = [] := by
  have htake : (s ++ []).takeWhile p = s ++ [].takeWhile p := List.takeWhile_append_of_pos hs
  have hdrop : (s ++ []).dropWhile p = [].dropWhile p := List.dropWhile_append_of_pos hs
  simpa using And.intro htake hdrop

/-- A text is split before the first character that does not go on with it. -/
theorem takeWhile_append_cons {p : Char → Bool} {s : List Char} (hs : ∀ d ∈ s, p d = true) {c : Char} (hc : p c = false)
    (rest : List Char) : (s ++ c :: rest).takeWhile p = s ∧ (s ++ c :: rest).dropWhile p = c :: rest := by
  have hstop : ¬p c = true := by simp [hc]
  constructor
  · rw [List.takeWhile_append_of_pos hs, List.takeWhile_cons_of_neg hstop, List.append_nil]
  · rw [List.dropWhile_append_of_pos hs, List.dropWhile_cons_of_neg hstop]

/-- A text without the mark is split from what stands behind the mark. -/
theorem takeWhile_ne_append_cons {mark : Char} {s : List Char} (h : mark ∉ s) (rest : List Char) :
    (s ++ mark :: rest).takeWhile (· ≠ mark) = s ∧ (s ++ mark :: rest).dropWhile (· ≠ mark) = mark :: rest := by
  have hs : ∀ c ∈ s, decide (c ≠ mark) = true := by
    intro c hc
    exact decide_eq_true fun hmark => h (hmark ▸ hc)
  exact takeWhile_append_cons hs (by simp) rest

/-- What is left of a text at its first mark is the mark and what stands behind it. -/
theorem exists_of_dropWhile_ne {mark c : Char} {s rest : List Char} (h : s.dropWhile (· ≠ mark) = c :: rest) :
    ∃ front, mark ∉ front ∧ s = front ++ mark :: rest := by
  induction s with
  | nil => cases h
  | cons d s ih =>
    by_cases hd : d = mark
    · rw [List.dropWhile_cons_of_neg (by simp [hd])] at h
      obtain ⟨-, rfl⟩ := List.cons.inj h
      exact ⟨[], by simp, by rw [hd, List.nil_append]⟩
    · rw [List.dropWhile_cons_of_pos (by simp [hd])] at h
      obtain ⟨front, hfront, rfl⟩ := ih h
      refine ⟨d :: front, ?_, rfl⟩
      rw [List.mem_cons, not_or]
      exact ⟨fun hmark => hd hmark.symm, hfront⟩

end IconForge.Text
