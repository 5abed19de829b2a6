import IconForge.Proofs.Component.Name
import IconForge.Proofs.Path.Written

/-!
# Names joined of words

In the joined style a component is named by the words of its file's stem, each with its first character raised. What lies between words
drops out and ends a word (`wordsOf_append_gap`, `pascalFrom_append_gap`), and a text without gaps is one word (`wordsOf_of_forall`,
`pascalFrom_of_forall`); so the name is its words, joined (`pascalFrom_eq_flatMap`). Such a name can be used exactly if the first of its
characters is a letter, and a file that is called by it has the same name (`identifier_pascal`).
-/

namespace IconForge.Component

open Text

variable {s w : List Char} {c : Char}

/-! ## Letters and digits -/

theorem isWordChar_iff : isWordChar c = true ↔ c.isAlpha = true ∨ c.isDigit = true := by
  have h : isWordChar c = (c.isAlpha || c.isDigit) := rfl
  rw [h, Bool.or_eq_true]

theorem isWordChar_toUpper (h : isWordChar c = true) : isWordChar c.toUpper = true := by
  rcases toUpper_cases c with ⟨-, hupper⟩ | ⟨-, hsame⟩
  · exact isWordChar_iff.mpr (.inl (isAlpha_iff.mpr (.inl hupper)))
  · rwa [hsame]

theorem isAlpha_toUpper_iff : c.toUpper.isAlpha = true ↔ c.isAlpha = true := by
  constructor
  · intro h
    rcases toUpper_cases c with ⟨hlower, -⟩ | ⟨-, hsame⟩
    · exact isAlpha_iff.mpr (.inr hlower)
    · rwa [hsame] at h
  · exact isAlpha_toUpper

/-- Among letters and digits, the letters can start an identifier. -/
theorem isIdentifierStart_iff (h : isWordChar c = true) : isIdentifierStart c = true ↔ c.isAlpha = true := by
  have hunderscore : c ≠ '_' := by
    rintro rfl
    exact absurd h (by decide)
  have hdollar : c ≠ '$' := by
    rintro rfl
    exact absurd h (by decide)
  simp [isIdentifierStart, hunderscore, hdollar]

theorem isIdentifierChar_of_isWordChar (h : isWordChar c = true) : isIdentifierChar c = true := by
  have halphanum : c.isAlphanum = true := h
  simp [isIdentifierChar, halphanum]

/-! ## Words -/

/-- The words of a text: its longest runs of letters and digits, in order. -/
def wordsOf (s : List Char) : List (List Char) := (s.splitOnP fun c => !isWordChar c).filter (· ≠ [])

/-- A character that is in no word ends the word in front of it. -/
theorem wordsOf_append_gap (front back : List Char) (h : isWordChar c = false) :
    wordsOf (front ++ c :: back) = wordsOf front ++ wordsOf back := by
  have hgap : (!isWordChar c) = true := by simp [h]
  simp only [wordsOf]
  rw [List.splitOnP_append_cons front back hgap, List.filter_append]

/-- Letters and digits with nothing between them are one word. -/
theorem wordsOf_of_forall (hne : w ≠ []) (h : ∀ c ∈ w, isWordChar c = true) : wordsOf w = [w] := by
  have hsplit : w.splitOnP (fun c => !isWordChar c) = [w] := List.splitOnP_eq_singleton fun c hc => by simp [h c hc]
  rw [wordsOf, hsplit]
  simp [hne]

/-! ## Joining them -/

/-- Whatever stands behind a gap starts a word, so a name is joined of what the two sides of a gap are joined of. -/
theorem pascalFrom_append_gap (raised : Bool) (front back : List Char) (h : isWordChar c = false) :
    pascalFrom raised (front ++ c :: back) = pascalFrom raised front ++ pascalFrom true back := by
  induction front generalizing raised with
  | nil => simp [pascalFrom, h]
  | cons d front ih =>
    rw [List.cons_append, pascalFrom, pascalFrom]
    split
    · rw [ih, List.cons_append]
    · exact ih true

/-- A word without breaks is left as it is. -/
theorem pascalFrom_false_of_forall (h : ∀ c ∈ w, isWordChar c = true) : pascalFrom false w = w := by
  induction w with
  | nil => rfl
  | cons c w ih =>
    rw [pascalFrom, if_pos (h c List.mem_cons_self), ih fun d hd => h d (List.mem_cons_of_mem _ hd)]
    rfl

/-- Of a word the first character is raised. -/
theorem pascalFrom_of_forall (h : ∀ c ∈ w, isWordChar c = true) : pascalFrom true w = w.modifyHead Char.toUpper := by
  cases w with
  | nil => rfl
  | cons c w =>
    have hw : ∀ d ∈ w, isWordChar d = true := fun d hd => h d (List.mem_cons_of_mem _ hd)
    rw [pascalFrom, if_pos (h c List.mem_cons_self), pascalFrom_false_of_forall hw]
    rfl

/-- What holds of a text without gaps, and of a text with a gap if it holds of what stands in front of the gap and behind it, holds of
every text. -/
theorem gap_induction {motive : List Char → Prop} (word : ∀ w, (∀ c ∈ w, isWordChar c = true) → motive w)
    (gap : ∀ front c back, isWordChar c = false → motive front → motive back → motive (front ++ c :: back)) (s : List Char) :
    motive s := by
  -- A front without gaps is held back until the next gap or the end.
  have hall : ∀ back front, (∀ c ∈ front, isWordChar c = true) → motive (front ++ back) := by
    intro back
    induction back with
    | nil =>
      intro front hfront
      rw [List.append_nil]
      exact word front hfront
    | cons c back ih =>
      intro front hfront
      by_cases hc : isWordChar c = true
      · have hlonger : ∀ d ∈ front ++ [c], isWordChar d = true := by
          intro d hd
          rcases List.mem_append.mp hd with hd | hd
          · exact hfront d hd
          · rwa [List.mem_singleton.mp hd]
        have h := ih (front ++ [c]) hlonger
        rwa [List.append_assoc, List.singleton_append] at h
      · exact gap front c back (by simpa using hc) (word front hfront) (ih [] (List.forall_mem_nil _))
  exact hall s [] (List.forall_mem_nil _)

/-- A name is joined of the words of a text, each with its first character raised. -/
theorem pascalFrom_eq_flatMap (s : List Char) : pascalFrom true s = (wordsOf s).flatMap (List.modifyHead Char.toUpper) := by
  induction s using gap_induction with
  | word w hw =>
    cases w with
    | nil => rfl
    | cons c w =>
      rw [pascalFrom_of_forall hw, wordsOf_of_forall (List.cons_ne_nil c w) hw]
      simp
  | gap front c back hc ihFront ihBack => rw [pascalFrom_append_gap true front back hc, wordsOf_append_gap front back hc,
      List.flatMap_append, ihFront, ihBack]

/-- The words of a text hold its letters and digits, in order. -/
theorem flatten_wordsOf (s : List Char) : (wordsOf s).flatten = s.filter isWordChar := by
  induction s using gap_induction with
  | word w hw =>
    rw [List.filter_eq_self.mpr hw]
    cases w with
    | nil => rfl
    | cons c w =>
      rw [wordsOf_of_forall (List.cons_ne_nil c w) hw]
      simp
  | gap front c back hc ihFront ihBack =>
    rw [wordsOf_append_gap front back hc, List.flatten_append, ihFront, ihBack]
    simp [hc]

/-! ## What is left -/

/-- Only letters and digits are left in Pascal case. -/
theorem isWordChar_of_mem_pascalFrom {raised : Bool} (h : c ∈ pascalFrom raised s) : isWordChar c = true := by
  induction s generalizing raised with
  | nil => cases h
  | cons d s ih =>
    unfold pascalFrom at h
    split at h
    case isTrue hd =>
      rcases List.mem_cons.mp h with rfl | h
      · cases raised with
        | true => exact isWordChar_toUpper hd
        | false => exact hd
      · exact ih h
    case isFalse => exact ih h

/-- The first character that is left is the first letter or digit, raised. -/
theorem head?_pascalFrom (s : List Char) : (pascalFrom true s).head? = (s.find? isWordChar).map Char.toUpper := by
  induction s with
  | nil => rfl
  | cons c s ih => by_cases h : isWordChar c = true <;> simp [pascalFrom, h, ih]

/-- The first character in Pascal case is not a small letter. -/
theorem isLower_of_head?_pascalFrom (h : (pascalFrom true s).head? = some c) : c.isLower = false := by
  rw [head?_pascalFrom] at h
  obtain ⟨d, -, rfl⟩ := Option.map_eq_some_iff.mp h
  exact isLower_toUpper d

/-- A name that has been joined once is not changed by joining its words. -/
theorem pascalFrom_pascalFrom (s : List Char) : pascalFrom true (pascalFrom true s) = pascalFrom true s := by
  rw [pascalFrom_of_forall fun c hc => isWordChar_of_mem_pascalFrom hc]
  cases hname : pascalFrom true s with
  | nil => rfl
  | cons c rest =>
    have hlower : c.isLower = false := isLower_of_head?_pascalFrom (by rw [hname]; rfl)
    rcases toUpper_cases c with ⟨hraised, -⟩ | ⟨-, hsame⟩
    · rw [hlower] at hraised
      cases hraised
    · rw [List.modifyHead_cons, hsame]

/-! ## The name of a file -/

/-- Letters and digits have the form of a name exactly if the first of them is a letter. -/
theorem hasNameForm_iff (h : ∀ c ∈ w, isWordChar c = true) : HasNameForm w ↔ ∃ c, w.head? = some c ∧ c.isAlpha = true := by
  constructor
  · rintro ⟨bare, ⟨c, rest, rfl, hc, -⟩, rfl | rfl⟩
    · exact ⟨c, rfl, (isIdentifierStart_iff (h c List.mem_cons_self)).mp hc⟩
    · exact absurd (h '\n' (by simp)) (by decide)
  · rintro ⟨c, hc, halpha⟩
    obtain ⟨rest, rfl⟩ := List.head?_eq_some_iff.mp hc
    have hrest : ∀ d ∈ rest, isIdentifierChar d = true := fun d hd => isIdentifierChar_of_isWordChar (h d (List.mem_cons_of_mem _ hd))
    exact ⟨c :: rest, ⟨c, rest, rfl, (isIdentifierStart_iff (h c List.mem_cons_self)).mpr halpha, hrest⟩, .inl rfl⟩

/-- Every reserved word starts with a small letter. -/
theorem isLower_head_reservedWords : ∀ word ∈ reservedWords, (word.toList.head?.map Char.isLower) = some true := by decide

/-- The name of an icon in Pascal case is made of its stem. -/
theorem toList_identifier_pascal (path : Path) : (identifier .pascal path).toList = pascalFrom true path.stem.toList :=
  String.toList_ofList

/-- A name in Pascal case is no reserved word, for these begin with small letters. -/
theorem not_mem_reservedWords_of_pascal (path : Path) : identifier .pascal path ∉ reservedWords := by
  intro hmem
  have hlower := isLower_head_reservedWords _ hmem
  rw [toList_identifier_pascal] at hlower
  obtain ⟨c, hc, hlowerC⟩ := Option.map_eq_some_iff.mp hlower
  rw [isLower_of_head?_pascalFrom hc] at hlowerC
  cases hlowerC

/-- Letters and digits are left of a stem whose first letter or digit is a letter as a name that can be used, and of no other stem. -/
theorem isUsable_pascal_iff (path : Path) :
    isUsable (identifier .pascal path) = true ↔ ∃ c, path.stem.toList.find? isWordChar = some c ∧ c.isAlpha = true := by
  have hwords : ∀ c ∈ pascalFrom true path.stem.toList, isWordChar c = true := fun c hc => isWordChar_of_mem_pascalFrom hc
  rw [isUsable_iff, toList_identifier_pascal, hasNameForm_iff hwords, head?_pascalFrom]
  constructor
  · rintro ⟨⟨c, hc, halpha⟩, -⟩
    obtain ⟨d, hd, rfl⟩ := Option.map_eq_some_iff.mp hc
    exact ⟨d, hd, isAlpha_toUpper_iff.mp halpha⟩
  · rintro ⟨d, hd, halpha⟩
    exact ⟨⟨d.toUpper, by rw [hd]; rfl, isAlpha_toUpper halpha⟩, not_mem_reservedWords_of_pascal path⟩

/-- A file that is called by a joined name has this name. -/
theorem identifier_pascal_again {path : Path} (hne : identifier .pascal path ≠ "") :
    identifier .pascal (Path.ofString (identifier .pascal path ++ ".svg")) = identifier .pascal path := by
  have hsuffix : identifier .pascal path ++ ".svg" = identifier .pascal path ++ "." ++ "svg" := by
    rw [String.append_assoc]
    rfl
  have hslash : '/' ∉ (identifier .pascal path).toList ++ "svg".toList := by
    intro hmem
    rcases List.mem_append.mp hmem with hmem | hmem
    · rw [toList_identifier_pascal] at hmem
      exact absurd (isWordChar_of_mem_pascalFrom hmem) (by decide)
    · exact absurd hmem (by decide)
  have hstem := Path.stem_ofString hne (by decide) (by decide) hslash
  rw [← String.toList_inj, toList_identifier_pascal, hsuffix, hstem, toList_identifier_pascal]
  exact pascalFrom_pascalFrom path.stem.toList

/-- The name of a file is joined of the words of its stem, each with its first character raised; nothing but letters and digits is in it,
and no small letter starts it. It can be used exactly if the first letter or digit of the stem is a letter, and it is no reserved word. A
file that is called by such a name has this name again. -/
theorem identifier_pascal (path : Path) :
    let stem := path.stem.toList
    let name := identifier .pascal path
    name.toList = (wordsOf stem).flatMap (List.modifyHead Char.toUpper) ∧
      (wordsOf stem).flatten = stem.filter isWordChar ∧
      (∀ c ∈ name.toList, isWordChar c = true) ∧
      (∀ c, name.toList.head? = some c → c.isLower = false) ∧
      (isUsable name = true ↔ ∃ c, stem.find? isWordChar = some c ∧ c.isAlpha = true) ∧
      name ∉ reservedWords ∧
      (name ≠ "" → identifier .pascal (Path.ofString (name ++ ".svg")) = name) := by
  intro stem name
  have hname : name.toList = pascalFrom true stem := toList_identifier_pascal path
  rw [hname]
  exact ⟨pascalFrom_eq_flatMap stem, flatten_wordsOf stem, fun c hc => isWordChar_of_mem_pascalFrom hc,
    fun c hc => isLower_of_head?_pascalFrom hc, isUsable_pascal_iff path, not_mem_reservedWords_of_pascal path, identifier_pascal_again⟩

/-- A name with gaps in front, between and behind, several dots, and letters beyond ASCII names a component by its words. -/
theorem identifier_pascal_gapped :
    let path := Path.ofString "icons/--my.café_2nd-icon!.svg"
    identifier .pascal path = "MyCaf2ndIcon" ∧ isUsable (identifier .pascal path) = true ∧
      identifier .pascal (Path.ofString (identifier .pascal path ++ ".svg")) = "MyCaf2ndIcon" := by
  intro path
  have hname : identifier .pascal path = "MyCaf2ndIcon" := by decide
  obtain ⟨-, -, -, -, husable, -, hagain⟩ := identifier_pascal path
  refine ⟨hname, husable.mpr ⟨'m', by decide, by decide⟩, ?_⟩
  rw [hagain (by rw [hname]; decide), hname]

end IconForge.Component
