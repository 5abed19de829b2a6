import IconForge.Disk.Copy

/-!
# Paths and their written forms

The paths that texts write are those whose parts say something and hold no slash, and such a path is read back from its written
form (`ofString_toString`). A name behind a written path leads to the child of that name (`ofString_under`). The stem of a name is what
stands in front of its last dot (`stem_ofString`).
-/

namespace IconForge

open Text

namespace Path

/-- A path that some text writes. -/
def IsWritten (p : Path) : Prop := ∀ part ∈ p.parts, isPart part = true ∧ '/' ∉ part.toList

instance : DecidablePred IsWritten := fun p => inferInstanceAs (Decidable (∀ part ∈ p.parts, isPart part = true ∧ '/' ∉ part.toList))

/-- What is read from a text is written by it. -/
theorem isWritten_ofString (s : String) : (ofString s).IsWritten := by
  intro part hmem
  obtain ⟨hcut, hpart⟩ := List.mem_filter.mp hmem
  obtain ⟨piece, hpiece, rfl⟩ := List.mem_map.mp hcut
  rw [String.toList_ofList]
  exact ⟨hpart, not_mem_of_mem_cut hpiece⟩

theorem IsWritten.parent {p : Path} (h : p.IsWritten) : p.parent.IsWritten := fun part hmem => h part (List.dropLast_subset _ hmem)

/-- A path goes on with any proper name that holds no slash. -/
theorem IsWritten.child {p : Path} (h : p.IsWritten) {name : String} (hpart : isPart name = true) (hslash : '/' ∉ name.toList) :
    (p.child name).IsWritten := by
  intro part hmem
  rcases List.mem_append.mp hmem with hmem | hmem
  · exact h part hmem
  · rw [List.mem_singleton.mp hmem]
    exact ⟨hpart, hslash⟩

/-- A part that says something is not empty. -/
theorem ne_empty_of_isPart {part : String} (h : isPart part = true) : part ≠ "" := by
  intro hempty
  rw [hempty] at h
  exact absurd h (by decide)

/-! ## Anchors -/

/-- The anchor is told by the first three characters. -/
theorem anchorOf_eq (s : List Char) :
    anchorOf s = if s.head? = some '/' then
        if s.tail.head? = some '/' then (if s.tail.tail.head? = some '/' then .root else .doubleRoot) else .root
      else .here := by
  unfold anchorOf
  split <;> simp_all [List.head?_eq_some_iff]

/-- More text behind a start does not change the anchor, unless it is more slashes. -/
theorem anchorOf_append {s more : List Char} (hs : s ≠ []) (h : s.getLast? = some '/' → more.head? ≠ some '/') :
    anchorOf (s ++ more) = anchorOf s := by
  rw [anchorOf_eq, anchorOf_eq]
  rcases s with _ | ⟨a, _ | ⟨b, _ | ⟨c, s⟩⟩⟩
  · exact absurd rfl hs
  · by_cases ha : a = '/' <;> simp_all
  · by_cases hb : b = '/' <;> simp_all
  · rfl

/-! ## Reading a written form back -/

/-- Parts without slashes are the pieces of the text that joins them. -/
theorem cutString_joined {parts : List String} (hne : parts ≠ []) (h : ∀ part ∈ parts, '/' ∉ part.toList) :
    cutString '/' (joined "/" parts) = parts := by
  induction parts with
  | nil => exact absurd rfl hne
  | cons part rest ih =>
    have hpart := h part List.mem_cons_self
    cases rest with
    | nil => simp [cutString, joined, cut_of_not_mem hpart]
    | cons next more =>
      have hrest := ih (List.cons_ne_nil _ _) fun q hq => h q (List.mem_cons_of_mem _ hq)
      have htext : (joined "/" (part :: next :: more)).toList = part.toList ++ '/' :: (joined "/" (next :: more)).toList := by
        simp [joined]
      rw [cutString, htext, cut_append_cons hpart, List.map_cons, String.ofList_toList]
      exact congrArg (part :: ·) hrest

/-- The first character of joined parts is that of the first part. -/
theorem head?_joined {parts : List String} (h : ∀ part ∈ parts, isPart part = true ∧ '/' ∉ part.toList) :
    (joined "/" parts).toList.head? ≠ some '/' := by
  have hfirst : ∀ part : String, isPart part = true ∧ '/' ∉ part.toList → ∀ more, (part.toList ++ more).head? ≠ some '/' := by
    intro part ⟨hpart, hslash⟩ more
    cases hc : part.toList with
    | nil => exact absurd (String.toList_eq_nil_iff.mp hc) (ne_empty_of_isPart hpart)
    | cons c rest =>
      rw [hc] at hslash
      intro hhead
      rw [List.cons_append, List.head?_cons, Option.some.injEq] at hhead
      exact hslash (hhead ▸ List.mem_cons_self)
  cases parts with
  | nil => simp [joined]
  | cons part rest =>
    cases rest with
    | nil => simpa [joined] using hfirst part (h part List.mem_cons_self) []
    | cons next more =>
      simpa [joined] using hfirst part (h part List.mem_cons_self) ('/' :: (joined "/" (next :: more)).toList)

/-- Empty pieces at the start of a text are dropped. -/
theorem filter_cutString_slash (s : String) :
    (cutString '/' ("/" ++ s)).filter isPart = (cutString '/' s).filter isPart := by
  have hempty : isPart (String.ofList []) = false := by decide
  simp [cutString, cut, hempty]

/-- The pieces of joined parts are the parts. -/
theorem filter_cutString_joined {parts : List String} (h : ∀ part ∈ parts, isPart part = true ∧ '/' ∉ part.toList) :
    (cutString '/' (joined "/" parts)).filter isPart = parts := by
  cases parts with
  | nil => decide
  | cons part rest =>
    rw [cutString_joined (List.cons_ne_nil _ _) fun q hq => (h q hq).2]
    exact List.filter_eq_self.mpr fun q hq => (h q hq).1

/-- The path that a text writes is read back from its written form. -/
theorem ofString_toString {p : Path} (h : p.IsWritten) : ofString p.toString = p := by
  obtain ⟨anchor, parts⟩ := p
  have hparts := filter_cutString_joined h
  have hhead := head?_joined h
  cases anchor with
  | here =>
    cases parts with
    | nil => decide
    | cons part rest =>
      have hanchor : anchorOf (joined "/" (part :: rest)).toList = .here := by
        cases hc : (joined "/" (part :: rest)).toList with
        | nil => rfl
        | cons c more =>
          rw [hc] at hhead
          have hne : c ≠ '/' := fun hslash => hhead (congrArg some hslash)
          simp [anchorOf, hne]
      simp [ofString, toString, Anchor.toString, hanchor, hparts]
  | root =>
    have hanchor : anchorOf (['/'] ++ (joined "/" parts).toList) = .root := anchorOf_append (by simp) fun _ => hhead
    have hpieces := (filter_cutString_slash (joined "/" parts)).trans hparts
    simp only [List.singleton_append] at hanchor
    simp [ofString, toString, Anchor.toString, hanchor, hpieces]
  | doubleRoot =>
    have hanchor : anchorOf (['/', '/'] ++ (joined "/" parts).toList) = .doubleRoot := anchorOf_append (by simp) fun _ => hhead
    have hpieces := (filter_cutString_slash _).trans ((filter_cutString_slash (joined "/" parts)).trans hparts)
    have htext : "//" ++ joined "/" parts = "/" ++ ("/" ++ joined "/" parts) := by
      rw [← String.append_assoc]
      rfl
    rw [← htext] at hpieces
    simp only [List.cons_append, List.nil_append] at hanchor
    simp [ofString, toString, Anchor.toString, hanchor, hpieces]

/-! ## Names and their stems -/

/-- A text without slashes that says something writes the path of one part. -/
theorem ofString_of_part {name : String} (hpart : isPart name = true) (hslash : '/' ∉ name.toList) : ofString name = here.child name := by
  have hnone : here.IsWritten := by decide
  have hform : (here.child name).toString = name := by simp [toString, child, here, joined, Anchor.toString]
  have hread := ofString_toString (hnone.child hpart hslash)
  rwa [hform] at hread

/-- The last dot of a name and what stands behind it are no part of its stem. -/
theorem stemOf_append {stem suffix : List Char} (hstem : stem ≠ []) (hsuffix : suffix ≠ []) (hdot : '.' ∉ suffix) :
    stemOf (stem ++ '.' :: suffix) = stem := by
  have hreverse : (stem ++ '.' :: suffix).reverse = suffix.reverse ++ '.' :: stem.reverse := by simp
  have hother : ∀ c ∈ suffix.reverse, (c != '.') = true := by
    intro c hc
    rw [bne_iff_ne]
    rintro rfl
    exact hdot (List.mem_reverse.mp hc)
  have hcut : (suffix.reverse ++ '.' :: stem.reverse).takeWhile (· != '.') = suffix.reverse :=
    (takeWhile_append_cons hother (by decide) stem.reverse).1
  have hdrop : (suffix.reverse ++ '.' :: stem.reverse).drop (suffix.reverse.length + 1) = stem.reverse := by
    rw [← List.drop_drop, List.drop_left]
    rfl
  rw [stemOf, hreverse]
  simp only [hcut, hdrop]
  simp [hstem, hsuffix]

/-- The stem of a name that is written with a suffix. -/
theorem stem_ofString {stem suffix : String} (hstem : stem ≠ "") (hsuffix : suffix ≠ "") (hdot : '.' ∉ suffix.toList)
    (hslash : '/' ∉ stem.toList ++ suffix.toList) : (ofString (stem ++ "." ++ suffix)).stem = stem := by
  have hchars : (stem ++ "." ++ suffix).toList = stem.toList ++ '.' :: suffix.toList := by simp
  have hne : ∀ {t : String}, t ≠ "" → t.toList ≠ [] := fun ht h => ht (String.toList_eq_nil_iff.mp h)
  have hlength : 1 < (stem ++ "." ++ suffix).toList.length := by
    have hfront := List.length_pos_iff.mpr (hne hstem)
    rw [hchars, List.length_append, List.length_cons]
    omega
  have hpart : isPart (stem ++ "." ++ suffix) = true := by
    rw [isPart, Bool.and_eq_true, bne_iff_ne, bne_iff_ne]
    constructor
    all_goals
      intro h
      rw [h] at hlength
      exact absurd hlength (by decide)
  have hname : '/' ∉ (stem ++ "." ++ suffix).toList := by
    rw [hchars]
    simpa using hslash
  rw [ofString_of_part hpart hname, Path.stem, name_child, hchars, stemOf_append (hne hstem) (hne hsuffix) hdot, String.ofList_toList]

/-- A written form is not empty. -/
theorem toString_ne_empty {p : Path} (h : p.IsWritten) : p.toString ≠ "" := by
  intro hempty
  have hp := ofString_toString h
  rw [hempty] at hp
  rw [← hp] at hempty
  exact absurd hempty (by decide)

end Path

namespace Disk

open IconForge.Path

/-- A text ends with a slash exactly when its last character is one. -/
theorem endsWith_slash_iff (s : String) : s.endsWith "/" = true ↔ ['/'] <:+ s.toList := by
  rw [← String.endsWith_toSlice, String.Slice.endsWith_string_iff]
  simp

/-- A name behind a written path leads to the child of that name. -/
theorem ofString_under {base name : String} (hbase : base ≠ "") (hpart : isPart name = true) (hslash : '/' ∉ name.toList) :
    ofString (under base name) = (ofString base).child name := by
  have hne : base.toList ≠ [] := fun h => hbase (String.toList_eq_nil_iff.mp h)
  have hname : (cut '/' name.toList).map String.ofList = [name] := by simp [cut_of_not_mem hslash]
  have hkeep : [name].filter isPart = [name] := by simp [hpart]
  unfold under
  by_cases hend : base.endsWith "/" = true
  · obtain ⟨start, hstart⟩ := (endsWith_slash_iff base).mp hend
    have hhead : name.toList.head? ≠ some '/' := fun h => hslash (List.mem_of_mem_head? h)
    have hempty : [String.ofList []].filter isPart = [] := by decide
    have htext : base.toList ++ name.toList = start ++ '/' :: name.toList := by rw [← hstart]; simp
    have hbaseParts : (cutString '/' base).filter isPart = ((cut '/' start).map String.ofList).filter isPart := by
      rw [cutString, ← hstart, cut_append_mark, List.map_append, List.filter_append, cut, List.map_singleton, hempty, List.append_nil]
    rw [if_pos hend]
    simp only [ofString, Path.child, hbaseParts, Path.mk.injEq]
    constructor
    · rw [String.toList_append, anchorOf_append hne fun _ => hhead]
    · rw [cutString, String.toList_append, htext, cut_append_mark, List.map_append, List.filter_append, hname, hkeep]
  · have hlast : base.toList.getLast? ≠ some '/' := by
      intro h
      obtain ⟨start, hstart⟩ := List.getLast?_eq_some_iff.mp h
      exact hend ((endsWith_slash_iff base).mpr ⟨start, hstart.symm⟩)
    have htext : (base ++ "/" ++ name).toList = base.toList ++ '/' :: name.toList := by simp
    rw [if_neg hend]
    simp only [ofString, Path.child, Path.mk.injEq]
    constructor
    · rw [htext, anchorOf_append hne fun h => absurd h hlast]
    · rw [cutString, htext, cut_append_mark, List.map_append, List.filter_append, hname, hkeep]
      rfl

/-- A name below a directory is never written as nothing. -/
theorem under_ne_empty {base name : String} (hpart : isPart name = true) : under base name ≠ "" := by
  intro h
  have hname := ne_empty_of_isPart hpart
  unfold under at h
  split at h <;> simp_all

end Disk

end IconForge
