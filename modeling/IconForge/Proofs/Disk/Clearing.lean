import IconForge.Proofs.Disk.Alike

/-!
# Clearing a place

A place can be cleared when it is free or a directory, when the work is not done in it, and when its path does not lead through it
(`Clearable`): then removing the tree there leaves nothing at and below the place, and touches nothing else (`removeTree_cleared`). Disks
that differ at such a place only are alike once it has been cleared on both (`removeTree_alike`).
-/

namespace IconForge.Disk

/-- The ways back up on a path from a location only leave directories that are there and do not lie at or below a place. -/
def FirmBeside (d : Disk) (base l : Location) : List String → Prop
  | [] => True
  | part :: rest => (part = ".." → d.hasDirectory l = true ∧ ¬base <+: l) ∧ FirmBeside d base (step l part) rest

/-- There is nothing at and below a place, or a directory. -/
def FreeOrDirectory (d : Disk) (base : Location) : Prop := (∀ m, base <+: m → d.get? m = none) ∨ d.hasDirectory base = true

/-- A disk on which the tree that a path leads to can be removed and made anew. -/
structure Clearable (d : Disk) (p : Path) : Prop where
  isTree : d.IsTree
  workingDirectory : d.hasDirectory d.workingDirectory = true
  beside : ¬d.place p <+: d.workingDirectory
  isWritten : p.IsWritten
  isAbsolute : p.isAbsolute = true
  firm : FirmBeside d (d.place p) [] p.parts
  place : FreeOrDirectory d (d.place p)

/-- The same disk but for what lies at or below a place. -/
structure SameBeside (base : Location) (d d' : Disk) : Prop where
  workingDirectory : d'.workingDirectory = d.workingDirectory
  platform : d'.platform = d.platform
  get? : ∀ m, ¬base <+: m → d'.get? m = d.get? m

/-- A disk on which there is nothing at and below a place, and all is as before elsewhere. -/
structure Cleared (base : Location) (d d' : Disk) : Prop where
  workingDirectory : d'.workingDirectory = d.workingDirectory
  platform : d'.platform = d.platform
  get? : ∀ m, d'.get? m = if base <+: m then none else d.get? m

/-- No contents may differ. -/
def nowhere : Location → List UInt8 → List UInt8 → Prop := fun _ _ _ => False

variable {d d' : Disk} {p : Path} {base l m : Location} {parts rest : List String} {name : String}

/-! ## Firm paths -/

/-- A path that is firm beside a place is firm. -/
theorem FirmBeside.firm (h : d.FirmBeside base l parts) : d.Firm l parts := by
  induction parts generalizing l with
  | nil => trivial
  | cons part rest ih => exact ⟨fun hup => (h.1 hup).1, ih h.2⟩

/-- A path stays firm beside a place as long as the directories beside it stay. -/
theorem FirmBeside.mono (hstay : ∀ l, ¬base <+: l → d.hasDirectory l = true → d'.hasDirectory l = true) (h : d.FirmBeside base l parts) :
    d'.FirmBeside base l parts := by
  induction parts generalizing l with
  | nil => trivial
  | cons part rest ih => exact ⟨fun hup => ⟨hstay l (h.1 hup).2 (h.1 hup).1, (h.1 hup).2⟩, ih h.2⟩

/-- The end of a firm path is firm from where its start leads. -/
theorem FirmBeside.of_append (h : d.FirmBeside base l (parts ++ rest)) : d.FirmBeside base (descend l parts) rest := by
  induction parts generalizing l with
  | nil => exact h
  | cons part parts ih => exact ih h.2

/-- From the place on, such a path leads down only. -/
theorem FirmBeside.descend_of_prefix (h : d.FirmBeside base l parts) (hpre : base <+: l) : descend l parts = l ++ parts := by
  induction parts generalizing l with
  | nil => simp [descend]
  | cons part rest ih =>
    have hup : part ≠ ".." := fun hup => (h.1 hup).2 hpre
    have hstep : step l part = l ++ [part] := step_of_ne hup
    have hrest := ih h.2 (hstep ▸ hpre.trans (List.prefix_append _ _))
    rw [hstep] at hrest
    rw [descend, List.foldl_cons, hstep]
    simpa [descend] using hrest

/-- What comes on the way to the place does not lie at or below it. -/
theorem FirmBeside.not_prefix {front : List String} {part : String} (h : d.FirmBeside base l (front ++ part :: rest))
    (hend : descend l (front ++ part :: rest) = base) : ¬base <+: descend l front := by
  intro hpre
  have hlen := hpre.length_le
  rw [descend_append, h.of_append.descend_of_prefix hpre] at hend
  rw [← hend, List.length_append, List.length_cons] at hlen
  omega

/-- A path is looked up in the same way as long as the same entries are on the way. -/
theorem walk_congr (h : ∀ front part rest, parts = front ++ part :: rest → d'.get? (descend l front) = d.get? (descend l front)) :
    d'.walk l parts = d.walk l parts := by
  induction parts generalizing l with
  | nil => rfl
  | cons part rest ih =>
    have hhere : d'.get? l = d.get? l := h [] part rest rfl
    have hstep : (if part = ".." then l.dropLast else l ++ [part]) = step l part := rfl
    rw [walk, walk, hhere, hstep]
    have hrest : d'.walk (step l part) rest = d.walk (step l part) rest := by
      refine ih fun front part' rest' heq => ?_
      have hfront := h (part :: front) part' rest' (by rw [heq]; rfl)
      exact hfront
    rw [hrest]

namespace Clearable

variable (h : d.Clearable p)
include h

theorem descend_eq : descend [] p.parts = d.place p := (place_of_isAbsolute h.isAbsolute d).symm

theorem parts_ne : p.parts ≠ [] := by
  intro hnil
  refine h.beside ?_
  rw [← h.descend_eq, hnil]
  exact List.nil_prefix

/-- The path ends with a name. -/
theorem exists_child : ∃ q name, p = Path.child q name ∧ name ≠ ".." := by
  obtain ⟨front, name, hsplit⟩ := List.eq_nil_or_concat p.parts |>.resolve_left h.parts_ne
  rw [List.concat_eq_append] at hsplit
  have hlast : p.parts.getLast? = some name := by rw [hsplit, List.getLast?_append]; rfl
  refine ⟨p.parent, name, eq_child_of_getLast? hlast, fun hup => ?_⟩
  have hfirm := h.firm
  rw [hsplit] at hfirm
  -- A way back up at the end would lead from below the place.
  refine (hfirm.of_append.1 hup).2 ?_
  rw [← h.descend_eq, hsplit, descend_append, hup]
  exact List.dropLast_prefix _

/-- The tree can still be removed on a later disk, if the directories elsewhere have stayed. -/
theorem later (htree : d'.IsTree) (hwd : d'.workingDirectory = d.workingDirectory)
    (hstay : ∀ l, ¬d.place p <+: l → d.hasDirectory l = true → d'.hasDirectory l = true) (hfree : FreeOrDirectory d' (d.place p)) :
    d'.Clearable p := by
  have hplace : d'.place p = d.place p := place_of_workingDirectory hwd p
  refine ⟨htree, ?_, by rw [hplace, hwd]; exact h.beside, h.isWritten, h.isAbsolute, ?_, by rwa [hplace]⟩
  · rw [hwd]
    exact hstay _ h.beside h.workingDirectory
  · rw [hplace]
    exact h.firm.mono hstay

/-- The root of a disk cannot be cleared. -/
theorem place_ne : d.place p ≠ [] := fun hnil => h.beside (hnil ▸ List.nil_prefix)

/-- Disks that are the same beside the place look the path up in the same way. -/
theorem locate_congr (hsame : ∀ m, ¬d.place p <+: m → d'.get? m = d.get? m) : d'.locate p = d.locate p := by
  rw [locate, locate, start_of_isAbsolute h.isAbsolute, start_of_isAbsolute h.isAbsolute]
  congr 1
  refine walk_congr fun front part rest hsplit => hsame _ ?_
  have hfirm := h.firm
  rw [hsplit] at hfirm
  exact hfirm.not_prefix (hsplit ▸ h.descend_eq)

/-- A path to a directory is looked up. -/
theorem locate_eq_ok (hdir : d.hasDirectory (d.place p) = true) : d.locate p = .ok (d.place p) :=
  h.firm.firm.locate h.isTree h.isAbsolute (fun part hpart => Path.ne_empty_of_isPart (h.isWritten part hpart).1)
    (isThere_of_hasDirectory hdir)

/-- Clearing and erasing the place leaves all else as it is. -/
theorem cleared : Cleared (d.place p) d ((d.clear (d.place p)).erase (d.place p)) := by
  have hbelow : (!isBelow d.workingDirectory (d.place p)) = true := by
    rw [Bool.not_eq_true', ← Bool.not_eq_true]
    exact fun hb => h.beside (isBelow_iff.mp hb).1
  have hprefix : (!(d.place p).isPrefixOf d.workingDirectory) = true := by
    rw [Bool.not_eq_true', ← Bool.not_eq_true, List.isPrefixOf_iff_prefix]
    exact h.beside
  obtain ⟨hclear, hdir⟩ := settled_of_keep (fun m => !isBelow m (d.place p)) h.workingDirectory hbelow
  obtain ⟨herase, -⟩ := settled_of_keep (d := { d with entries := d.entries.filter fun x => !isBelow x.1 (d.place p) })
    (fun m => !(d.place p).isPrefixOf m) hdir hprefix
  rw [Disk.erase, Disk.clear, hclear, herase]
  refine ⟨rfl, rfl, fun m => ?_⟩
  by_cases hm : m = []
  · rw [hm, if_neg fun hpre => h.place_ne (List.prefix_nil.mp hpre)]
    rfl
  rw [get?_filter _ (fun m => !(d.place p).isPrefixOf m) hm, get?_filter d (fun m => !isBelow m (d.place p)) hm]
  by_cases hpre : d.place p <+: m
  · rw [if_pos hpre, if_neg]
    simpa using hpre
  · have hnot : ¬isBelow m (d.place p) = true := fun hb => hpre (isBelow_iff.mp hb).1
    have hnot' : (!(d.place p).isPrefixOf m) = true := by
      rw [Bool.not_eq_true', ← Bool.not_eq_true, List.isPrefixOf_iff_prefix]
      exact hpre
    rw [if_neg hpre, if_pos hnot', if_pos (by simpa using hnot)]

/-- A directory at the place is cleared and erased. -/
theorem removeTree_of_directory (hdir : d.hasDirectory (d.place p) = true) :
    d.removeTree p = (.ok (), (d.clear (d.place p)).erase (d.place p)) := by
  have hl := h.locate_eq_ok hdir
  have hl' : (d.clear (d.place p)).locate p = .ok (d.place p) := by
    refine (h.locate_congr fun m hm => ?_).trans hl
    have hbelow : (!isBelow d.workingDirectory (d.place p)) = true := by
      rw [Bool.not_eq_true', ← Bool.not_eq_true]
      exact fun hb => h.beside (isBelow_iff.mp hb).1
    rw [clear, (settled_of_keep (fun m => !isBelow m (d.place p)) h.workingDirectory hbelow).1]
    by_cases hnil : m = []
    · rw [hnil]
      rfl
    · have hnot : ¬isBelow m (d.place p) = true := fun hb => hm (isBelow_iff.mp hb).1
      rw [get?_filter d (fun m => !isBelow m (d.place p)) hnil, if_pos (by simpa using hnot)]
  obtain ⟨q, name, hq, hup⟩ := h.exists_child
  have hlast : p.parts.getLast? = some name := by rw [hq]; simp [Path.child]
  have hempty : (d.clear (d.place p)).removeEmptied p = .ok ((d.clear (d.place p)).erase (d.place p)) := by
    unfold removeEmptied
    split
    · rename_i hnone
      rw [hlast] at hnone
      cases hnone
    · rename_i hdots
      rw [hlast, Option.some.injEq] at hdots
      exact absurd hdots hup
    · rw [hl']
      rfl
  rw [removeTree, pathExists_eq_ok_iff.mpr ⟨_, hl, isThere_of_hasDirectory hdir⟩, hl]
  simp only [hdir, if_true, hempty]

omit h in
/-- Where no directory is nothing changes, although the removal may be refused. -/
theorem removeTree_of_free (hdir : d.hasDirectory (d.place p) = false) : (d.removeTree p).2 = d := by
  rcases removeTree_cases d p with ⟨r, hr, -⟩ | ⟨l, hl, hdir', -⟩
  · rw [hr]
  · rw [eq_place_of_locate hl, hdir] at hdir'
    cases hdir'

/-- A place that can be cleared and holds no directory is free, with all that would lie below it. -/
theorem free_of_not_directory (hdir : d.hasDirectory (d.place p) = false) : ∀ m, d.place p <+: m → d.get? m = none :=
  h.place.resolve_right (Bool.eq_false_iff.mp hdir)

/-- Removing the tree leaves nothing at and below the place, and all else as it is. -/
theorem removeTree_cleared : Cleared (d.place p) d (d.removeTree p).2 := by
  cases hdir : d.hasDirectory (d.place p) with
  | true =>
    rw [h.removeTree_of_directory hdir]
    exact h.cleared
  | false =>
    rw [removeTree_of_free hdir]
    refine ⟨rfl, rfl, fun m => ?_⟩
    split
    · exact h.free_of_not_directory hdir m ‹_›
    · rfl

/-- A place that is free is looked up, if it is looked up where there is a directory, and so its removal is not refused. -/
theorem removeTree_of_sameBeside (h' : d'.Clearable p) (hsame : SameBeside (d.place p) d d') (hdir : d.hasDirectory (d.place p) = false)
    (hdir' : d'.hasDirectory (d.place p) = true) : (d.removeTree p).1 = .ok () := by
  have hplace : d'.place p = d.place p := by rw [place_of_isAbsolute h.isAbsolute, place_of_isAbsolute h.isAbsolute]
  have hl : d.locate p = .ok (d.place p) := by
    rw [← h.locate_congr hsame.get?, ← hplace]
    exact h'.locate_eq_ok (hplace ▸ hdir')
  have hexists : d.pathExists p = .ok false := by
    rw [pathExists, ask, status, hl]
    simp only [h.free_of_not_directory hdir _ (List.prefix_refl _)]
  rw [removeTree, hexists]

end Clearable

theorem SameBeside.symm (h : SameBeside base d d') : SameBeside base d' d :=
  ⟨h.workingDirectory.symm, h.platform.symm, fun m hm => (h.get? m hm).symm⟩

/-- Disks that are the same beside a place are alike once it has been cleared, and that is answered the same. -/
theorem removeTree_alike (h : d.Clearable p) (h' : d'.Clearable p) (hsame : SameBeside (d.place p) d d') :
    AlikeEnds nowhere (d.removeTree p) (d'.removeTree p) := by
  have hplace : d'.place p = d.place p := by rw [place_of_isAbsolute h.isAbsolute, place_of_isAbsolute h.isAbsolute]
  have hc := h.removeTree_cleared
  have hc' := h'.removeTree_cleared
  refine ⟨?_, ⟨by rw [hc.workingDirectory, hc'.workingDirectory, hsame.workingDirectory],
    by rw [hc.platform, hc'.platform, hsame.platform], fun m => ?_⟩⟩
  · cases hdir : d.hasDirectory (d.place p) with
    | true =>
      rw [h.removeTree_of_directory hdir]
      cases hdir' : d'.hasDirectory (d.place p) with
      | true => rw [h'.removeTree_of_directory (hplace ▸ hdir')]
      | false => exact h'.removeTree_of_sameBeside h (hplace ▸ hsame.symm) (hplace ▸ hdir') (hplace ▸ hdir)
    | false =>
      cases hdir' : d'.hasDirectory (d.place p) with
      | true =>
        rw [h.removeTree_of_sameBeside h' hsame hdir hdir', h'.removeTree_of_directory (hplace ▸ hdir')]
      | false =>
        -- Nothing is there on either disk, so that they are the same.
        have halike : Alike nowhere d d' := .of_get? hsame.workingDirectory hsame.platform fun m => by
          by_cases hm : d.place p <+: m
          · rw [h.free_of_not_directory hdir m hm, h'.free_of_not_directory (hplace ▸ hdir') m (hplace ▸ hm)]
          · exact hsame.get? m hm
        exact (halike.removeTree p).1
  · rw [hc.get?, hc'.get?, hplace]
    by_cases hm : d.place p <+: m
    · rw [if_pos hm, if_pos hm]
      exact .same _
    · rw [if_neg hm, if_neg hm, hsame.get? m hm]
      exact .same _

end IconForge.Disk
