import IconForge.Disk.Edit
import IconForge.Proofs.Disk.Place
import IconForge.Proofs.Path.Written

/-!
# What changing the disk leaves alone

Removing a tree touches nothing but what lies at and below the place of its path (`removeTree_spares`), making directories only adds
directories where a start of the path leads (`makeDirs_opens`), and writing a file touches its place only (`writeText_grows`). A disk
that is a tree stays one through all of them.
-/

namespace IconForge.Disk

/-- A later disk on which all is as it was, but at free places and for directories that have been made. The working directory may be
gone. -/
structure Spares (free made : Location → Prop) (d d' : Disk) : Prop where
  start : SameStart d d'
  outside : ∀ l, isStray l = false → ¬free l → d'.get? l = d.get? l ∨ d.get? l = none ∧ made l ∧ d'.get? l = some .directory

/-- A later disk on which all is as it was, but at free places and for directories that have been made, and on which every
directory is still there. -/
structure Grows (free made : Location → Prop) (d d' : Disk) : Prop where
  workingDirectory : d'.workingDirectory = d.workingDirectory
  platform : d'.platform = d.platform
  directories : ∀ l, d.hasDirectory l = true → d'.hasDirectory l = true
  outside : ∀ l, ¬free l → d'.get? l = d.get? l ∨ d.get? l = none ∧ made l ∧ d'.get? l = some .directory

variable {free made : Location → Prop} {d d' d'' : Disk} {p q : Path} {l : Location} {e : Entry} {name : String}

/-! ## Changes in a row -/

/-- An entry that is as it was, or a directory where nothing was, stays so under one more change of this kind. -/
theorem unchanged_trans {old now new : Option Entry} {h : Prop} (hold : now = old ∨ old = none ∧ h ∧ now = some .directory)
    (hnew : new = now ∨ now = none ∧ h ∧ new = some .directory) : new = old ∨ old = none ∧ h ∧ new = some .directory := by
  rcases hold with rfl | ⟨rfl, hm, rfl⟩
  · exact hnew
  · rcases hnew with rfl | ⟨hnone, -⟩
    · exact .inr ⟨rfl, hm, rfl⟩
    · cases hnone

namespace Spares

theorem refl (d : Disk) : Spares free made d d := ⟨.refl d, fun _ _ _ => .inl rfl⟩

theorem trans (h : Spares free made d d') (h' : Spares free made d' d'') : Spares free made d d'' :=
  ⟨h.start.trans h'.start, fun l hl hfree => unchanged_trans (h.outside l hl hfree) (h'.outside l hl hfree)⟩

/-- A file outside is still there. -/
theorem file (h : Spares free made d d') {content : List UInt8} (hl : isStray l = false) (hfree : ¬free l)
    (hfile : d.get? l = some (.file content)) : d'.get? l = some (.file content) := by
  rcases h.outside l hl hfree with heq | ⟨hnone, -⟩
  · rw [heq, hfile]
  · rw [hfile] at hnone
    cases hnone

end Spares

namespace Grows

theorem refl (d : Disk) : Grows free made d d := ⟨rfl, rfl, fun _ h => h, fun _ _ => .inl rfl⟩

theorem trans (h : Grows free made d d') (h' : Grows free made d' d'') : Grows free made d d'' where
  workingDirectory := h'.workingDirectory.trans h.workingDirectory
  platform := h'.platform.trans h.platform
  directories := fun l hl => h'.directories l (h.directories l hl)
  outside := fun l hfree => unchanged_trans (h.outside l hfree) (h'.outside l hfree)

/-- A disk has grown at more places and with more directories, too. -/
theorem mono {free' made' : Location → Prop} (h : Grows free made d d') (hfree : ∀ l, free l → free' l) (hmade : ∀ l, made l → made' l) :
    Grows free' made' d d' where
  workingDirectory := h.workingDirectory
  platform := h.platform
  directories := h.directories
  outside := fun l hl => (h.outside l fun hf => hl (hfree l hf)).imp_right fun ⟨hnone, hm, hdir⟩ => ⟨hnone, hmade l hm, hdir⟩

/-- A disk that has grown is one on which the rest is spared. -/
theorem spares (h : Grows free made d d') : Spares free made d d' := ⟨.inl h.workingDirectory, fun l _ hfree => h.outside l hfree⟩

/-- What a path leads to does not change when the disk grows. -/
theorem locate (h : Grows free made d d') (hp : d.locate p = .ok l) : d'.locate p = .ok l :=
  locate_of_directories h.workingDirectory h.directories hp

/-- Putting an entry at a free place where no directory is. -/
theorem put (hl : l ≠ []) (hplace : e = .directory ∨ d.get? l ≠ some .directory) (hfree : free l) : Grows free made d (d.put l e) where
  workingDirectory := rfl
  platform := rfl
  directories := by
    intro m hm
    rw [hasDirectory_iff] at hm ⊢
    rw [get?_put hl]
    split
    · rename_i heq
      rcases hplace with rfl | hplace
      · rfl
      · exact absurd (heq ▸ hm) hplace
    · exact hm
  outside := by
    intro m hm
    have hne : m ≠ l := fun heq => hm (heq ▸ hfree)
    rw [get?_put hl, if_neg hne]
    exact .inl rfl

/-- Making a directory where nothing is. -/
theorem make (hl : l ≠ []) (hnone : d.get? l = none) (hmade : made l) : Grows free made d (d.put l .directory) where
  workingDirectory := rfl
  platform := rfl
  directories := (@put (fun _ => True) made d l _ hl (.inl rfl) trivial).directories
  outside := by
    intro m _
    rw [get?_put hl]
    split
    · rename_i heq
      exact .inr ⟨heq ▸ hnone, heq ▸ hmade, rfl⟩
    · exact .inl rfl

end Grows

/-! ## Putting entries -/

/-- The last part of a path that is looked up names an entry. -/
theorem isName_of_locate (hw : (q.child name).IsWritten) (hup : name ≠ "..") (h : d.locate (q.child name) = .ok l) : IsName name := by
  obtain ⟨base, -, -, -, hzero, hshort, -⟩ := (locate_child_eq_ok_iff hup).mp h
  obtain ⟨hpart, hslash⟩ := hw name (by simp [Path.child])
  exact ⟨hpart, hup, hslash, hzero, hshort⟩

/-- A tree stays one when an entry is put where a path leads, and no file takes the place of a directory. -/
theorem IsTree.put_locate (htree : d.IsTree) (hw : (q.child name).IsWritten) (hup : name ≠ "..") (h : d.locate (q.child name) = .ok l)
    (hplace : e = .directory ∨ d.get? l ≠ some .directory) : (d.put l e).IsTree := by
  have hname := isName_of_locate hw hup h
  obtain ⟨base, -, hdir, hbase, -, -, rfl⟩ := (locate_child_eq_ok_iff hup).mp h
  exact htree.put hname hdir hbase hplace

/-- A path behind a name does not lead to the root. -/
theorem ne_nil_of_locate (hup : name ≠ "..") (h : d.locate (q.child name) = .ok l) : l ≠ [] := by
  obtain ⟨base, -, -, -, -, -, rfl⟩ := (locate_child_eq_ok_iff hup).mp h
  simp

/-- A path with parts is the child of its last one. -/
theorem eq_child_of_getLast? (h : p.parts.getLast? = some name) : p = p.parent.child name := by
  obtain ⟨front, hfront⟩ := List.getLast?_eq_some_iff.mp h
  obtain ⟨anchor, parts⟩ := p
  simp only at hfront
  simp [Path.child, Path.parent, hfront]

/-- A directory is made where nothing is, at the end of a path behind a name. -/
theorem makeDirectory_eq_ok (h : d.makeDirectory p = .ok d') :
    ∃ q name l, p = Path.child q name ∧ name ≠ ".." ∧ d.locate p = .ok l ∧ d.get? l = none ∧ d' = d.put l .directory := by
  unfold makeDirectory at h
  split at h
  · cases h
  · cases hl : d.locate p.parent with
    | error r => simp [hl, bind, Except.bind] at h
    | ok l => cases hg : d.get? l with
      | none => simp [hl, hg, bind, Except.bind] at h
      | some e => cases e <;> simp [hl, hg, bind, Except.bind] at h
  · rename_i name hup hlast
    cases hl : d.locate p with
    | error r => simp [hl, bind, Except.bind] at h
    | ok l => cases hg : d.get? l with
      | some e => simp [hl, hg, bind, Except.bind] at h
      | none =>
        simp only [hl, hg, bind, Except.bind, pure, Except.pure, Except.ok.injEq] at h
        exact ⟨p.parent, name, l, eq_child_of_getLast? hlast, hup, rfl, hg, h.symm⟩

/-- A file is written where no directory is. -/
theorem writeBytes_eq_ok {content : List UInt8} (h : d.writeBytes p content = .ok d') :
    ∃ l, d.locate p = .ok l ∧ d.get? l ≠ some .directory ∧ d' = d.put l (.file content) := by
  unfold writeBytes at h
  cases hl : d.locate p with
  | error r => simp [hl, bind, Except.bind] at h
  | ok l =>
    simp only [hl, bind, Except.bind] at h
    refine ⟨l, rfl, ?_⟩
    split at h
    · cases h
    · rename_i hne
      exact ⟨hne, (Except.ok.inj h).symm⟩

/-- What has been emptied is erased where the path leads. -/
theorem removeEmptied_eq_ok (h : d.removeEmptied p = .ok d') :
    ∃ q name l, p = Path.child q name ∧ name ≠ ".." ∧ d.locate p = .ok l ∧ d' = d.erase l := by
  unfold removeEmptied at h
  split at h
  · split at h <;> cases h
  · cases hl : d.locate p.parent with
    | error r => simp [hl, bind, Except.bind] at h
    | ok l => cases hg : d.get? l with
      | none => simp [hl, hg, bind, Except.bind] at h
      | some e => cases e <;> simp [hl, hg, bind, Except.bind] at h
  · rename_i name hup hlast
    cases hl : d.locate p with
    | error r => simp [hl, bind, Except.bind] at h
    | ok l =>
      simp only [hl, bind, Except.bind, pure, Except.pure, Except.ok.injEq] at h
      exact ⟨p.parent, name, l, eq_child_of_getLast? hlast, hup, rfl, h.symm⟩

/-! ## Removing a tree -/

/-- A settled disk has its working directory where it was, or it is gone. -/
theorem sameStart_settled (d : Disk) : SameStart d d.settled := by
  unfold settled
  split
  · exact .inl rfl
  · exact .inr rfl

theorem sameStart_clear (d : Disk) (l : Location) : SameStart d (d.clear l) :=
  sameStart_settled { d with entries := d.entries.filter fun x => !isBelow x.1 l }

theorem sameStart_erase (d : Disk) (l : Location) : SameStart d (d.erase l) :=
  sameStart_settled { d with entries := d.entries.filter fun x => !l.isPrefixOf x.1 }

/-- Clearing a location touches only what lies below it. -/
theorem spares_clear (hfree : ∀ m, l <+: m → free m) : Spares free made d (d.clear l) where
  start := sameStart_clear d l
  outside := by
    intro m hm hnot
    rw [get?_clear d l hm, if_neg fun hbelow => hnot (hfree m (isBelow_iff.mp hbelow).1)]
    exact .inl rfl

/-- Erasing a location touches only what lies at or below it. -/
theorem spares_erase (hl : l ≠ []) (hfree : ∀ m, l <+: m → free m) : Spares free made d (d.erase l) where
  start := sameStart_erase d l
  outside := by
    intro m hm hnot
    rw [get?_erase d hl hm, if_neg fun hpre => hnot (hfree m hpre)]
    exact .inl rfl

/-- Removing a tree leaves the disk as it is, or it clears the location of a directory, and then erases what the path leads to. -/
theorem removeTree_cases (d : Disk) (p : Path) :
    (∃ r, d.removeTree p = (r, d) ∧ (r = .ok () → d.pathExists p = .ok false)) ∨
    ∃ l, d.locate p = .ok l ∧ d.hasDirectory l = true ∧ ((∃ f, d.removeTree p = (.error f, d.clear l)) ∨
      ∃ d', (d.clear l).removeEmptied p = .ok d' ∧ d.removeTree p = (.ok (), d')) := by
  unfold removeTree
  cases hexists : d.pathExists p with
  | error r => exact .inl ⟨_, rfl, fun h => by cases h⟩
  | ok there =>
    cases there with
    | false => exact .inl ⟨_, rfl, fun _ => rfl⟩
    | true =>
      cases hl : d.locate p with
      | error r => exact .inl ⟨_, rfl, fun h => by cases h⟩
      | ok l =>
        by_cases hdir : d.hasDirectory l = true
        · refine .inr ⟨l, rfl, hdir, ?_⟩
          simp only [hdir, if_true]
          cases (d.clear l).removeEmptied p with
          | error r => exact .inl ⟨_, rfl⟩
          | ok d' => exact .inr ⟨d', rfl, rfl⟩
        · simp only [hdir, if_false, Bool.false_eq_true]
          exact .inl ⟨_, rfl, fun h => by cases h⟩

/-- Removing a tree touches only what lies at or below the place of its path. -/
theorem removeTree_spares (hfree : ∀ m, d.place p <+: m → free m) : Spares free made d (d.removeTree p).2 := by
  rcases removeTree_cases d p with ⟨r, hr, -⟩ | ⟨l, hl, -, hr⟩
  · rw [hr]
    exact .refl d
  have hplace : l = d.place p := eq_place_of_locate hl
  have hclear : Spares free made d (d.clear l) := spares_clear fun m hm => hfree m (hplace ▸ hm)
  rcases hr with ⟨f, hr⟩ | ⟨d', hempty, hr⟩
  · rw [hr]
    exact hclear
  · obtain ⟨q, name, l', rfl, hup, hl', rfl⟩ := removeEmptied_eq_ok hempty
    have hplace' : l' = d.place (q.child name) := locate_eq_place hclear.start hl' (.inl (by simp [Path.child]))
    rw [hr]
    exact hclear.trans (spares_erase (ne_nil_of_locate hup hl') fun m hm => hfree m (hplace' ▸ hm))

/-- A tree stays one when a part of it is removed. -/
theorem IsTree.removeTree (h : d.IsTree) (p : Path) : (d.removeTree p).2.IsTree := by
  rcases removeTree_cases d p with ⟨r, hr, -⟩ | ⟨l, -, -, ⟨f, hr⟩ | ⟨d', hempty, hr⟩⟩
  · rwa [hr]
  · rw [hr]
    exact h.clear l
  · obtain ⟨q, name, l', rfl, hup, hl', rfl⟩ := removeEmptied_eq_ok hempty
    rw [hr]
    exact (h.clear l).erase (ne_nil_of_locate hup hl')

/-- Where the working directory is not taken out, nothing is kept in its place. -/
theorem settled_of_keep (keep : Location → Bool) (hwd : d.hasDirectory d.workingDirectory = true)
    (hkeep : keep d.workingDirectory = true) :
    let d' : Disk := { d with entries := d.entries.filter fun x => keep x.1 }
    d'.settled = d' ∧ d'.hasDirectory d.workingDirectory = true := by
  have hstays : hasDirectory { d with entries := d.entries.filter fun x => keep x.1 } d.workingDirectory = true := by
    rw [hasDirectory_iff] at hwd ⊢
    by_cases hnil : d.workingDirectory = []
    · rw [hnil]
      rfl
    · rw [get?_filter d keep hnil, if_pos hkeep, hwd]
  exact ⟨if_pos hstays, hstays⟩

/-- A working directory that is not taken out stays where it is. -/
theorem workingDirectory_of_keep (keep : Location → Bool) (hwd : d.hasDirectory d.workingDirectory = true)
    (hkeep : keep d.workingDirectory = true) :
    let d' := settled { d with entries := d.entries.filter fun x => keep x.1 }
    d'.workingDirectory = d.workingDirectory ∧ d'.hasDirectory d.workingDirectory = true := by
  obtain ⟨hsettled, hstays⟩ := settled_of_keep keep hwd hkeep
  simp only [hsettled]
  exact ⟨trivial, hstays⟩

/-- A working directory that does not lie below a location stays where it is when that is cleared and erased. -/
theorem workingDirectory_of_erase (hwd : d.hasDirectory d.workingDirectory = true) (hnot : ¬l <+: d.workingDirectory) :
    ((d.clear l).erase l).workingDirectory = d.workingDirectory := by
  have hbelow : ¬isBelow d.workingDirectory l = true := fun hb => hnot (isBelow_iff.mp hb).1
  obtain ⟨hsame, hdir⟩ := workingDirectory_of_keep (fun m => !isBelow m l) hwd (by simpa using hbelow)
  have hdir' : (d.clear l).hasDirectory (d.clear l).workingDirectory = true := hsame.symm ▸ hdir
  have hkeep : (!l.isPrefixOf (d.clear l).workingDirectory) = true := by
    rw [clear, hsame, Bool.not_eq_true', ← Bool.not_eq_true, List.isPrefixOf_iff_prefix]
    exact hnot
  exact (workingDirectory_of_keep (fun m => !l.isPrefixOf m) hdir' hkeep).1.trans hsame

/-- A disk on which there was a tree at the place of a path, which is gone now. -/
structure Removed (p : Path) (d d' : Disk) : Prop where
  start : SameStart d d'
  workingDirectory : d.hasDirectory d.workingDirectory = true → ¬d.place p <+: d.workingDirectory →
    d'.workingDirectory = d.workingDirectory
  isTree : d'.IsTree
  get? : ∀ l, isStray l = false → d'.get? l = if d.place p <+: l then none else d.get? l
  /-- Where a start of the path leads there is something, or it lies above the place. -/
  fronts : ∀ front, front <+: p.parts → ¬d'.IsThere (descend [] front) → descend [] front <+: d.place p

/-- All directories on a way that can be walked are there. -/
theorem hasDirectory_of_walk {front rest : List String} {part : String} {m : Location}
    (h : d.walk l (front ++ part :: rest) = .ok m) : d.hasDirectory (descend l front) = true := by
  rw [walk_append] at h
  cases hfront : d.walk l front with
  | error r =>
    rw [hfront] at h
    cases h
  | ok m' =>
    rw [hfront] at h
    rw [← walk_eq_ok hfront]
    exact (walk_cons_eq_ok_iff.mp h).1

section
variable (htree : d.IsTree) (hw : p.IsWritten) (habs : p.isAbsolute = true)
include htree hw habs

/-- A firm path from the root that leads nowhere has nothing at its place. -/
theorem removed_of_absent (hfirm : d.Firm [] p.parts) (h : d.pathExists p = .ok false) : Removed p d d := by
  have hparts : ∀ part ∈ p.parts, part ≠ "" := fun part hpart => Path.ne_empty_of_isPart (hw part hpart).1
  have hgone : ¬d.IsThere (d.place p) := by
    intro hthere
    have hfound := pathExists_eq_ok_iff.mpr ⟨_, hfirm.locate htree habs hparts hthere, hthere⟩
    rw [h] at hfound
    cases hfound
  refine ⟨.refl d, fun _ _ => rfl, htree, fun l hl => ?_, fun front hfront hthere => ?_⟩
  · split
    · rename_i hpre
      obtain ⟨rel, rfl⟩ := hpre
      refine get?_eq_none_of_not_isThere fun hthere => ?_
      by_cases hrel : rel = []
      · exact hgone (by rwa [hrel, List.append_nil] at hthere)
      · have hnames : ∀ name ∈ rel, name ≠ "" := fun name hname =>
          (htree.named hl hthere name (List.mem_append_right _ hname)).ne_empty
        exact hgone (isThere_of_hasDirectory (htree.hasDirectory_of_isThere hrel hnames hthere))
    · rfl
  · obtain ⟨rest, hrest⟩ := hfront
    rw [← hrest] at hfirm hparts
    rw [place_of_isAbsolute habs, ← hrest, descend_append]
    exact hfirm.of_append.prefix_descend htree (fun part hpart => hparts part (List.mem_append_right _ hpart)) hthere

omit htree in
/-- On the way to a place that has been cleared there was a directory when it was erased, so that what is gone of the way is the place. -/
theorem prefix_of_erased (hne : d.place p ≠ []) (h : (d.clear (d.place p)).locate p = .ok (d.place p)) {front : List String}
    (hfront : front <+: p.parts) (hthere : ¬((d.clear (d.place p)).erase (d.place p)).IsThere (descend [] front)) :
    descend [] front <+: d.place p := by
  obtain ⟨rest, hrest⟩ := hfront
  cases rest with
  | nil =>
    have hend : descend [] front = d.place p := by rw [place_of_isAbsolute habs, ← hrest, List.append_nil]
    exact hend ▸ List.prefix_refl _
  | cons part rest =>
    have hwalk := (locate_eq_ok_iff.mp h).2
    rw [start_of_isAbsolute habs, ← hrest] at hwalk
    have hdir := hasDirectory_iff.mp (hasDirectory_of_walk hwalk)
    have hnames : ∀ q ∈ front, q ≠ "" := fun q hq =>
      Path.ne_empty_of_isPart (hw q (hrest ▸ List.mem_append_left _ hq)).1
    have hkept := isStray_of_forall_ne (ne_empty_of_mem_descend (l := []) (by simp) hnames)
    have hat : d.place p <+: descend [] front := by
      by_contra hpre
      rw [IsThere, get?_erase _ hne hkept, if_neg hpre, hdir] at hthere
      exact hthere rfl
    rw [get?_clear d _ hkept] at hdir
    split at hdir
    · cases hdir
    · rename_i hbelow
      have heq : descend [] front = d.place p := by
        by_contra hne'
        exact hbelow (isBelow_iff.mpr ⟨hat, hne'⟩)
      exact heq ▸ List.prefix_refl _

/-- Behind clearing and erasing the place of a path nothing is left of it. -/
theorem removed_of_erase (hne : d.place p ≠ []) (h : (d.clear (d.place p)).locate p = .ok (d.place p)) :
    Removed p d ((d.clear (d.place p)).erase (d.place p)) where
  start := (sameStart_clear d _).trans (sameStart_erase _ _)
  isTree := (htree.clear _).erase hne
  workingDirectory := workingDirectory_of_erase
  get? := by
    intro m hm
    rw [get?_erase _ hne hm, get?_clear d _ hm]
    split
    · rfl
    · rename_i hpre
      rw [if_neg fun hb => hpre (isBelow_iff.mp hb).1]
  fronts := fun _ hfront hthere => prefix_of_erased hw habs hne h hfront hthere

/-- Removing a tree by a firm path from the root leaves nothing at its place. -/
theorem removeTree_eq_ok (hfirm : d.Firm [] p.parts) (h : d.removeTree p = (.ok (), d')) : Removed p d d' := by
  rcases removeTree_cases d p with ⟨r, hr, hno⟩ | ⟨l, hl, -, ⟨f, hr⟩ | ⟨d₂, hempty, hr⟩⟩
  · obtain ⟨rfl, rfl⟩ := Prod.mk.inj (hr.symm.trans h)
    exact removed_of_absent htree hw habs hfirm (hno rfl)
  · cases (Prod.mk.inj (hr.symm.trans h)).1
  · obtain rfl : d₂ = d' := (Prod.mk.inj (hr.symm.trans h)).2
    obtain ⟨q, name, l', rfl, hup, hl', rfl⟩ := removeEmptied_eq_ok hempty
    obtain rfl : l = d.place (q.child name) := eq_place_of_locate hl
    obtain rfl : l' = d.place (q.child name) := locate_eq_place (sameStart_clear d _) hl' (.inl (by simp [Path.child]))
    exact removed_of_erase htree hw habs (ne_nil_of_locate hup hl') hl'

end

/-! ## Making directories -/

/-- A place to which a start of a path leads. -/
def Along (d : Disk) (p : Path) (l : Location) : Prop := ∃ front, front <+: p.parts ∧ l = descend (d.start p) front

/-- On the way to the parent is on the way to the path. -/
theorem Along.of_parent (h : Along d p.parent l) : Along d p l := by
  obtain ⟨front, hfront, hl⟩ := h
  exact ⟨front, hfront.trans (List.dropLast_prefix _), hl⟩

theorem Along.of_workingDirectory (hwd : d'.workingDirectory = d.workingDirectory) (h : Along d' p l) : Along d p l := by
  obtain ⟨front, hfront, hl⟩ := h
  exact ⟨front, hfront, by rw [hl, start_of_workingDirectory hwd]⟩

/-- A disk that making directories for a path leaves. -/
structure Opens (p : Path) (d d' : Disk) : Prop where
  grows : Grows (fun _ => False) (Along d p) d d'
  isTree : p.IsWritten → d.IsTree → d'.IsTree

theorem Opens.refl (p : Path) (d : Disk) : Opens p d d := ⟨.refl d, fun _ h => h⟩

theorem Opens.trans (h : Opens p d d') (h' : Opens p d' d'') : Opens p d d'' where
  grows := h.grows.trans (h'.grows.mono (fun _ hf => hf) fun _ hl => hl.of_workingDirectory h.grows.workingDirectory)
  isTree := fun hw htree => h'.isTree hw (h.isTree hw htree)

/-- What is made for the parent of a path is made for the path. -/
theorem Opens.of_parent (h : Opens p.parent d d') : Opens p d d' where
  grows := h.grows.mono (fun _ hf => hf) fun _ hl => hl.of_parent
  isTree := fun hw htree => h.isTree hw.parent htree

/-- A directory is made on the way of its path, and nothing else. -/
theorem makeDirectory_opens (h : d.makeDirectory p = .ok d') : Opens p d d' := by
  obtain ⟨q, name, l, rfl, hup, hl, hnone, rfl⟩ := makeDirectory_eq_ok h
  have hplace : l = d.place (q.child name) := eq_place_of_locate hl
  exact ⟨.make (ne_nil_of_locate hup hl) hnone ⟨_, List.prefix_refl _, hplace⟩,
    fun hw htree => htree.put_locate hw hup hl (.inl rfl)⟩

theorem acceptPresent_snd (d : Disk) (p : Path) (r : Refusal) : (d.acceptPresent p r).2 = d := by
  unfold acceptPresent
  split <;> rfl

/-- Making directories adds directories where a start of the path leads, also when it fails on the way. -/
theorem makeDirectories_opens (depth : Nat) (d : Disk) (p : Path) : Opens p d (d.makeDirectories depth p).2 := by
  induction depth generalizing d p with
  | zero => exact .refl p d
  | succ depth ih =>
    rw [makeDirectories]
    split
    · rename_i d₁ h₁
      exact makeDirectory_opens h₁
    · split
      · exact .refl p d
      · have hparent := (ih d p.parent).of_parent
        split
        · rename_i f d₁ h₁
          rw [h₁] at hparent
          exact hparent
        · rename_i d₁ h₁
          rw [h₁] at hparent
          split
          · rename_i d₂ h₂
            exact hparent.trans (makeDirectory_opens h₂)
          · exact hparent
          · rw [acceptPresent_snd]
            exact hparent
    · rw [acceptPresent_snd]
      exact .refl p d

/-- Directories are made on the way of their path, and nothing else. -/
theorem makeDirs_opens (d : Disk) (p : Path) : Opens p d (d.makeDirs p).2 := makeDirectories_opens _ d p

/-- A directory that has been made is there. -/
theorem makeDirectory_isDirectory (h : d.makeDirectory p = .ok d') : d'.isDirectory p = .ok true := by
  have hgrows := (makeDirectory_opens h).grows
  obtain ⟨q, name, l, rfl, hup, hl, -, rfl⟩ := makeDirectory_eq_ok h
  refine isDirectory_eq_ok_iff.mpr ⟨l, hgrows.locate hl, ?_⟩
  rw [hasDirectory_iff, get?_put (ne_nil_of_locate hup hl), if_pos rfl]

/-- What is accepted is a directory. -/
theorem acceptPresent_eq_ok {r : Refusal} (h : d.acceptPresent p r = (.ok (), d')) : d = d' ∧ d.isDirectory p = .ok true := by
  unfold acceptPresent at h
  split at h
  · exact ⟨congrArg Prod.snd h, ‹_›⟩
  · cases congrArg Prod.fst h
  · cases congrArg Prod.fst h

/-- Behind making directories, the path leads to a directory. -/
theorem makeDirectories_eq_ok {depth : Nat} (h : d.makeDirectories depth p = (.ok (), d')) : d'.isDirectory p = .ok true := by
  cases depth with
  | zero => cases congrArg Prod.fst h
  | succ depth =>
    rw [makeDirectories] at h
    split at h
    · rename_i d₁ h₁
      cases congrArg Prod.snd h
      exact makeDirectory_isDirectory h₁
    · split at h
      · cases congrArg Prod.fst h
      · split at h
        · cases congrArg Prod.fst h
        · split at h
          · rename_i d₂ h₂
            cases congrArg Prod.snd h
            exact makeDirectory_isDirectory h₂
          · cases congrArg Prod.fst h
          · obtain ⟨rfl, hdir⟩ := acceptPresent_eq_ok h
            exact hdir
    · obtain ⟨rfl, hdir⟩ := acceptPresent_eq_ok h
      exact hdir

/-- The directory that was to be made is there. -/
theorem makeDirs_eq_ok (h : d.makeDirs p = (.ok (), d')) : d'.isDirectory p = .ok true := makeDirectories_eq_ok h

/-! ## Writing files -/

/-- Writing leaves the disk as it is, or puts a file where the path leads and no directory is. -/
theorem writeText_cases (d : Disk) (p : Path) (text : String) :
    (∃ f, d.writeText p text = (.error f, d)) ∨
    ∃ l, d.locate p = .ok l ∧ d.get? l ≠ some .directory ∧
      d.writeText p text = (.ok (), d.put l (.file (Text.Utf8.encode text))) := by
  unfold writeText
  cases h : d.writeBytes p (Text.Utf8.encode text) with
  | error r => exact .inl ⟨_, rfl⟩
  | ok d' =>
    obtain ⟨l, hl, hne, rfl⟩ := writeBytes_eq_ok h
    exact .inr ⟨l, hl, hne, rfl⟩

/-- Writing a file touches its place only. -/
theorem writeText_grows (hup : name ≠ "..") (hfree : ∀ l, d.locate (q.child name) = .ok l → free l) (text : String) :
    Grows free made d (d.writeText (q.child name) text).2 := by
  rcases writeText_cases d (q.child name) text with ⟨f, h⟩ | ⟨l, hl, hne, h⟩
  · rw [h]
    exact .refl d
  · rw [h]
    exact .put (ne_nil_of_locate hup hl) (.inr hne) (hfree l hl)

/-- A tree stays one when a file is written. -/
theorem IsTree.writeText (h : d.IsTree) (hw : (q.child name).IsWritten) (hup : name ≠ "..") (text : String) :
    (d.writeText (q.child name) text).2.IsTree := by
  rcases writeText_cases d (q.child name) text with ⟨f, hr⟩ | ⟨l, hl, hne, hr⟩
  · rwa [hr]
  · rw [hr]
    exact h.put_locate hw hup hl (.inr hne)

end IconForge.Disk
