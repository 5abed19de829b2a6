import IconForge.Proofs.Disk.Renewal

/-!
# Disks that hold more

A disk on which every entry of an earlier one is as it was does not hinder what the other allows: where a path leads on the later disk, it
leads on the earlier one too, or something is missing there (`Extends.locate_cases`). So directories that the later disk has can be made on
the earlier one (`Extends.makeDirs`).
-/

namespace IconForge.Disk

/-- A later disk on which every entry is as it was. -/
structure Extends (d d' : Disk) : Prop where
  workingDirectory : d'.workingDirectory = d.workingDirectory
  kept : ∀ {l e}, d.get? l = some e → d'.get? l = some e

variable {d d' d'' : Disk} {p q : Path} {l m : Location} {e : Entry} {name part : String} {parts rest : List String}

/-- A walk takes a step from a directory that is there. -/
theorem walk_cons_of_hasDirectory (hdir : d.hasDirectory l = true) (hgo : isStray l = false ∨ part = "..")
    (hshort : part.utf8ByteSize ≤ nameLimit) (rest : List String) : d.walk l (part :: rest) = d.walk (step l part) rest := by
  rw [walk, hasDirectory_iff.mp hdir]
  have hstray : (isStray l && part != "..") = false := by rcases hgo with h | h <;> simp [h]
  have hlong : ¬nameLimit < part.utf8ByteSize := Nat.not_lt.mpr hshort
  simp only [hstray, Bool.false_eq_true, hlong, if_false, step]

namespace Extends

theorem refl (d : Disk) : Extends d d := ⟨rfl, id⟩

theorem trans (h : Extends d d') (h' : Extends d' d'') : Extends d d'' :=
  ⟨h'.workingDirectory.trans h.workingDirectory, fun hl => h'.kept (h.kept hl)⟩

/-- Directories stay in an extension. -/
theorem directories (h : Extends d d') (l : Location) (hl : d.hasDirectory l = true) : d'.hasDirectory l = true :=
  hasDirectory_iff.mpr (h.kept (hasDirectory_iff.mp hl))

theorem hasDirectory_workingDirectory (h : Extends d d') (hdir : d.hasDirectory d.workingDirectory = true) :
    d'.hasDirectory d'.workingDirectory = true := by
  rw [h.workingDirectory]
  exact h.directories _ hdir

/-- A disk that only grows by directories keeps its entries. -/
theorem of_grows {made : Location → Prop} (h : Grows (fun _ => False) made d d') : Extends d d' where
  workingDirectory := h.workingDirectory
  kept := by
    intro l e hl
    rcases h.outside l id with heq | ⟨hnone, -, -⟩
    · rw [heq, hl]
    · rw [hl] at hnone
      cases hnone

/-- Putting an entry where nothing is keeps the others. -/
theorem put (hl : l ≠ []) (hnone : d.get? l = none) (e : Entry) : Extends d (d.put l e) where
  workingDirectory := rfl
  kept := by
    intro m e' hm
    rw [get?_put hl, if_neg, hm]
    rintro rfl
    rw [hm] at hnone
    cases hnone

/-- A disk stays short of another one when a directory is put where that has one. -/
theorem put_le (h : Extends d d') (hl : l ≠ []) (hdir : d'.hasDirectory l = true) : Extends (d.put l .directory) d' where
  workingDirectory := h.workingDirectory
  kept := by
    intro m e hm
    rw [get?_put hl] at hm
    split at hm
    · rename_i heq
      rw [heq, ← Option.some.inj hm]
      exact hasDirectory_iff.mp hdir
    · exact h.kept hm

/-- Where there is a directory later on, there is one or nothing. -/
theorem directory_or_none (h : Extends d d') (hdir : d'.hasDirectory l = true) : d.hasDirectory l = true ∨ d.get? l = none := by
  cases hl : d.get? l with
  | none => exact .inr rfl
  | some e =>
    left
    rw [hasDirectory_iff, hl, ← h.kept hl, hasDirectory_iff.mp hdir]

/-- What can be walked later on can be walked, or something is missing. -/
theorem walk_cases (h : Extends d d') (hwalk : d'.walk l parts = .ok m) : d.walk l parts = .ok m ∨ d.walk l parts = .error .missing := by
  induction parts generalizing l with
  | nil => exact .inl hwalk
  | cons part rest ih =>
    obtain ⟨hdir, hgo, hshort, hrest⟩ := walk_cons_eq_ok_iff.mp hwalk
    rcases h.directory_or_none hdir with hdir' | hnone
    · rw [walk_cons_of_hasDirectory hdir' hgo hshort]
      exact ih hrest
    · right
      rw [walk, hnone]

/-- A path that leads somewhere in the extension led there before, or it was missing. -/
theorem locate_cases (h : Extends d d') (hp : d'.locate p = .ok l) : d.locate p = .ok l ∨ d.locate p = .error .missing := by
  obtain ⟨hzero, hwalk⟩ := locate_eq_ok_iff.mp hp
  rw [start_of_workingDirectory h.workingDirectory] at hwalk
  rw [locate, if_neg (Bool.eq_false_iff.mp hzero)]
  exact h.walk_cases hwalk

end Extends

/-! ## Where paths may lead -/

/-- A path that starts at a directory that is there. -/
def Grounded (d : Disk) (p : Path) : Prop := d.hasDirectory (d.start p) = true ∧ isStray (d.start p) = false

/-- A path keeps its ground in an extension. -/
theorem Grounded.of_extends (h : d.Grounded p) (hextends : Extends d d') : d'.Grounded p := by
  unfold Grounded
  rw [start_of_workingDirectory hextends.workingDirectory]
  exact ⟨hextends.directories _ h.1, h.2⟩

/-- The ground of a path has proper names. -/
theorem Grounded.names (h : d.Grounded p) (htree : d.IsTree) : ∀ name ∈ d.start p, IsName name :=
  htree.named h.2 (isThere_of_hasDirectory h.1)

/-- No place is a stray to which a written path leads from a directory that is there. -/
theorem Grounded.isStray_place (h : d.Grounded p) (htree : d.IsTree) (hw : p.IsWritten) : isStray (d.place p) = false :=
  isStray_of_forall_ne (ne_empty_of_mem_descend (fun name hname => (h.names htree name hname).ne_empty)
    fun part hpart => Path.ne_empty_of_isPart (hw part hpart).1)

/-- The way back up leads from a directory to a directory. -/
theorem isDirectory_up (htree : d.IsTree) (hp : d.locate p = .ok l) (hdir : d.hasDirectory l = true) (hl : isStray l = false) :
    d.isDirectory (p.child "..") = .ok true := by
  obtain ⟨hzero, hwalk⟩ := locate_eq_ok_iff.mp hp
  have hwalk' : d.walk (d.start p) (p.parts ++ [".."]) = .ok l.dropLast := by
    rw [walk_append, hwalk]
    exact walk_cons_of_hasDirectory hdir (.inr rfl) (by decide) []
  have hzero' : holdsZeroByte (p.child "..") = false := by
    have hboth : holdsZeroByte (p.child "..") = (holdsZeroByte p || "..".toList.contains '\x00') := by simp [holdsZeroByte, Path.child]
    rw [hboth, hzero]
    rfl
  refine isDirectory_eq_ok_iff.mpr ⟨l.dropLast, locate_eq_ok_iff.mpr ⟨hzero', hwalk'⟩, ?_⟩
  rcases List.eq_nil_or_concat l with rfl | ⟨front, name, rfl⟩
  · exact hdir
  · rw [List.concat_eq_append] at hdir hl ⊢
    rw [List.dropLast_concat]
    exact htree.closed (by simpa using hl) (isThere_of_hasDirectory hdir)

/-- A path to a directory is looked up by way of directories. -/
theorem isDirectory_of_child (h : d.isDirectory (p.child name) = .ok true) : d.isDirectory p = .ok true := by
  obtain ⟨l, hl, -⟩ := isDirectory_eq_ok_iff.mp h
  obtain ⟨hzero, hwalk⟩ := locate_eq_ok_iff.mp hl
  have hparts : (p.child name).parts = p.parts ++ [name] := rfl
  have hstart : d.start (p.child name) = d.start p := rfl
  rw [hparts, hstart, walk_append] at hwalk
  have hzero' : holdsZeroByte p = false := by
    simp only [holdsZeroByte, Path.child, List.any_append, Bool.or_eq_false_iff] at hzero
    exact hzero.1
  cases hp : d.walk (d.start p) p.parts with
  | error r =>
    rw [hp] at hwalk
    cases hwalk
  | ok base =>
    rw [hp] at hwalk
    exact isDirectory_eq_ok_iff.mpr ⟨base, locate_eq_ok_iff.mpr ⟨hzero', hp⟩, (walk_cons_eq_ok_iff.mp hwalk).1⟩

/-! ## Making directories -/

/-- The way back up from a directory is there already. -/
theorem makeDirectory_up (hp : d.locate p = .ok l) (hdir : d.hasDirectory l = true) :
    d.makeDirectory (p.child "..") = .error .present := by
  have hlast : (p.child "..").parts.getLast? = some ".." := by simp [Path.child]
  unfold makeDirectory
  split
  · rfl
  · rw [Path.parent_child, hp]
    simp only [bind, Except.bind, hasDirectory_iff.mp hdir]
    rfl
  · simp_all

namespace Extends

variable (h : Extends d d')
include h

/-- A directory that is there later on can be made where its parent is, unless it is there already. -/
theorem makeDirectory_cases (htree : d.IsTree) (hw : q.IsWritten) (hground : d.Grounded q) (hq : d.isDirectory q = .ok true)
    (hdir : d'.isDirectory (q.child name) = .ok true) :
    (∃ d₁, d.makeDirectory (q.child name) = .ok d₁ ∧ Extends d₁ d') ∨
    ∃ r, d.makeDirectory (q.child name) = .error r ∧ r ≠ .missing ∧ d.isDirectory (q.child name) = .ok true := by
  obtain ⟨base, hbase, hdirBase⟩ := isDirectory_eq_ok_iff.mp hq
  have hkept : isStray base = false := by
    rw [eq_place_of_locate hbase]
    exact hground.isStray_place htree hw
  by_cases hup : name = ".."
  · subst hup
    exact .inr ⟨.present, makeDirectory_up hbase hdirBase, by simp, isDirectory_up htree hbase hdirBase hkept⟩
  · obtain ⟨l, hl, hdirL⟩ := isDirectory_eq_ok_iff.mp hdir
    obtain ⟨base', hbase', -, -, hzero, hshort, rfl⟩ := (locate_child_eq_ok_iff hup).mp hl
    have hsame := locate_of_directories h.workingDirectory h.directories hbase
    rw [hbase', Except.ok.injEq] at hsame
    subst hsame
    have hl' : d.locate (q.child name) = .ok (base' ++ [name]) :=
      (locate_child_eq_ok_iff hup).mpr ⟨base', hbase, hdirBase, hkept, hzero, hshort, rfl⟩
    rcases h.directory_or_none hdirL with hthere | hnone
    · refine .inr ⟨.present, ?_, by simp, isDirectory_eq_ok_iff.mpr ⟨_, hl', hthere⟩⟩
      rw [makeDirectory_child d q hup, hl']
      simp only [hasDirectory_iff.mp hthere]
    · exact .inl ⟨_, makeDirectory_of_locate hup hl' hnone, h.put_le (by simp) hdirL⟩

/-- A directory that is there later on cannot be made as long as its parent is missing. -/
theorem makeDirectory_missing (hq : d.isDirectory q ≠ .ok true) (hdir : d'.isDirectory (q.child name) = .ok true) :
    d.makeDirectory (q.child name) = .error .missing := by
  by_cases hup : name = ".."
  · subst hup
    obtain ⟨base, hbase, hdirBase⟩ := isDirectory_eq_ok_iff.mp (isDirectory_of_child hdir)
    have hlast : (q.child "..").parts.getLast? = some ".." := by simp [Path.child]
    have hlocate : d.locate q = .ok base ∧ d.get? base = none ∨ d.locate q = .error .missing := by
      rcases h.locate_cases hbase with hl | hl
      · rcases h.directory_or_none hdirBase with hthere | hnone
        · exact absurd (isDirectory_eq_ok_iff.mpr ⟨base, hl, hthere⟩) hq
        · exact .inl ⟨hl, hnone⟩
      · exact .inr hl
    unfold Disk.makeDirectory
    split
    · simp_all
    · rw [Path.parent_child]
      rcases hlocate with ⟨hl, hnone⟩ | hl
      · simp only [hl, hnone, bind, Except.bind]
        rfl
      · rw [hl]
        rfl
    · simp_all
  · obtain ⟨l, hl, -⟩ := isDirectory_eq_ok_iff.mp hdir
    rcases h.locate_cases hl with hl' | hl'
    · obtain ⟨base, hbase, hdirBase, -⟩ := (locate_child_eq_ok_iff hup).mp hl'
      exact absurd (isDirectory_eq_ok_iff.mpr ⟨base, hbase, hdirBase⟩) hq
    · rw [makeDirectory_child d q hup, hl']

/-- A directory that is there later on can be made with all that leads to it, and so much of the later disk is there then. -/
theorem makeDirectories (htree : d.IsTree) (hw : p.IsWritten) (hground : d.Grounded p) (hdir : d'.isDirectory p = .ok true) {depth : Nat}
    (hdepth : p.parts.length < depth) : ∃ d₁, d.makeDirectories depth p = (.ok (), d₁) ∧ Extends d₁ d' := by
  have haccept : ∀ {d₁ : Disk} {r : Refusal}, d₁.isDirectory p = .ok true → d₁.acceptPresent p r = (.ok (), d₁) := by
    intro d₁ r hthere
    rw [acceptPresent, hthere]
  induction depth generalizing p with
  | zero => omega
  | succ depth ih =>
    rcases List.eq_nil_or_concat p.parts with hnil | ⟨front, name, hsplit⟩
    · have hmade : d.makeDirectory p = .error .present := by
        unfold Disk.makeDirectory
        simp only [hnil, List.getLast?_nil]
        rfl
      have hzero : holdsZeroByte p = false := by simp [holdsZeroByte, hnil]
      have hthere : d.isDirectory p = .ok true :=
        isDirectory_eq_ok_iff.mpr ⟨d.start p, locate_eq_ok_iff.mpr ⟨hzero, by rw [hnil]; rfl⟩, hground.1⟩
      refine ⟨d, ?_, h⟩
      rw [Disk.makeDirectories, hmade]
      exact haccept hthere
    · obtain ⟨q, rfl⟩ : ∃ q, p = Path.child q name := ⟨_, eq_child_of_getLast? (by rw [hsplit]; simp)⟩
      have hwq : q.IsWritten := fun part hpart => hw part (List.mem_append_left _ hpart)
      have hlen : q.parts.length < depth := by
        simp only [Path.child, List.length_append, List.length_singleton] at hdepth
        omega
      by_cases hq : d.isDirectory q = .ok true
      · rcases h.makeDirectory_cases htree hwq hground hq hdir with ⟨d₁, hmade, hle⟩ | ⟨r, hmade, hne, hthere⟩
        · exact ⟨d₁, by rw [Disk.makeDirectories, hmade], hle⟩
        · refine ⟨d, ?_, h⟩
          rw [Disk.makeDirectories, hmade]
          cases r <;> first | exact haccept hthere | exact absurd rfl hne
      · have hmissing := h.makeDirectory_missing hq hdir
        obtain ⟨d₁, hparent, hle⟩ := ih hwq hground (isDirectory_of_child hdir) hlen (fun hthere => by rw [acceptPresent, hthere])
        have hopens := makeDirectories_opens depth d q
        rw [hparent] at hopens
        have hextends := of_grows hopens.grows
        have hne : (q.child name).parts.isEmpty = false := by simp [Path.child]
        rw [Disk.makeDirectories, hmissing]
        simp only [hne, Bool.false_eq_true, if_false, Path.parent_child, hparent]
        have hready :=
          hle.makeDirectory_cases (hopens.isTree hwq htree) hwq (hground.of_extends hextends) (makeDirectories_eq_ok hparent) hdir
        rcases hready with ⟨d₂, hmade, hle₂⟩ | ⟨r, hmade, hne, hthere⟩
        · exact ⟨d₂, by rw [hmade], hle₂⟩
        · refine ⟨d₁, ?_, hle⟩
          rw [hmade]
          cases r <;> first | exact haccept hthere | exact absurd rfl hne

/-- Directories that an extension has can be made, and the extension still extends what is made. -/
theorem makeDirs (htree : d.IsTree) (hw : p.IsWritten) (hground : d.Grounded p) (hdir : d'.isDirectory p = .ok true) :
    ∃ d₁, d.makeDirs p = (.ok (), d₁) ∧ Extends d₁ d' := h.makeDirectories htree hw hground hdir (Nat.lt_succ_self _)

end Extends

end IconForge.Disk
