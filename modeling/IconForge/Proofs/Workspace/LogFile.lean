import IconForge.Proofs.Disk.Extension
import IconForge.Workspace.Basic

/-!
# Opening the log file

The log file is opened at the place of its path, which then holds a file (`openLogFile_place`). Opening one keeps every entry of the disk
(`openLogFile_extends`), and a disk on which one can be opened need not have been prepared by opening others (`openLogFile_of_extends`).
-/

namespace IconForge

open Disk

variable {d d' : Disk} {p q full : Path} {l : Location} {name : String}

namespace Disk

/-! ## Absolute forms -/

/-- Taking the ways back up leads where the parts lead. -/
theorem collapse_eq_descend (back parts : List String) : collapse back parts = descend back.reverse parts := by
  induction parts generalizing back with
  | nil => rfl
  | cons part rest ih =>
    have hstep : descend back.reverse (part :: rest) = descend (step back.reverse part) rest := rfl
    rw [collapse, hstep, step]
    split
    · rw [ih, List.dropLast_reverse]
    · rw [ih, List.reverse_cons]

/-- A place is made of names of its start and of the parts that do not lead up. -/
theorem mem_descend {parts : List String} (h : name ∈ descend l parts) : name ∈ l ∨ name ∈ parts ∧ name ≠ ".." := by
  induction parts generalizing l with
  | nil => exact .inl h
  | cons part rest ih =>
    rcases ih h with hl | ⟨hrest, hup⟩
    · rw [step] at hl
      split at hl
      · exact .inl (List.dropLast_subset l hl)
      · rename_i hne
        rcases List.mem_append.mp hl with hl | hl
        · exact .inl hl
        · obtain rfl := List.mem_singleton.mp hl
          exact .inr ⟨List.mem_cons_self, hne⟩
    · exact .inr ⟨List.mem_cons_of_mem _ hrest, hup⟩

/-- How a path is made absolute depends on the working directory only. -/
theorem resolve_of_workingDirectory (h : d'.workingDirectory = d.workingDirectory) (p : Path) : d'.resolve p = d.resolve p := by
  rw [resolve, resolve, workingPath, workingPath, h]

/-- A path that has an absolute form starts at a directory that is there. -/
theorem grounded_of_resolve (hdir : d.hasDirectory d.workingDirectory = true) (h : d.resolve p = .ok full) : d.Grounded p := by
  unfold Grounded start
  unfold resolve at h
  split at h
  · cases h
  · split at h
    · rename_i habs
      rw [if_pos habs]
      exact ⟨rfl, rfl⟩
    · rename_i habs
      rw [if_neg habs]
      refine ⟨hdir, ?_⟩
      unfold workingPath at h
      split at h
      · cases h
      · rename_i hstays
        simpa using hstays

/-- The absolute form of a path names its place. -/
theorem resolve_eq_ok (htree : d.IsTree) (hground : d.Grounded p) (h : d.resolve p = .ok full) : full = ⟨.root, d.place p⟩ := by
  unfold resolve at h
  split at h
  · cases h
  · split at h
    · rename_i habs
      rw [place_of_isAbsolute habs, ← Except.ok.inj h, collapse_eq_descend]
      rfl
    · rename_i habs
      have hstart : d.start p = d.workingDirectory := if_neg habs
      have hnames := hground.names htree
      rw [hstart] at hnames
      unfold workingPath at h
      split at h
      · cases h
      · have hfull : full = ⟨.root, collapse [] (d.workingDirectory ++ p.parts)⟩ := (Except.ok.inj h).symm
        rw [hfull, collapse_eq_descend, List.reverse_nil, descend_append,
          descend_of_forall_ne fun part hpart => (hnames part hpart).ne_up, place, hstart, List.nil_append]

/-- The absolute form of a path is written, and does not lead up. -/
theorem names_place (htree : d.IsTree) (hground : d.Grounded p) (hw : p.IsWritten) :
    (⟨.root, d.place p⟩ : Path).IsWritten ∧ ∀ part ∈ d.place p, part ≠ ".." := by
  have hnames := hground.names htree
  constructor
  · intro part hpart
    rcases mem_descend hpart with hstart | ⟨hmem, -⟩
    · exact ⟨(hnames part hstart).part, (hnames part hstart).noSlash⟩
    · exact hw part hmem
  · intro part hpart
    rcases mem_descend hpart with hstart | ⟨-, hup⟩
    · exact (hnames part hstart).ne_up
    · exact hup

/-- The absolute form of a path leads to its place. -/
theorem eq_place_of_locate_place (htree : d.IsTree) (hground : d.Grounded p) (hw : p.IsWritten)
    (h : d.locate ⟨.root, d.place p⟩ = .ok l) : l = d.place p := by
  rw [eq_place_of_locate h, place_of_isAbsolute rfl, descend_of_forall_ne (names_place htree hground hw).2, List.nil_append]

/-- What is no directory, but lies where a later disk has it below a directory of both disks, lies there on the earlier one as well. -/
theorem Extends.locate_place (hle : Extends d d') (htree : d.IsTree) (htree' : d'.IsTree) (hground : d.Grounded p) (hw : p.IsWritten)
    (hdir : d.isDirectory p.parent = .ok true) (hdir' : d'.isDirectory p.parent = .ok true)
    (hl : d'.locate ⟨.root, d'.place p⟩ = .ok l) (hfree : d'.hasDirectory l = false) : d.locate ⟨.root, d.place p⟩ = .ok l := by
  have hground' : d'.Grounded p := hground.of_extends hle
  obtain rfl : l = d'.place p := eq_place_of_locate_place htree' hground' hw hl
  -- The path ends with a name, since otherwise it leads to a directory.
  rcases List.eq_nil_or_concat p.parts with hnil | ⟨front, name, hsplit⟩
  · have hstart : d'.place p = d'.start p := by rw [place, hnil]; rfl
    rw [hstart, hground'.1] at hfree
    cases hfree
  · obtain ⟨q, rfl⟩ : ∃ q, p = Path.child q name := ⟨_, eq_child_of_getLast? (by rw [hsplit]; simp)⟩
    rw [Path.parent_child] at hdir hdir'
    have hwq : q.IsWritten := fun part hpart => hw part (List.mem_append_left _ hpart)
    by_cases hname : name = ".."
    · subst hname
      obtain ⟨base, hbase, hdirBase⟩ := isDirectory_eq_ok_iff.mp hdir'
      have hkept : isStray base = false := by
        rw [eq_place_of_locate hbase]
        exact @Grounded.isStray_place d' q hground' htree' hwq
      obtain ⟨m, hm, hdirM⟩ := isDirectory_eq_ok_iff.mp (isDirectory_up htree' hbase hdirBase hkept)
      rw [← eq_place_of_locate hm, hdirM] at hfree
      cases hfree
    · obtain ⟨base, hbase, hdirBase⟩ := isDirectory_eq_ok_iff.mp hdir
      obtain rfl : base = d.place q := eq_place_of_locate hbase
      have hkept : isStray (d.place q) = false := @Grounded.isStray_place d q hground htree hwq
      rw [place_of_workingDirectory hle.workingDirectory, place_child d q hname] at hl ⊢
      obtain ⟨-, -, -, -, hzero, hshort, -⟩ := (locate_child_eq_ok_iff (p := ⟨.root, d.place q⟩) hname).mp hl
      exact (locate_child_eq_ok_iff (p := ⟨.root, d.place q⟩) hname).mpr
        ⟨_, locate_of_hasDirectory htree hdirBase hkept, hdirBase, hkept, hzero, hshort, rfl⟩

/-! ## Making sure of a file -/

/-- A file that is ensured was there, or is there now and empty. -/
theorem ensureFile_eq_ok (h : d.ensureFile p = .ok (l, d')) : d.locate p = .ok l ∧
    ((∃ content, d.get? l = some (.file content)) ∧ d' = d ∨ d.get? l = none ∧ d' = d.put l (.file [])) := by
  unfold ensureFile at h
  cases hl : d.locate p with
  | error r => simp [hl, bind, Except.bind] at h
  | ok m =>
    simp only [hl, bind, Except.bind] at h
    cases hm : d.get? m with
    | none =>
      simp only [hm, pure, Except.pure, Except.ok.injEq, Prod.mk.injEq] at h
      obtain ⟨rfl, rfl⟩ := h
      exact ⟨rfl, .inr ⟨hm, rfl⟩⟩
    | some e =>
      cases e with
      | directory =>
        rw [hm] at h
        cases h
      | file content =>
        simp only [hm, pure, Except.pure, Except.ok.injEq, Prod.mk.injEq] at h
        obtain ⟨rfl, rfl⟩ := h
        exact ⟨rfl, .inl ⟨⟨content, hm⟩, rfl⟩⟩

/-- A file can be ensured where a path leads to no directory. -/
theorem exists_ensureFile (hl : d.locate p = .ok l) (hdir : d.hasDirectory l = false) : ∃ d', d.ensureFile p = .ok (l, d') := by
  unfold ensureFile
  simp only [hl, bind, Except.bind]
  cases hm : d.get? l with
  | none => exact ⟨_, rfl⟩
  | some e =>
    cases e with
    | directory =>
      rw [hasDirectory_iff.mpr hm] at hdir
      cases hdir
    | file content => exact ⟨_, rfl⟩

/-! ## Adding to a file -/

/-- Appended bytes come behind the content. -/
theorem get?_appendBytes_self {content : List UInt8} (h : d.get? l = some (.file content)) (more : List UInt8) :
    (d.appendBytes l more).get? l = some (.file (content ++ more)) := by
  have hne : l ≠ [] := by
    rintro rfl
    cases h
  rw [appendBytes, h]
  simp only
  rw [get?_put hne, if_pos rfl]

/-- Appending to a file leaves every other entry alone. -/
theorem get?_appendBytes_of_ne {m : Location} (h : m ≠ l) (d : Disk) (more : List UInt8) : (d.appendBytes l more).get? m = d.get? m := by
  unfold appendBytes
  split
  · rename_i content hfile
    have hne : l ≠ [] := by
      rintro rfl
      cases hfile
    rw [get?_put hne, if_neg h]
  · rfl

end Disk

namespace Workspace

/-! ## The log file -/

/-- An open log file has its directories made, its path made absolute, and its file ensured. -/
theorem openLogFile_eq_ok (h : openLogFile p d = (.ok l, d')) :
    ∃ d₁ full, d.makeDirs p.parent = (.ok (), d₁) ∧ d₁.resolve p = .ok full ∧ d₁.ensureFile full = .ok (l, d') := by
  unfold openLogFile at h
  split at h
  · cases congrArg Prod.fst h
  · rename_i d₁ hmake
    split at h
    · cases congrArg Prod.fst h
    · rename_i full hresolve
      split at h
      · cases congrArg Prod.fst h
      · rename_i l' d₂ hensure
        obtain ⟨hl, rfl⟩ := Prod.mk.inj h
        rw [← Except.ok.inj hl]
        exact ⟨d₁, full, hmake, hresolve, hensure⟩

section
variable (htree : d.IsTree) (hdir : d.hasDirectory d.workingDirectory = true) (hw : p.IsWritten)
include htree hdir hw

/-- Making the directories of a log file keeps all that is on the disk, which stays a tree with its working directory. -/
theorem extends_of_makeDirs {answer : Except Fault Unit} (h : d.makeDirs p.parent = (answer, d')) :
    Extends d d' ∧ d'.IsTree ∧ d'.hasDirectory d'.workingDirectory = true := by
  have hopens := makeDirs_opens d p.parent
  rw [h] at hopens
  have hextends : Extends d d' := .of_grows hopens.grows
  exact ⟨hextends, hopens.isTree hw.parent htree, hextends.hasDirectory_workingDirectory hdir⟩

/-- Opening a log file keeps all that is on the disk, which stays a tree, also when it fails. -/
theorem openLogFile_extends : Extends d (openLogFile p d).2 ∧ (openLogFile p d).2.IsTree := by
  unfold openLogFile
  rcases hmake : d.makeDirs p.parent with ⟨answer, d₁⟩
  obtain ⟨hextends, htree₁, hdir₁⟩ := extends_of_makeDirs htree hdir hw hmake
  cases answer with
  | error f => exact ⟨hextends, htree₁⟩
  | ok =>
    cases hresolve : d₁.resolve p with
    | error f =>
      simp only [hresolve]
      exact ⟨hextends, htree₁⟩
    | ok full =>
      simp only [hresolve]
      cases hensure : d₁.ensureFile full with
      | error r => exact ⟨hextends, htree₁⟩
      | ok opened =>
        obtain ⟨l, d₂⟩ := opened
        simp only
        obtain ⟨hl, ⟨-, rfl⟩ | ⟨hnone, rfl⟩⟩ := ensureFile_eq_ok hensure
        · exact ⟨hextends, htree₁⟩
        · have hground := grounded_of_resolve hdir₁ hresolve
          obtain ⟨hwritten, hup⟩ := names_place htree₁ hground hw
          obtain rfl := resolve_eq_ok htree₁ hground hresolve
          rcases List.eq_nil_or_concat (d₁.place p) with hroot | ⟨front, name, hsplit⟩
          · rw [hroot] at hl
            have hend : l = [] := eq_place_of_locate hl
            subst hend
            cases hnone
          · rw [List.concat_eq_append] at hsplit
            rw [hsplit] at hl hwritten hup
            have hname : name ≠ ".." := hup name (by simp)
            have hchild : (⟨.root, front ++ [name]⟩ : Path) = Path.child ⟨.root, front⟩ name := rfl
            rw [hchild] at hl hwritten
            exact ⟨hextends.trans (.put (ne_nil_of_locate hname hl) hnone _),
              htree₁.put_locate hwritten hname hl (.inr (by rw [hnone]; simp))⟩

/-- Where the log file is. -/
theorem openLogFile_place (h : openLogFile p d = (.ok l, d')) : l = d.place p ∧ ∃ content, d'.get? l = some (.file content) := by
  obtain ⟨d₁, full, hmake, hresolve, hensure⟩ := openLogFile_eq_ok h
  obtain ⟨hextends, htree₁, hdir₁⟩ := extends_of_makeDirs htree hdir hw hmake
  have hground := grounded_of_resolve hdir₁ hresolve
  obtain rfl := resolve_eq_ok htree₁ hground hresolve
  obtain ⟨hl, hthere⟩ := ensureFile_eq_ok hensure
  have hplace : l = d₁.place p := eq_place_of_locate_place htree₁ hground hw hl
  refine ⟨by rw [hplace, place_of_workingDirectory hextends.workingDirectory], ?_⟩
  rcases hthere with ⟨⟨content, hcontent⟩, rfl⟩ | ⟨hnone, rfl⟩
  · exact ⟨content, hcontent⟩
  · have hne : l ≠ [] := by
      rintro rfl
      cases hnone
    exact ⟨[], by rw [get?_put hne, if_pos rfl]⟩

/-- A log file that can be opened later on can be opened. -/
theorem openLogFile_of_extends {later later' : Disk} (hlater : Extends d later) (htreeLater : later.IsTree)
    (h : openLogFile p later = (.ok l, later')) : ∃ d', openLogFile p d = (.ok l, d') := by
  obtain ⟨later₁, full, hmake, hresolve, hensure⟩ := openLogFile_eq_ok h
  obtain ⟨hextendsLater, htreeLater₁, -⟩ :=
    extends_of_makeDirs htreeLater (hlater.hasDirectory_workingDirectory hdir) hw hmake
  have hextends : Extends d later₁ := hlater.trans hextendsLater
  have hground : d.Grounded p := by
    rw [resolve_of_workingDirectory hextends.workingDirectory] at hresolve
    exact grounded_of_resolve hdir hresolve
  obtain ⟨d₁, hmade, hle⟩ := hextends.makeDirs htree hw.parent hground (makeDirs_eq_ok hmake)
  obtain ⟨hextends₁, htree₁, -⟩ := extends_of_makeDirs htree hdir hw hmade
  have hground₁ : d₁.Grounded p := hground.of_extends hextends₁
  have hresolve₁ : d₁.resolve p = .ok full := by rw [← resolve_of_workingDirectory hle.workingDirectory, hresolve]
  obtain rfl := resolve_eq_ok htree₁ hground₁ hresolve₁
  obtain ⟨hl, hthere⟩ := ensureFile_eq_ok hensure
  have hfree : later₁.hasDirectory l = false := by
    rw [Bool.eq_false_iff, ne_eq, hasDirectory_iff]
    rcases hthere with ⟨⟨content, hcontent⟩, -⟩ | ⟨hnone, -⟩
    · simp [hcontent]
    · simp [hnone]
  have hl₁ : d₁.locate ⟨.root, d₁.place p⟩ = .ok l := by
    rw [← place_of_workingDirectory hle.workingDirectory] at hl
    exact hle.locate_place htree₁ htreeLater₁ hground₁ hw (makeDirs_eq_ok hmade) (makeDirs_eq_ok hmake) hl hfree
  have hfree₁ : d₁.hasDirectory l = false := by
    rw [Bool.eq_false_iff] at hfree ⊢
    exact fun hthere => hfree (hle.directories l hthere)
  obtain ⟨d₂, hensure₁⟩ := exists_ensureFile hl₁ hfree₁
  exact ⟨d₂, by simp only [openLogFile, hmade, hresolve₁, hensure₁]⟩

end

end Workspace

end IconForge
