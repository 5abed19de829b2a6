import IconForge.Proofs.Disk.Lookup

/-!
# Where paths lead

If all on the way are directories, a path leads where its parts say, two dots taking back the part before them (`place`); looking a
path up gives this place or nothing (`locate_eq_place`), and it goes on giving it as long as directories stay (`locate_of_directories`).
A path on which two dots only leave directories that are there is looked up wherever its place has an entry (`Firm.locate`).
-/

namespace IconForge.Disk

/-- One part further from a location. -/
def step (l : Location) (part : String) : Location := if part = ".." then l.dropLast else l ++ [part]

/-- Where some parts lead from a location. -/
def descend (l : Location) (parts : List String) : Location := parts.foldl step l

/-- Where a path leads. -/
def place (d : Disk) (p : Path) : Location := descend (d.start p) p.parts

variable {d d' : Disk} {p : Path} {l m : Location} {part name : String} {parts rest : List String}

theorem step_of_ne (h : name ≠ "..") : step l name = l ++ [name] := if_neg h

/-- Parts lead on from where the parts before them lead. -/
theorem descend_append (l : Location) (parts rest : List String) : descend l (parts ++ rest) = descend (descend l parts) rest :=
  List.foldl_append

/-- Without ways back up, parts lead down. -/
theorem descend_of_forall_ne (h : ∀ part ∈ parts, part ≠ "..") : descend l parts = l ++ parts := by
  induction parts generalizing l with
  | nil => exact (List.append_nil l).symm
  | cons part rest ih =>
    have hrest := @ih (l ++ [part]) fun q hq => h q (List.mem_cons_of_mem _ hq)
    rw [List.append_assoc, List.singleton_append, ← step_of_ne (h part List.mem_cons_self)] at hrest
    exact hrest

/-- Parts without ways back up stay as they are when these are taken. -/
theorem collapse_of_forall_ne {back : List String} (h : ∀ part ∈ parts, part ≠ "..") : collapse back parts = back.reverse ++ parts := by
  induction parts generalizing back with
  | nil => exact (List.append_nil _).symm
  | cons part rest ih =>
    rw [collapse, if_neg (h part List.mem_cons_self), ih fun q hq => h q (List.mem_cons_of_mem _ hq)]
    simp

/-- The place of a child is right below. -/
theorem place_child (d : Disk) (p : Path) (h : name ≠ "..") : d.place (p.child name) = d.place p ++ [name] := by
  have hstart : d.start (p.child name) = d.start p := rfl
  rw [place, hstart, Path.child, descend_append]
  exact step_of_ne h

/-- Parts with proper names lead to locations with proper names. -/
theorem ne_empty_of_mem_descend (hl : ∀ name ∈ l, name ≠ "") (hparts : ∀ part ∈ parts, part ≠ "") :
    ∀ name ∈ descend l parts, name ≠ "" := by
  induction parts generalizing l with
  | nil => exact hl
  | cons part rest ih =>
    refine ih (fun name hname => ?_) fun q hq => hparts q (List.mem_cons_of_mem _ hq)
    rw [step] at hname
    split at hname
    · exact hl name (List.dropLast_subset l hname)
    · rcases List.mem_append.mp hname with hname | hname
      · exact hl name hname
      · rw [List.mem_singleton.mp hname]
        exact hparts part List.mem_cons_self

/-! ## Walks -/

/-- A walk in two stretches. -/
theorem walk_append (d : Disk) (l : Location) (parts rest : List String) :
    d.walk l (parts ++ rest) = (d.walk l parts).bind fun m => d.walk m rest := by
  induction parts generalizing l with
  | nil => rfl
  | cons part parts ih =>
    rw [List.cons_append, walk, walk]
    split
    · rfl
    · rfl
    · split
      · rfl
      · split
        · rfl
        · exact ih _

/-- A part can be walked from a directory that is not gone, or back up from one that is. -/
theorem walk_cons_eq_ok_iff : d.walk l (part :: rest) = .ok m ↔
    d.hasDirectory l = true ∧ (isStray l = false ∨ part = "..") ∧ part.utf8ByteSize ≤ nameLimit ∧ d.walk (step l part) rest = .ok m := by
  rw [walk, hasDirectory_iff]
  cases hl : d.get? l with
  | none => simp
  | some e =>
    cases e with
    | file content => simp
    | directory =>
      by_cases hstray : (isStray l && part != "..") = true
      · simp_all
      · by_cases hlong : nameLimit < part.utf8ByteSize
        · have hnot : ¬part.utf8ByteSize ≤ nameLimit := Nat.not_le.mpr hlong
          simp [hstray, hlong, hnot]
        · have hgo : isStray l = false ∨ part = ".." := by
            cases hs : isStray l <;> simp_all
          simp only [hstray, hlong, hgo, if_false, true_and, Bool.false_eq_true]
          have hshort : part.utf8ByteSize ≤ nameLimit := Nat.le_of_not_lt hlong
          simp [hshort, step]

/-- A walk ends where its parts lead. -/
theorem walk_eq_ok (h : d.walk l parts = .ok m) : m = descend l parts := by
  induction parts generalizing l with
  | nil => exact (Except.ok.inj h).symm
  | cons part rest ih => exact ih (walk_cons_eq_ok_iff.mp h).2.2.2

/-- No part of a walk is too long for a name. -/
theorem short_of_walk (h : d.walk l parts = .ok m) : ∀ part ∈ parts, part.utf8ByteSize ≤ nameLimit := by
  induction parts generalizing l with
  | nil => simp
  | cons part rest ih =>
    obtain ⟨-, -, hshort, hrest⟩ := walk_cons_eq_ok_iff.mp h
    simpa using ⟨hshort, ih hrest⟩

/-- A walk can be repeated as long as directories stay. -/
theorem walk_of_directories (hstay : ∀ l, d.hasDirectory l = true → d'.hasDirectory l = true) (h : d.walk l parts = .ok m) :
    d'.walk l parts = .ok m := by
  induction parts generalizing l with
  | nil => exact h
  | cons part rest ih =>
    obtain ⟨hdir, hgo, hshort, hrest⟩ := walk_cons_eq_ok_iff.mp h
    exact walk_cons_eq_ok_iff.mpr ⟨hstay l hdir, hgo, hshort, ih hrest⟩

/-! ## Looking paths up -/

/-- A path leads to a location exactly when it holds no zero byte and can be walked. -/
theorem locate_eq_ok_iff : d.locate p = .ok l ↔ holdsZeroByte p = false ∧ d.walk (d.start p) p.parts = .ok l := by
  rw [locate]
  cases holdsZeroByte p <;> simp

/-- A path that is looked up leads to its place. -/
theorem eq_place_of_locate (h : d.locate p = .ok l) : l = d.place p := walk_eq_ok (locate_eq_ok_iff.mp h).2

theorem start_of_isAbsolute (h : p.isAbsolute = true) : d.start p = [] := if_pos h

/-- Where an absolute path leads does not depend on the disk. -/
theorem place_of_isAbsolute (h : p.isAbsolute = true) (d : Disk) : d.place p = descend [] p.parts := by
  rw [place, start_of_isAbsolute h]

/-- Where a path starts depends on the working directory only. -/
theorem start_of_workingDirectory (h : d'.workingDirectory = d.workingDirectory) (p : Path) : d'.start p = d.start p := by
  rw [start, start, h]

/-- Where a path leads depends on the working directory only. -/
theorem place_of_workingDirectory (h : d'.workingDirectory = d.workingDirectory) (p : Path) : d'.place p = d.place p := by
  rw [place, place, start_of_workingDirectory h]

/-- A child is looked up in a directory that is not gone. -/
theorem locate_child_eq_ok_iff (h : name ≠ "..") : d.locate (p.child name) = .ok l ↔
    ∃ base, d.locate p = .ok base ∧ d.hasDirectory base = true ∧ isStray base = false ∧ '\x00' ∉ name.toList ∧
      name.utf8ByteSize ≤ nameLimit ∧ l = base ++ [name] := by
  have hzero : holdsZeroByte (p.child name) = false ↔ holdsZeroByte p = false ∧ '\x00' ∉ name.toList := by
    simp [holdsZeroByte, Path.child]
  have hparts : (p.child name).parts = p.parts ++ [name] := rfl
  have hstart : d.start (p.child name) = d.start p := rfl
  rw [locate_eq_ok_iff, hzero, hparts, hstart, walk_append]
  constructor
  · rintro ⟨⟨hz, hname⟩, hw⟩
    cases hp : d.walk (d.start p) p.parts with
    | error r =>
      rw [hp] at hw
      cases hw
    | ok base =>
      rw [hp] at hw
      obtain ⟨hdir, hgo, hshort, hend⟩ := walk_cons_eq_ok_iff.mp hw
      rw [step_of_ne h] at hend
      exact ⟨base, locate_eq_ok_iff.mpr ⟨hz, hp⟩, hdir, hgo.resolve_right h, hname, hshort, (Except.ok.inj hend).symm⟩
  · rintro ⟨base, hp, hdir, hstray, hname, hshort, rfl⟩
    obtain ⟨hz, hw⟩ := locate_eq_ok_iff.mp hp
    refine ⟨⟨hz, hname⟩, ?_⟩
    rw [hw]
    exact walk_cons_eq_ok_iff.mpr ⟨hdir, .inl hstray, hshort, by rw [step_of_ne h]; rfl⟩

/-- A name in a directory is looked up. -/
theorem locate_child (hp : d.locate p = .ok l) (hdir : d.hasDirectory l = true) (hl : isStray l = false) (hname : IsName name) :
    d.locate (p.child name) = .ok (l ++ [name]) :=
  (locate_child_eq_ok_iff hname.ne_up).mpr ⟨l, hp, hdir, hl, hname.noZeroByte, hname.short, rfl⟩

/-- A path goes on leading to its place as long as directories stay. -/
theorem locate_of_directories (hwd : d'.workingDirectory = d.workingDirectory)
    (hstay : ∀ l, d.hasDirectory l = true → d'.hasDirectory l = true) (h : d.locate p = .ok l) : d'.locate p = .ok l := by
  obtain ⟨hz, hw⟩ := locate_eq_ok_iff.mp h
  exact locate_eq_ok_iff.mpr ⟨hz, by rw [start_of_workingDirectory hwd]; exact walk_of_directories hstay hw⟩

/-- The working directory is where it was, or it is gone. -/
def SameStart (d d' : Disk) : Prop :=
  d'.workingDirectory = d.workingDirectory ∨ d'.workingDirectory = d.workingDirectory.dropLast ++ [""]

theorem SameStart.refl (d : Disk) : SameStart d d := .inl rfl

/-- The working directory is where it was, or gone, behind two changes if it is so behind each. -/
theorem SameStart.trans {d'' : Disk} (h : SameStart d d') (h' : SameStart d' d'') : SameStart d d'' := by
  unfold SameStart at *
  rcases h with h | h <;> rcases h' with h' | h' <;> simp [h, h']

/-- Once the working directory is gone, a path leads where it did or nowhere. The empty path leads to what is left of it. -/
theorem locate_eq_place (hstart : SameStart d d') (h : d'.locate p = .ok l) (hl : p.parts ≠ [] ∨ isStray l = false) : l = d.place p := by
  by_cases habs : p.isAbsolute = true
  · rw [eq_place_of_locate h, place_of_isAbsolute habs, place_of_isAbsolute habs]
  have hw := (locate_eq_ok_iff.mp h).2
  have hend := walk_eq_ok hw
  rcases hstart with hsame | hgone
  · rw [eq_place_of_locate h, place_of_workingDirectory hsame]
  · have hfrom : d'.start p = d.workingDirectory.dropLast ++ [""] := by rw [start, if_neg habs, hgone]
    have hfrom' : d.start p = d.workingDirectory := if_neg habs
    cases hparts : p.parts with
    | nil =>
      rw [hparts, hfrom] at hend
      rcases hl with hl | hl
      · exact absurd hparts hl
      · rw [hend] at hl
        simp [descend] at hl
    | cons part rest =>
      rw [hparts, hfrom] at hw hend
      have hup : part = ".." := by
        rcases (walk_cons_eq_ok_iff.mp hw).2.1 with hs | hs
        · simp at hs
        · exact hs
      rw [hend, place, hfrom', hparts, hup]
      simp [descend, step]

/-! ## What is where a path leads -/

/-- A path is found to be a directory exactly when it leads to one. -/
theorem isDirectory_eq_ok_iff : d.isDirectory p = .ok true ↔ ∃ l, d.locate p = .ok l ∧ d.hasDirectory l = true := by
  rw [isDirectory, ask, status]
  cases hl : d.locate p with
  | error r => cases r <;> simp
  | ok l => cases hg : d.get? l <;> simp [hasDirectory, hg]

/-- A path goes on leading to a directory as long as directories stay. -/
theorem isDirectory_of_directories (hwd : d'.workingDirectory = d.workingDirectory)
    (hstay : ∀ l, d.hasDirectory l = true → d'.hasDirectory l = true) (h : d.isDirectory p = .ok true) : d'.isDirectory p = .ok true := by
  obtain ⟨l, hl, hdir⟩ := isDirectory_eq_ok_iff.mp h
  exact isDirectory_eq_ok_iff.mpr ⟨l, locate_of_directories hwd hstay hl, hstay l hdir⟩

/-- A path is found to be there exactly when it leads to something. -/
theorem pathExists_eq_ok_iff : d.pathExists p = .ok true ↔ ∃ l, d.locate p = .ok l ∧ d.IsThere l := by
  rw [pathExists, ask, status]
  cases hl : d.locate p with
  | error r => cases r <;> simp
  | ok l => cases hg : d.get? l <;> simp [IsThere, hg]

/-- A path is found to be a file exactly when it leads to one. -/
theorem isFile_eq_ok_iff : d.isFile p = .ok true ↔ ∃ l content, d.locate p = .ok l ∧ d.get? l = some (.file content) := by
  rw [isFile, ask, status]
  cases hl : d.locate p with
  | error r => cases r <;> simp
  | ok l =>
    cases hg : d.get? l with
    | none => simp [hg]
    | some e => cases e <;> simp [hg]

/-! ## Firm paths -/

/-- The ways back up on a path from a location only leave directories that are there. -/
def Firm (d : Disk) (l : Location) : List String → Prop
  | [] => True
  | part :: rest => (part = ".." → d.hasDirectory l = true) ∧ d.Firm (step l part) rest

/-- A path without ways back up is firm. -/
theorem firm_of_forall_ne (h : ∀ part ∈ parts, part ≠ "..") : d.Firm l parts := by
  induction parts generalizing l with
  | nil => trivial
  | cons part rest ih =>
    exact ⟨fun hup => absurd hup (h part List.mem_cons_self), ih fun q hq => h q (List.mem_cons_of_mem _ hq)⟩

/-- Behind a stretch of a firm path, the rest of it is firm. -/
theorem Firm.of_append (h : d.Firm l (parts ++ rest)) : d.Firm (descend l parts) rest := by
  induction parts generalizing l with
  | nil => exact h
  | cons part parts ih => exact ih h.2

/-- The start of a firm path is firm. -/
theorem Firm.front (h : d.Firm l (parts ++ rest)) : d.Firm l parts := by
  induction parts generalizing l with
  | nil => trivial
  | cons part parts ih => exact ⟨h.1, ih h.2⟩

/-- A firm path stays firm when a name comes behind it. -/
theorem Firm.concat (h : d.Firm l parts) (hup : name ≠ "..") : d.Firm l (parts ++ [name]) := by
  induction parts generalizing l with
  | nil => exact ⟨fun heq => absurd heq hup, trivial⟩
  | cons part parts ih => exact ⟨h.1, ih h.2⟩

/-- From a location at which nothing is, a firm path leads on below it. -/
theorem Firm.prefix_descend (htree : d.IsTree) (h : d.Firm l parts) (hparts : ∀ part ∈ parts, part ≠ "") (hl : ¬d.IsThere l) :
    l <+: descend l parts := by
  induction parts generalizing l with
  | nil => exact List.prefix_refl l
  | cons part rest ih =>
    obtain ⟨hfirm, hrest⟩ := h
    have hne : part ≠ ".." := fun hup => hl (isThere_of_hasDirectory (hfirm hup))
    rw [step_of_ne hne] at hrest
    have hbelow : ¬d.IsThere (l ++ [part]) := fun hthere =>
      hl (isThere_of_hasDirectory (htree.closed (hparts part List.mem_cons_self) hthere))
    have hpre := ih hrest (fun q hq => hparts q (List.mem_cons_of_mem _ hq)) hbelow
    have hstep : descend l (part :: rest) = descend (l ++ [part]) rest := by rw [← step_of_ne hne]; rfl
    rw [hstep]
    exact (List.prefix_append l [part]).trans hpre

/-- A firm path to an entry can be walked. -/
theorem Firm.walk (htree : d.IsTree) (h : d.Firm l parts) (hparts : ∀ part ∈ parts, part ≠ "") (hl : isStray l = false)
    (hthere : d.IsThere (descend l parts)) :
    d.walk l parts = .ok (descend l parts) ∧ d.IsThere l ∧ ∀ part ∈ parts, '\x00' ∉ part.toList := by
  induction parts generalizing l with
  | nil => exact ⟨rfl, hthere, by simp⟩
  | cons part rest ih =>
    obtain ⟨hfirm, hrest⟩ := h
    have hne := hparts part List.mem_cons_self
    simp only [List.forall_mem_cons]
    by_cases hup : part = ".."
    · have hdir := hfirm hup
      have hstray : isStray (step l part) = false := by
        rw [step, if_pos hup]
        simpa using isStray_append isStray_nil fun name hname =>
          htree.named hl (isThere_of_hasDirectory hdir) name (List.dropLast_subset l hname)
      obtain ⟨hwalk, -, hzero⟩ := ih hrest (fun q hq => hparts q (List.mem_cons_of_mem _ hq)) hstray hthere
      refine ⟨walk_cons_eq_ok_iff.mpr ⟨hdir, .inr hup, ?_, hwalk⟩, isThere_of_hasDirectory hdir, ?_, hzero⟩
      · rw [hup]
        decide
      · simp [hup]
    · have hstray : isStray (step l part) = false := by simpa [step_of_ne hup] using hne
      obtain ⟨hwalk, hnext, hzero⟩ := ih hrest (fun q hq => hparts q (List.mem_cons_of_mem _ hq)) hstray hthere
      have hname := htree.named hstray hnext part (by simp [step_of_ne hup])
      rw [step_of_ne hup] at hnext
      have hdir := htree.closed hne hnext
      exact ⟨walk_cons_eq_ok_iff.mpr ⟨hdir, .inl hl, hname.short, hwalk⟩, isThere_of_hasDirectory hdir, hname.noZeroByte, hzero⟩

/-- A firm path from the root to an entry is looked up. -/
theorem Firm.locate (htree : d.IsTree) (habs : p.isAbsolute = true) (h : d.Firm [] p.parts) (hparts : ∀ part ∈ p.parts, part ≠ "")
    (hthere : d.IsThere (d.place p)) : d.locate p = .ok (d.place p) := by
  rw [place_of_isAbsolute habs] at hthere ⊢
  obtain ⟨hwalk, -, hzero⟩ := h.walk htree hparts isStray_nil hthere
  refine locate_eq_ok_iff.mpr ⟨?_, by rw [start_of_isAbsolute habs]; exact hwalk⟩
  simpa [holdsZeroByte] using hzero

/-- A directory of a tree is looked up by its names. -/
theorem locate_of_hasDirectory (htree : d.IsTree) (hdir : d.hasDirectory l = true) (hl : isStray l = false) :
    d.locate ⟨.root, l⟩ = .ok l := by
  have hnames := htree.named hl (isThere_of_hasDirectory hdir)
  have hplace : d.place ⟨.root, l⟩ = l := by
    rw [place_of_isAbsolute rfl, descend_of_forall_ne fun part hpart => (hnames part hpart).ne_up]
    rfl
  have hfirm : d.Firm [] l := firm_of_forall_ne fun part hpart => (hnames part hpart).ne_up
  have hlocate := hfirm.locate (p := ⟨.root, l⟩) htree rfl (fun part hpart => (hnames part hpart).ne_empty)
    (hplace.symm ▸ isThere_of_hasDirectory hdir)
  rw [hlocate, hplace]

end IconForge.Disk
