import IconForge.Proofs.Disk.Change

/-!
# What copying leaves alone

Copying a tree or some files into a directory touches nothing outside that directory, however it ends, and leaves every directory
where it is (`copyTree_fills`, `copyFiles_fills`). A target is given in writing, and each entry is copied to a name written behind it;
as entries have names that hold no slash and lead nowhere else, these targets lie below the first one (`Leads.under`).
-/

namespace IconForge.Disk

/-- A written path leads to a location. -/
structure Leads (d : Disk) (written : String) (l : Location) : Prop where
  ne_empty : written ≠ ""
  locate : d.locate (Path.ofString written) = .ok l
  kept : isStray l = false

/-- A later disk that is a tree and on which all but what lies at or below a location is as it was. -/
structure Fills (base : Location) (d d' : Disk) : Prop where
  grows : Grows (base <+: ·) (fun _ => False) d d'
  isTree : d'.IsTree

variable {α : Type} {free made : Location → Prop} {d d' d'' : Disk} {base l : Location} {written name : String}

namespace Leads

/-- A path leads where it led when the disk has grown. -/
theorem grows (h : Leads d written l) (hg : Grows free made d d') : Leads d' written l := ⟨h.ne_empty, hg.locate h.locate, h.kept⟩

/-- A name behind a path to a directory leads right below it. -/
theorem under (h : Leads d written l) (hdir : d.hasDirectory l = true) (hname : IsName name) :
    Leads d (under written name) (l ++ [name]) where
  ne_empty := under_ne_empty hname.part
  locate := by
    rw [ofString_under h.ne_empty hname.part hname.noSlash]
    exact locate_child h.locate hdir h.kept hname
  kept := by simpa using hname.ne_empty

/-- A written path leads to a directory exactly when there is one at its location. -/
theorem leadsToDirectory (h : Leads d written l) : d.leadsToDirectory written = d.hasDirectory l := by
  rw [Disk.leadsToDirectory, isDirectory, ask, status, h.locate]
  cases hg : d.get? l with
  | none => simp [hasDirectory, hg, Except.toOption]
  | some e => cases e <;> simp [hasDirectory, hg, Except.toOption]

end Leads

namespace Fills

theorem refl (h : d.IsTree) : Fills base d d := ⟨.refl d, h⟩

theorem trans (h : Fills base d d') (h' : Fills base d' d'') : Fills base d d'' := ⟨h.grows.trans h'.grows, h'.isTree⟩

/-- What fills a location fills those above it. -/
theorem above (h : Fills l d d') (hpre : base <+: l) : Fills base d d' :=
  ⟨h.grows.mono (fun _ hm => hpre.trans hm) fun _ hm => hm, h.isTree⟩

/-- Elsewhere all is as it was. -/
theorem get?_outside (h : Fills base d d') (hl : ¬base <+: l) : d'.get? l = d.get? l := by
  rcases h.grows.outside l hl with heq | ⟨-, hfalse, -⟩
  · exact heq
  · exact hfalse.elim

end Fills

/-! ## Directories -/

/-- What lies above the end of a path is a directory. -/
theorem locate_parent {p : Path} (h : d.locate p = .ok l) (hne : p.parts ≠ []) :
    ∃ m, d.locate p.parent = .ok m ∧ d.hasDirectory m = true := by
  obtain ⟨hzero, hwalk⟩ := locate_eq_ok_iff.mp h
  have hsplit : p.parts = p.parent.parts ++ [p.parts.getLast hne] := (List.dropLast_concat_getLast hne).symm
  have hzero' : holdsZeroByte p.parent = false := by
    rw [holdsZeroByte, hsplit, List.any_append, Bool.or_eq_false_iff] at hzero
    exact hzero.1
  rw [hsplit, walk_append] at hwalk
  cases hm : d.walk (d.start p) p.parent.parts with
  | error r =>
    rw [hm] at hwalk
    cases hwalk
  | ok m =>
    rw [hm] at hwalk
    exact ⟨m, locate_eq_ok_iff.mpr ⟨hzero', hm⟩, (walk_cons_eq_ok_iff.mp hwalk).1⟩

/-- Makes the one directory that a written path names, which may be there already. -/
def ensureOne (d : Disk) (written : String) : Except Fault Unit × Disk :=
  match d.makeDirectory (Path.ofString written) with
  | .ok d => (.ok (), d)
  | .error r => if d.leadsToDirectory written then (.ok (), d) else (.error (r.fault written), d)

/-- A directory is made once the one that leads to it is there. -/
theorem ensureDirectories_succ (depth : Nat) (d : Disk) (written : String) :
    d.ensureDirectories (depth + 1) written =
      if ((Path.ofString written).parts.length < 2 || ((d.pathExists (Path.ofString written).parent).toOption).getD false) = true then
        d.ensureOne written
      else match d.ensureDirectories depth (Path.ofString written).parent.toString with
        | (.error f, d) => if f.kind = .present then d.ensureOne written else (.error f, d)
        | (.ok (), d) => d.ensureOne written := by
  rw [ensureDirectories]
  by_cases hparent : ((Path.ofString written).parts.length < 2 ||
      ((d.pathExists (Path.ofString written).parent).toOption).getD false) = true
  · simp only [hparent, if_true]
    rfl
  · simp only [hparent, if_false, Bool.false_eq_true]
    rcases d.ensureDirectories depth (Path.ofString written).parent.toString with ⟨f | ⟨⟩, d₁⟩
    · by_cases hpresent : f.kind = .present
      · simp only [hpresent, if_true]
        rfl
      · simp only [hpresent, if_false]
    · rfl

/-- Where a path leads there is a directory, or one is made where nothing was, or that fails. -/
theorem ensureDirectory_cases (h : Leads d written l) :
    (d.hasDirectory l = true ∧ d.ensureDirectory written = (.ok (), d)) ∨
    (d.get? l = none ∧ d.makeDirectory (Path.ofString written) = .ok (d.put l .directory) ∧
      d.ensureDirectory written = (.ok (), d.put l .directory)) ∨
    ∃ f, d.ensureDirectory written = (.error f, d) := by
  have hparent : ((Path.ofString written).parts.length < 2 ||
      ((d.pathExists (Path.ofString written).parent).toOption).getD false) = true := by
    by_cases hne : (Path.ofString written).parts = []
    · simp [hne]
    · obtain ⟨m, hm, hdir⟩ := locate_parent h.locate hne
      rw [pathExists_eq_ok_iff.mpr ⟨m, hm, isThere_of_hasDirectory hdir⟩]
      simp [Except.toOption]
  rw [ensureDirectory, ensureDirectories]
  simp only [hparent, if_true]
  cases hmake : d.makeDirectory (Path.ofString written) with
  | ok d' =>
    obtain ⟨q, name, l', -, -, hl', hnone, rfl⟩ := makeDirectory_eq_ok hmake
    rw [h.locate, Except.ok.injEq] at hl'
    rw [← hl'] at hnone ⊢
    exact .inr (.inl ⟨hnone, rfl, rfl⟩)
  | error r =>
    simp only [h.leadsToDirectory]
    by_cases hdir : d.hasDirectory l = true
    · rw [if_pos hdir]
      exact .inl ⟨hdir, rfl⟩
    · rw [if_neg hdir]
      exact .inr (.inr ⟨_, rfl⟩)

/-- Where a path leads there is a directory, and at most that has been added, or it fails and nothing has changed. -/
theorem ensureDirectory_fills (htree : d.IsTree) (h : Leads d written l) :
    (∃ d', d.ensureDirectory written = (.ok (), d') ∧ Fills l d d' ∧ d'.hasDirectory l = true ∧
      ∀ m, m ≠ l → d'.get? m = d.get? m) ∨
    ∃ f, d.ensureDirectory written = (.error f, d) := by
  rcases ensureDirectory_cases h with ⟨hdir, heq⟩ | ⟨hnone, hmake, heq⟩ | herror
  · exact .inl ⟨d, heq, .refl htree, hdir, fun _ _ => rfl⟩
  · obtain ⟨q, name, l', hq, hup, hl', -, -⟩ := makeDirectory_eq_ok hmake
    have hne : l ≠ [] := ne_nil_of_locate hup (hq ▸ h.locate)
    have hput : (d.put l .directory).IsTree := (makeDirectory_opens hmake).isTree (Path.isWritten_ofString written) htree
    refine .inl ⟨_, heq, ⟨.put hne (.inl rfl) (List.prefix_refl l), hput⟩, ?_, fun m hm => by rw [get?_put hne, if_neg hm]⟩
    rw [hasDirectory_iff, get?_put hne, if_pos rfl]
  · exact .inr herror

/-! ## Files -/

/-- A path leads to a file that is copied, as long as that file comes from the disk. -/
def leadsToOrigin (d : Disk) (into : Path) (origin? : Option Location) : Bool :=
  match d.locate into, origin? with
  | .ok l, some origin => l = origin && (d.get? l).isSome
  | _, _ => false

/-- Writes the bytes of a source that is copied to a target. -/
def writeCopy (d : Disk) (source target into : String) (content : List UInt8) : List CopyFault × Disk :=
  match d.writeBytes (Path.ofString into) content with
  | .ok d => ([], d)
  | .error r => ([.failed source target (r.fault into).message], d)

/-- A file is written to where it goes, unless that is the file itself. -/
theorem copyFile_eq (d : Disk) (name source target : String) (origin? : Option Location) (content : List UInt8) :
    d.copyFile name source target origin? content =
      let into := if d.leadsToDirectory target then under target name else target
      if d.leadsToOrigin (Path.ofString into) origin? = true then
        ((("<DirEntry " ++ Text.shown name ++ "> and " ++ Text.shown into ++ " are the same file").toList.map .letter), d)
      else d.writeCopy source target into content := by
  unfold copyFile leadsToOrigin
  simp only
  generalize (if d.leadsToDirectory target then under target name else target) = into
  cases d.locate (Path.ofString into) with
  | error r =>
    simp only [Bool.false_eq_true, if_false]
    rfl
  | ok l =>
    cases origin? with
    | none =>
      simp only [Bool.false_eq_true, if_false]
      rfl
    | some origin => rfl

/-- Where a file goes that is copied to a name: a directory of that name takes it. -/
def slot (d : Disk) (l : Location) (name : String) : Location :=
  if d.hasDirectory (l ++ [name]) = true then l ++ [name] ++ [name] else l ++ [name]

/-- A file that is copied to a name in a directory lands in its slot, unless something is left out. -/
theorem copyFile_cases (htree : d.IsTree) (h : Leads d written l) (hdir : d.hasDirectory l = true) (hname : IsName name)
    (source : String) (origin? : Option Location) (content : List UInt8) :
    (∃ faults, faults ≠ [] ∧ d.copyFile name source (under written name) origin? content = (faults, d)) ∨
    (d.get? (d.slot l name) ≠ some .directory ∧ (d.put (d.slot l name) (.file content)).IsTree ∧
      d.copyFile name source (under written name) origin? content = ([], d.put (d.slot l name) (.file content))) := by
  have hgoal := h.under hdir hname
  obtain ⟨q, hq, hinto⟩ : ∃ q : Path, Path.ofString (if d.leadsToDirectory (under written name) then under (under written name) name
      else under written name) = q.child name ∧ d.locate (q.child name) = .ok (d.slot l name) := by
    rw [hgoal.leadsToDirectory, slot]
    split
    · rename_i hgoalDir
      have hinner := (hgoal.under hgoalDir hname).locate
      rw [ofString_under hgoal.ne_empty hname.part hname.noSlash] at hinner ⊢
      exact ⟨_, rfl, hinner⟩
    · have houter := hgoal.locate
      rw [ofString_under h.ne_empty hname.part hname.noSlash] at houter ⊢
      exact ⟨_, rfl, houter⟩
  have hw : (q.child name).IsWritten := hq ▸ Path.isWritten_ofString _
  have hwriting : (∃ r, d.writeBytes (q.child name) content = .error r) ∨
      (d.get? (d.slot l name) ≠ some .directory ∧ (d.put (d.slot l name) (.file content)).IsTree ∧
        d.writeBytes (q.child name) content = .ok (d.put (d.slot l name) (.file content))) := by
    cases hwrite : d.writeBytes (q.child name) content with
    | error r => exact .inl ⟨r, rfl⟩
    | ok d' =>
      obtain ⟨l', hl', hne, rfl⟩ := writeBytes_eq_ok hwrite
      rw [hinto, Except.ok.injEq] at hl'
      rw [← hl'] at hne ⊢
      exact .inr ⟨hne, htree.put_locate hw hname.ne_up hinto (.inr hne), rfl⟩
  unfold copyFile
  simp only [hq, hinto]
  -- The file is refused or written, and with an origin it may be left out as the same file.
  rcases hwriting with ⟨r, hr⟩ | ⟨hne, hput, hr⟩ <;> simp only [hr] <;> split
  · split
    · refine .inl ⟨_, ?_, rfl⟩
      simp
    · exact .inl ⟨_, List.cons_ne_nil _ _, rfl⟩
  · exact .inl ⟨_, List.cons_ne_nil _ _, rfl⟩
  · split
    · refine .inl ⟨_, ?_, rfl⟩
      simp
    · exact .inr ⟨hne, hput, rfl⟩
  · exact .inr ⟨hne, hput, rfl⟩

/-- The slot of a file lies in the directory that it is copied to. -/
theorem prefix_slot (d : Disk) (l : Location) (name : String) : l ++ [name] <+: d.slot l name := by
  rw [slot]
  split
  · exact List.prefix_append _ _
  · exact List.prefix_refl _

theorem slot_ne_nil (d : Disk) (l : Location) (name : String) : d.slot l name ≠ [] := by
  intro hnil
  have hpre := prefix_slot d l name
  rw [hnil, List.prefix_nil] at hpre
  simp at hpre

/-- Copying a file touches only what lies at or below its name. -/
theorem copyFile_fills (htree : d.IsTree) (h : Leads d written l) (hdir : d.hasDirectory l = true) (hname : IsName name)
    (source : String) (origin? : Option Location) (content : List UInt8) :
    Fills (l ++ [name]) d (d.copyFile name source (under written name) origin? content).2 := by
  rcases copyFile_cases htree h hdir hname source origin? content with ⟨faults, -, heq⟩ | ⟨hne, hput, heq⟩
  · rw [heq]
    exact .refl htree
  · rw [heq]
    exact ⟨.put (slot_ne_nil d l name) (.inr hne) (prefix_slot d l name), hput⟩

/-! ## Trees -/

/-- What holds when each of some things has been copied, if it did before, holds when they have been copied one after the other. -/
theorem copyEach_rec {motive : Disk → Prop} {copy : Disk → α → CopyEnd × Disk} {xs : List α}
    (hstep : ∀ d x, x ∈ xs → motive d → motive (copy d x).2) (hd : motive d) : motive (copyEach copy xs d).2 := by
  induction xs generalizing d with
  | nil => exact hd
  | cons x xs ih =>
    have hfirst := hstep d x List.mem_cons_self hd
    rw [copyEach]
    rcases hx : copy d x with ⟨f | faults, d₁⟩ <;> rw [hx] at hfirst
    · exact hfirst
    · have hrest := ih (fun d x hmem => hstep d x (List.mem_cons_of_mem _ hmem)) hfirst
      simp only
      rcases hr : copyEach copy xs d₁ with ⟨f | more, d₂⟩ <;> rw [hr] at hrest <;> exact hrest

/-- A directory that can be copied into: a tree with a written path to a directory. -/
structure Target (d : Disk) (written : String) (l : Location) : Prop where
  isTree : d.IsTree
  leads : Leads d written l
  directory : d.hasDirectory l = true

/-- A directory can still be copied into when something has been filled. -/
theorem Target.fills (h : Target d written l) (hf : Fills base d d') : Target d' written l :=
  ⟨hf.isTree, h.leads.grows hf.grows, hf.grows.directories l h.directory⟩

/-- Things that are copied one after the other fill the target if each of them does. -/
theorem copyEach_fills {copy : Disk → α → CopyEnd × Disk} {xs : List α} (h : Target d written base)
    (hstep : ∀ d x, x ∈ xs → Target d written base → Fills base d (copy d x).2) : Fills base d (copyEach copy xs d).2 := by
  refine copyEach_rec (motive := Fills base d) (fun d₁ x hmem h₁ => ?_) (.refl h.isTree)
  exact h₁.trans (hstep d₁ x hmem (h.fills h₁))

/-- Copying one entry touches only what lies at or below its name, if that is so for whole trees. -/
theorem copyEntry_fills {copy : Disk → Location → String → String → CopyEnd × Disk}
    (ih : ∀ {d : Disk} {written : String} {base : Location} (l : Location) (source : String), d.IsTree →
      Leads d written base → Fills base d (copy d l source written).2)
    (h : Target d written base) (hname : IsName name) (origin : Location) (source : String) :
    Fills (base ++ [name]) d (copyEntry copy origin source written d name).2 := by
  have htree := ih (origin ++ [name]) (Disk.under source name) h.isTree (h.leads.under h.directory hname)
  unfold copyEntry
  simp only
  split
  · split <;> rename_i hc <;> rw [hc] at htree <;> exact htree
  · rename_i content _
    rw [Prod.map_snd, id]
    exact copyFile_fills h.isTree h.leads h.directory hname (Disk.under source name) (some (origin ++ [name])) content
  · exact .refl h.isTree

/-- Copying a tree touches only what lies at or below its target. -/
theorem copyTree_fills (htree : d.IsTree) (h : Leads d written base) (depth : Nat) (l : Location) (source : String) :
    Fills base d (copyTree depth d l source written).2 := by
  induction depth generalizing d written base l source with
  | zero => exact .refl htree
  | succ depth ih =>
    rw [copyTree]
    rcases ensureDirectory_fills htree h with ⟨d₁, heq, hfills, hdir, -⟩ | ⟨f, heq⟩
    · rw [heq]
      refine hfills.trans (copyEach_fills ⟨hfills.isTree, h.grows hfills.grows, hdir⟩ fun d₂ name hname h₂ => ?_)
      have hentry := copyEntry_fills (fun l source htree hleads => ih htree hleads l source) h₂ (htree.isName_of_mem_names hname) l source
      exact hentry.above (List.prefix_append _ _)
    · rw [heq]
      exact .refl htree

theorem copyAnswer_snd (x : CopyEnd × Disk) : (copyAnswer x).2 = x.2 := by
  obtain ⟨outcome, d⟩ := x
  cases outcome with
  | broken f => rfl
  | ended faults => cases faults <;> rfl

/-- Copying a directory touches only what lies at or below its target. -/
theorem copyStatic_fills {target : Path} (htree : d.IsTree) (h : Leads d target.toString base) (source : Path) :
    Fills base d (d.copyStatic source target).2 := by
  unfold copyStatic
  split
  · exact .refl htree
  · exact .refl htree
  · split
    · exact .refl htree
    · rw [copyAnswer_snd]
      exact copyTree_fills htree h _ _ _

/-- Copying one of some files touches only what lies at or below its name. -/
theorem copyNote_fills {file : String × String} (h : Target d written base) (hname : IsName file.1) (source : String) :
    Fills (base ++ [file.1]) d (copyNote source written d file).2 := by
  rw [copyNote, Prod.map_snd, id]
  exact copyFile_fills h.isTree h.leads h.directory hname (under source file.1) none (Text.Utf8.encode file.2)

/-- Copying files touches only what lies at or below their target. -/
theorem copyFiles_fills {target : Path} {files : List (String × String)} (htree : d.IsTree) (h : Leads d target.toString base)
    (source : String) (hnames : ∀ file ∈ files, IsName file.1) : Fills base d (d.copyFiles source files target).2 := by
  unfold copyFiles
  rcases ensureDirectory_fills htree h with ⟨d₁, heq, hfills, hdir, -⟩ | ⟨f, heq⟩
  · rw [heq]
    simp only [copyAnswer_snd]
    refine hfills.trans (copyEach_fills ⟨hfills.isTree, h.grows hfills.grows, hdir⟩ fun d₂ file hfile h₂ => ?_)
    exact (copyNote_fills h₂ (hnames file hfile) source).above (List.prefix_append _ _)
  · rw [heq]
    exact .refl htree

/-! ## The working directory -/

theorem ensureOne_workingDirectory (d : Disk) (written : String) : (d.ensureOne written).2.workingDirectory = d.workingDirectory := by
  unfold ensureOne
  split
  · exact (makeDirectory_opens ‹_›).grows.workingDirectory
  · split <;> rfl

/-- Making directories that a written path names leaves the working directory where it is. -/
theorem ensureDirectories_workingDirectory (depth : Nat) (d : Disk) (written : String) :
    (d.ensureDirectories depth written).2.workingDirectory = d.workingDirectory := by
  induction depth generalizing d written with
  | zero => rfl
  | succ depth ih =>
    rw [ensureDirectories_succ]
    split
    · exact ensureOne_workingDirectory d written
    · have habove := ih d (Path.ofString written).parent.toString
      rcases hx : d.ensureDirectories depth (Path.ofString written).parent.toString with ⟨f | ⟨⟩, d₁⟩ <;> rw [hx] at habove
      · simp only
        split
        · exact (ensureOne_workingDirectory d₁ written).trans habove
        · exact habove
      · exact (ensureOne_workingDirectory d₁ written).trans habove

theorem writeBytes_workingDirectory {p : Path} {content : List UInt8} (h : d.writeBytes p content = .ok d') :
    d'.workingDirectory = d.workingDirectory := by
  obtain ⟨l, -, -, rfl⟩ := writeBytes_eq_ok h
  rfl

theorem copyFile_workingDirectory (d : Disk) (name source target : String) (origin? : Option Location) (content : List UInt8) :
    (d.copyFile name source target origin? content).2.workingDirectory = d.workingDirectory := by
  rw [copyFile_eq]
  simp only
  generalize (if d.leadsToDirectory target then under target name else target) = into
  split
  · rfl
  · unfold writeCopy
    split
    · exact writeBytes_workingDirectory ‹_›
    · rfl

/-- Copying a tree leaves the working directory where it is. -/
theorem copyTree_workingDirectory (depth : Nat) (d : Disk) (l : Location) (source target : String) :
    (copyTree depth d l source target).2.workingDirectory = d.workingDirectory := by
  induction depth generalizing d l source target with
  | zero => rfl
  | succ depth ih =>
    have hensure : (d.ensureDirectory target).2.workingDirectory = d.workingDirectory := ensureDirectories_workingDirectory _ d target
    rw [copyTree]
    rcases hx : d.ensureDirectory target with ⟨f | ⟨⟩, d₁⟩ <;> rw [hx] at hensure
    · exact hensure
    · refine copyEach_rec (motive := fun d₁ => d₁.workingDirectory = d.workingDirectory) (fun d₂ name _ h₂ => ?_) hensure
      rw [← h₂]
      unfold copyEntry
      simp only
      split
      · have htree := ih d₂ (l ++ [name]) (under source name) (under target name)
        split <;> rename_i hc <;> rw [hc] at htree <;> exact htree
      · rename_i content _
        rw [Prod.map_snd, id]
        exact copyFile_workingDirectory d₂ name (under source name) (under target name) (some (l ++ [name])) content
      · rfl

theorem copyStatic_workingDirectory (d : Disk) (source target : Path) :
    (d.copyStatic source target).2.workingDirectory = d.workingDirectory := by
  unfold copyStatic
  split
  · rfl
  · rfl
  · split
    · rfl
    · rw [copyAnswer_snd]
      exact copyTree_workingDirectory _ d _ _ _

theorem copyFiles_workingDirectory (d : Disk) (source : String) (files : List (String × String)) (target : Path) :
    (d.copyFiles source files target).2.workingDirectory = d.workingDirectory := by
  have hensure : (d.ensureDirectory target.toString).2.workingDirectory = d.workingDirectory := ensureDirectories_workingDirectory _ d _
  unfold copyFiles
  rcases hx : d.ensureDirectory target.toString with ⟨f | ⟨⟩, d₁⟩ <;> rw [hx] at hensure
  · exact hensure
  · simp only [copyAnswer_snd]
    refine copyEach_rec (motive := fun d₁ => d₁.workingDirectory = d.workingDirectory) (fun d₂ file _ h₂ => ?_) hensure
    rw [← h₂, copyNote, Prod.map_snd, id]
    exact copyFile_workingDirectory d₂ file.1 (under source file.1) (under target.toString file.1) none (Text.Utf8.encode file.2)

end IconForge.Disk
