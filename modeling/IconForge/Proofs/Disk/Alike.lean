import IconForge.Disk.Select
import IconForge.Proofs.Disk.Copying
import IconForge.Proofs.Distinct

/-!
# Disks that are alike

Two disks of one platform are alike when the same entries are at the same locations, but for files whose contents may differ in a given
way (`Alike`). Paths lead to the same locations on them, and every operation that reads no such file answers the same on both and leaves
them alike: what is listed depends on the entries that are there only, not on the order in which they were made
(`names_eq`, `listFiles_eq`), and so do the changes (`removeTree`, `makeDirs`, `writeText`, `copyStatic`, `copyFiles`).
-/

namespace IconForge.Disk

/-- The same entry, or two files whose contents differ as they may. -/
inductive Twin (differ : List UInt8 → List UInt8 → Prop) : Option Entry → Option Entry → Prop where
  | same (e? : Option Entry) : Twin differ e? e?
  | files {content content' : List UInt8} : differ content content' → Twin differ (some (.file content)) (some (.file content'))

/-- Disks with the same entries, but for files whose contents differ as they may at their locations. -/
structure Alike (differ : Location → List UInt8 → List UInt8 → Prop) (d d' : Disk) : Prop where
  workingDirectory : d'.workingDirectory = d.workingDirectory
  platform : d'.platform = d.platform
  get? : ∀ l, Twin (differ l) (d.get? l) (d'.get? l)

/-- Two changes of disks that answer the same and leave the disks alike. -/
def AlikeEnds {α : Type} (differ : Location → List UInt8 → List UInt8 → Prop) (x x' : α × Disk) : Prop :=
  x'.1 = x.1 ∧ Alike differ x.2 x'.2

/-- Two changes of disks that are refused alike, or leave the disks alike. -/
inductive AlikeChanges (differ : Location → List UInt8 → List UInt8 → Prop) : Except Refusal Disk → Except Refusal Disk → Prop where
  | refused (r : Refusal) : AlikeChanges differ (.error r) (.error r)
  | changed {d d' : Disk} : Alike differ d d' → AlikeChanges differ (.ok d) (.ok d')

variable {α : Type} {differ : Location → List UInt8 → List UInt8 → Prop} {d d' : Disk} {l : Location} {p : Path} {e : Entry}

/-- Answers that are the same stay so when they are put in another form. -/
theorem AlikeEnds.map {β : Type} {x x' : α × Disk} (h : AlikeEnds differ x x') (f : α → β) :
    AlikeEnds differ (x.map f id) (x'.map f id) := by
  refine ⟨?_, ?_⟩
  · rw [Prod.map_fst, Prod.map_fst, h.1]
  · rw [Prod.map_snd, Prod.map_snd]
    exact h.2

/-! ## Twins -/

namespace Twin

variable {differ : List UInt8 → List UInt8 → Prop} {x y : Option Entry}

theorem isSome_eq (h : Twin differ x y) : y.isSome = x.isSome := by
  cases h <;> rfl

theorem directory_iff (h : Twin differ x y) : y = some .directory ↔ x = some .directory := by
  cases h with
  | same => exact Iff.rfl
  | files => exact ⟨nofun, nofun⟩

theorem none_iff (h : Twin differ x y) : y = none ↔ x = none := by
  cases h with
  | same => exact Iff.rfl
  | files => exact ⟨nofun, nofun⟩

end Twin

namespace Alike

/-- Disks with the same entries are alike. -/
theorem of_get? (hwd : d'.workingDirectory = d.workingDirectory) (hplatform : d'.platform = d.platform)
    (h : ∀ l, d'.get? l = d.get? l) : Alike differ d d' :=
  ⟨hwd, hplatform, fun l => h l ▸ .same _⟩

/-- Disks that are alike are so as well where more may differ. -/
theorem mono {more : Location → List UInt8 → List UInt8 → Prop} (h : Alike differ d d')
    (hmore : ∀ l content content', differ l content content' → more l content content') : Alike more d d' where
  workingDirectory := h.workingDirectory
  platform := h.platform
  get? := by
    intro l
    have htwin := h.get? l
    generalize d.get? l = x at htwin ⊢
    generalize d'.get? l = y at htwin ⊢
    cases htwin with
    | same => exact .same _
    | files hdiffer => exact .files (hmore l _ _ hdiffer)

/-- Where no contents may differ, disks that are alike hold the same. -/
theorem get?_eq (h : Alike differ d d') (hl : ∀ content content', ¬differ l content content') : d'.get? l = d.get? l := by
  have htwin := h.get? l
  generalize d.get? l = x at htwin ⊢
  generalize d'.get? l = y at htwin ⊢
  cases htwin with
  | same => rfl
  | files hdiffer => exact absurd hdiffer (hl _ _)

theorem hasDirectory_eq (h : Alike differ d d') (l : Location) : d'.hasDirectory l = d.hasDirectory l := by
  rw [hasDirectory, hasDirectory, decide_eq_decide]
  exact (h.get? l).directory_iff

theorem isThere_iff (h : Alike differ d d') (l : Location) : d'.IsThere l ↔ d.IsThere l := by
  rw [IsThere, IsThere, (h.get? l).isSome_eq]

/-! ## Looking paths up -/

theorem start_eq (h : Alike differ d d') (p : Path) : d'.start p = d.start p := start_of_workingDirectory h.workingDirectory p

/-- A walk goes the same way on disks that are alike, for it asks for directories only. -/
theorem walk_eq (h : Alike differ d d') (l : Location) (parts : List String) : d'.walk l parts = d.walk l parts := by
  induction parts generalizing l with
  | nil => rfl
  | cons part rest ih =>
    have htwin := h.get? l
    rw [walk, walk]
    generalize d.get? l = x at htwin ⊢
    generalize d'.get? l = y at htwin ⊢
    cases htwin with
    | same e? => rw [ih]
    | files => rfl

/-- A path leads to the same location on disks that are alike. -/
theorem locate_eq (h : Alike differ d d') (p : Path) : d'.locate p = d.locate p := by
  rw [locate, locate, h.start_eq, h.walk_eq]

/-- A question that takes all files the same is answered the same. -/
theorem ask_eq (h : Alike differ d d') (p : Path) {answer : Entry → Bool}
    (hfiles : ∀ content content', answer (.file content') = answer (.file content)) : d'.ask p answer = d.ask p answer := by
  rw [ask, ask, status, status, h.locate_eq]
  cases d.locate p with
  | error r => rfl
  | ok l =>
    have htwin := h.get? l
    simp only
    generalize d.get? l = x at htwin ⊢
    generalize d'.get? l = y at htwin ⊢
    cases htwin with
    | same => rfl
    | files => exact congrArg Except.ok (hfiles _ _)

theorem pathExists_eq (h : Alike differ d d') (p : Path) : d'.pathExists p = d.pathExists p := h.ask_eq p fun _ _ => rfl

theorem isDirectory_eq (h : Alike differ d d') (p : Path) : d'.isDirectory p = d.isDirectory p := h.ask_eq p fun _ _ => by simp

theorem isFile_eq (h : Alike differ d d') (p : Path) : d'.isFile p = d.isFile p := h.ask_eq p fun _ _ => by simp

theorem workingPath_eq (h : Alike differ d d') : d'.workingPath = d.workingPath := by
  rw [workingPath, workingPath, h.workingDirectory]

theorem resolve_eq (h : Alike differ d d') (p : Path) : d'.resolve p = d.resolve p := by
  rw [resolve, resolve, h.workingPath_eq]

/-! ## Finding files -/

/-- A directory is read in the same order. -/
theorem names_eq (h : Alike differ d d') (l : Location) : d'.names l = d.names l := by
  rw [names, names, h.platform]
  refine d.platform.order_congr ((List.perm_ext_iff_of_nodup (nodup_eraseDups _) (nodup_eraseDups _)).mpr fun name => ?_)
  have hmem : ∀ d : Disk, name ∈ ((d.entries.filterMap fun x => nameBelow? l x.1).filter (· != "")).eraseDups ↔ name ∈ d.names l :=
    fun d => (d.platform.order_perm l _).mem_iff.symm
  rw [hmem, hmem, mem_names, mem_names, h.isThere_iff]

/-- The entries of disks that are alike go down equally far. -/
theorem height_eq (h : Alike differ d d') : d'.height = d.height :=
  Nat.le_antisymm (height_le_iff.mpr fun l hl => height_le_iff.mp (Nat.le_refl _) l ((h.isThere_iff l).mp hl))
    (height_le_iff.mpr fun l hl => height_le_iff.mp (Nat.le_refl _) l ((h.isThere_iff l).mpr hl))

/-- The same directories are found below a place. -/
theorem directoriesFrom_eq (h : Alike differ d d') (depth : Nat) (place : Place) :
    d'.directoriesFrom depth place = d.directoriesFrom depth place := by
  induction depth generalizing place with
  | zero => rfl
  | succ depth ih => simp only [directoriesFrom, h.names_eq, h.hasDirectory_eq, ih]

/-- A pattern selects the same paths below a place. -/
theorem select_eq (h : Alike differ d d') (segments : List Segment) (place : Place) :
    d'.select segments place = d.select segments place := by
  induction segments generalizing place with
  | nil => rfl
  | cons segment rest ih =>
    cases segment with
    | itself => rfl
    | name name => simp only [select, h.hasDirectory_eq, (h.get? _).isSome_eq, ih]
    | wild glyphs => simp only [select, h.names_eq, h.hasDirectory_eq, ih]
    | everywhere => simp only [select, h.height_eq, h.directoriesFrom_eq, funext ih]

/-- The same files are listed, in the same order. -/
theorem listFiles_eq (h : Alike differ d d') (root : Path) (pattern : String) : d'.listFiles root pattern = d.listFiles root pattern := by
  simp only [listFiles, h.isDirectory_eq, h.locate_eq, h.select_eq, h.isFile_eq, h.platform]

/-! ## Reading -/

/-- The bytes of a file are read alike, or they are contents that may differ. -/
theorem readBytes_cases (h : Alike differ d d') (p : Path) : d'.readBytes p = d.readBytes p ∨
    ∃ l content content', d.locate p = .ok l ∧ differ l content content' ∧ d.readBytes p = .ok content ∧ d'.readBytes p = .ok content' := by
  rw [readBytes, readBytes, status, status, h.locate_eq]
  cases d.locate p with
  | error r => exact .inl rfl
  | ok l =>
    have htwin := h.get? l
    simp only
    generalize d.get? l = x at htwin ⊢
    generalize d'.get? l = y at htwin ⊢
    cases htwin with
    | same => exact .inl rfl
    | files hdiffer => exact .inr ⟨l, _, _, rfl, hdiffer, rfl, rfl⟩

/-- A file that may not differ is read alike. -/
theorem readText_eq (h : Alike differ d d') (hp : ∀ l, d.locate p = .ok l → ∀ content content', ¬differ l content content') :
    d'.readText p = d.readText p := by
  rcases h.readBytes_cases p with hsame | ⟨l, content, content', hl, hdiffer, -⟩
  · rw [readText, readText, hsame]
  · exact absurd hdiffer (hp l hl _ _)

/-! ## Changes -/

/-- Disks stay alike when twins are put at the same location. -/
theorem put_twin (h : Alike differ d d') {e e' : Entry} (hl : l ≠ []) (he : Twin (differ l) (some e) (some e')) :
    Alike differ (d.put l e) (d'.put l e') where
  workingDirectory := h.workingDirectory
  platform := h.platform
  get? := by
    intro m
    rw [get?_put hl, get?_put hl]
    split
    · rename_i heq
      exact heq ▸ he
    · exact h.get? m

theorem put (h : Alike differ d d') (hl : l ≠ []) (e : Entry) : Alike differ (d.put l e) (d'.put l e) := h.put_twin hl (.same _)

/-- Disks stay alike when both are settled. -/
theorem settled (h : Alike differ d d') : Alike differ d.settled d'.settled := by
  unfold Disk.settled
  rw [h.workingDirectory, h.hasDirectory_eq]
  split
  · exact h
  · refine ⟨rfl, h.platform, fun m => ?_⟩
    by_cases hm : m = []
    · rw [hm]
      exact .same _
    · have htwin := h.get? m
      rw [get?_eq_find? hm, get?_eq_find? hm] at htwin ⊢
      simp only [List.find?_append, Option.map_or]
      generalize (d.entries.find? (·.1 == m)).map (·.2) = x at htwin ⊢
      generalize (d'.entries.find? (·.1 == m)).map (·.2) = y at htwin ⊢
      cases htwin with
      | same => exact .same _
      | files hdiffer => exact .files hdiffer

/-- Disks stay alike when the same entries are taken out. -/
theorem filter (h : Alike differ d d') (keep : Location → Bool) :
    Alike differ { d with entries := d.entries.filter fun x => keep x.1 } { d' with entries := d'.entries.filter fun x => keep x.1 } where
  workingDirectory := h.workingDirectory
  platform := h.platform
  get? := by
    intro m
    by_cases hm : m = []
    · rw [hm]
      exact .same _
    · rw [get?_filter d keep hm, get?_filter d' keep hm]
      split
      · exact h.get? m
      · exact .same _

theorem clear (h : Alike differ d d') (l : Location) : Alike differ (d.clear l) (d'.clear l) := (h.filter fun x => !isBelow x l).settled

theorem erase (h : Alike differ d d') (l : Location) : Alike differ (d.erase l) (d'.erase l) :=
  (h.filter fun x => !l.isPrefixOf x).settled

theorem ne_nil_of_get?_eq_none (h : d.get? l = none) : l ≠ [] := by
  rintro rfl
  cases h

/-- A directory is made or refused alike. -/
theorem makeDirectory (h : Alike differ d d') (p : Path) : AlikeChanges differ (d.makeDirectory p) (d'.makeDirectory p) := by
  unfold Disk.makeDirectory
  split
  · exact .refused _
  · rw [h.locate_eq]
    cases d.locate p.parent with
    | error r => exact .refused r
    | ok l =>
      have htwin := h.get? l
      simp only [bind, Except.bind]
      generalize d.get? l = x at htwin ⊢
      generalize d'.get? l = y at htwin ⊢
      cases htwin with
      | same =>
        split <;> exact .refused _
      | files => exact .refused _
  · rw [h.locate_eq]
    cases d.locate p with
    | error r => exact .refused r
    | ok l =>
      have htwin := h.get? l
      simp only [bind, Except.bind]
      cases hx : d.get? l with
      | none =>
        rw [htwin.none_iff.mpr hx]
        exact .changed (h.put (ne_nil_of_get?_eq_none hx) _)
      | some e =>
        obtain ⟨e', he'⟩ := Option.isSome_iff_exists.mp (htwin.isSome_eq.trans (by rw [hx]; rfl))
        rw [he']
        exact .refused _

theorem acceptPresent (h : Alike differ d d') (p : Path) (r : Refusal) :
    AlikeEnds differ (d.acceptPresent p r) (d'.acceptPresent p r) := by
  unfold Disk.acceptPresent
  rw [h.isDirectory_eq]
  split <;> exact ⟨rfl, h⟩

/-- Directories are made alike, together with those that lead to them. -/
theorem makeDirectories (h : Alike differ d d') (depth : Nat) (p : Path) :
    AlikeEnds differ (d.makeDirectories depth p) (d'.makeDirectories depth p) := by
  induction depth generalizing d d' p with
  | zero => exact ⟨rfl, h⟩
  | succ depth ih =>
    have hmake := h.makeDirectory p
    rw [Disk.makeDirectories, Disk.makeDirectories]
    generalize d.makeDirectory p = x at hmake ⊢
    generalize d'.makeDirectory p = y at hmake ⊢
    cases hmake with
    | changed hd => exact ⟨rfl, hd⟩
    | refused r =>
      cases r with
      | missing =>
        by_cases hparts : p.parts.isEmpty = true
        · simp only [hparts, if_true]
          exact ⟨rfl, h⟩
        simp only [hparts, if_false, Bool.false_eq_true]
        obtain ⟨hanswer, hparent⟩ := ih h p.parent
        rcases hx : d.makeDirectories depth p.parent with ⟨answer, d₁⟩
        rcases hy : d'.makeDirectories depth p.parent with ⟨answer', d₁'⟩
        rw [hx, hy] at hanswer hparent
        obtain rfl : answer' = answer := hanswer
        cases answer' with
        | error f => exact ⟨rfl, hparent⟩
        | ok =>
          have hagain := Alike.makeDirectory hparent p
          simp only
          generalize d₁.makeDirectory p = x₁ at hagain ⊢
          generalize d₁'.makeDirectory p = y₁ at hagain ⊢
          cases hagain with
          | changed hd => exact ⟨rfl, hd⟩
          | refused r =>
            cases r with
            | missing => exact ⟨rfl, hparent⟩
            | _ => exact Alike.acceptPresent hparent p _
      | _ => exact h.acceptPresent p _

theorem makeDirs (h : Alike differ d d') (p : Path) : AlikeEnds differ (d.makeDirs p) (d'.makeDirs p) := h.makeDirectories _ p

theorem removeEmptied (h : Alike differ d d') (p : Path) : AlikeChanges differ (d.removeEmptied p) (d'.removeEmptied p) := by
  unfold Disk.removeEmptied
  split
  · exact .refused _
  · rw [h.locate_eq]
    cases d.locate p.parent with
    | error r => exact .refused r
    | ok l =>
      have htwin := h.get? l
      simp only [bind, Except.bind]
      generalize d.get? l = x at htwin ⊢
      generalize d'.get? l = y at htwin ⊢
      cases htwin with
      | same =>
        split <;> exact .refused _
      | files => exact .refused _
  · rw [h.locate_eq]
    cases d.locate p with
    | error r => exact .refused r
    | ok l => exact .changed (h.erase l)

/-- A tree is removed alike. -/
theorem removeTree (h : Alike differ d d') (p : Path) : AlikeEnds differ (d.removeTree p) (d'.removeTree p) := by
  unfold Disk.removeTree
  rw [h.pathExists_eq, h.locate_eq]
  split
  · exact ⟨rfl, h⟩
  · exact ⟨rfl, h⟩
  · split
    · exact ⟨rfl, h⟩
    · rename_i l _
      rw [h.hasDirectory_eq]
      split
      · have hemptied := (h.clear l).removeEmptied p
        simp only
        generalize (d.clear l).removeEmptied p = x at hemptied ⊢
        generalize (d'.clear l).removeEmptied p = y at hemptied ⊢
        cases hemptied with
        | refused r => exact ⟨rfl, h.clear l⟩
        | changed hd => exact ⟨rfl, hd⟩
      · exact ⟨rfl, h⟩

/-- Bytes are written or refused alike. -/
theorem writeBytes (h : Alike differ d d') (p : Path) (content : List UInt8) :
    AlikeChanges differ (d.writeBytes p content) (d'.writeBytes p content) := by
  unfold Disk.writeBytes
  rw [h.locate_eq]
  cases d.locate p with
  | error r => exact .refused r
  | ok l =>
    have htwin := h.get? l
    simp only [bind, Except.bind]
    by_cases hdir : d.get? l = some .directory
    · rw [htwin.directory_iff.mpr hdir, hdir]
      exact .refused _
    · have hdir' := fun hd => hdir (htwin.directory_iff.mp hd)
      have hl : l ≠ [] := by
        rintro rfl
        exact hdir rfl
      split
      · exact absurd ‹_› hdir
      · exact .changed (h.put hl _)

theorem writeText (h : Alike differ d d') (p : Path) (text : String) : AlikeEnds differ (d.writeText p text) (d'.writeText p text) := by
  have hwrite := h.writeBytes p (Text.Utf8.encode text)
  unfold Disk.writeText
  generalize d.writeBytes p (Text.Utf8.encode text) = x at hwrite ⊢
  generalize d'.writeBytes p (Text.Utf8.encode text) = y at hwrite ⊢
  cases hwrite with
  | refused r => exact ⟨rfl, h⟩
  | changed hd => exact ⟨rfl, hd⟩

/-- Making sure that there is a file is answered the same, and both disks keep what is in it. -/
theorem ensureFile (h : Alike differ d d') (p : Path) :
    (∃ r, d.ensureFile p = .error r ∧ d'.ensureFile p = .error r) ∨
    ∃ l d₁ d₁', d.ensureFile p = .ok (l, d₁) ∧ d'.ensureFile p = .ok (l, d₁') ∧ Alike differ d₁ d₁' := by
  unfold Disk.ensureFile
  rw [h.locate_eq]
  cases d.locate p with
  | error r => exact .inl ⟨r, rfl, rfl⟩
  | ok l =>
    have htwin := h.get? l
    simp only [bind, Except.bind]
    cases hx : d.get? l with
    | none =>
      rw [htwin.none_iff.mpr hx]
      exact .inr ⟨l, _, _, rfl, rfl, h.put (ne_nil_of_get?_eq_none hx) _⟩
    | some e =>
      rw [hx] at htwin
      generalize d'.get? l = y at htwin ⊢
      cases htwin with
      | same => cases e with
        | directory => exact .inl ⟨_, rfl, rfl⟩
        | file content => exact .inr ⟨l, _, _, rfl, rfl, h⟩
      | files => exact .inr ⟨l, _, _, rfl, rfl, h⟩

/-- Adding bytes at the end of a file leaves disks alike, if contents that may differ may do so with the same end. -/
theorem appendBytes (h : Alike differ d d') (l : Location) (more : List UInt8)
    (happend : ∀ content content', differ l content content' → differ l (content ++ more) (content' ++ more)) :
    Alike differ (d.appendBytes l more) (d'.appendBytes l more) := by
  have htwin := h.get? l
  have hl : d.get? l ≠ some .directory → l ≠ [] := by
    rintro hdir rfl
    exact hdir rfl
  unfold Disk.appendBytes
  generalize d.get? l = x at htwin hl ⊢
  generalize d'.get? l = y at htwin ⊢
  cases htwin with
  | same e? =>
    split
    · exact h.put (hl (by simp)) _
    · exact h
  | files hdiffer => exact h.put_twin (hl (by simp)) (.files (happend _ _ hdiffer))

/-! ## Copies -/

theorem leadsToDirectory_eq (h : Alike differ d d') (written : String) : d'.leadsToDirectory written = d.leadsToDirectory written := by
  rw [leadsToDirectory, leadsToDirectory, h.isDirectory_eq]

theorem ensureOne (h : Alike differ d d') (written : String) : AlikeEnds differ (d.ensureOne written) (d'.ensureOne written) := by
  have hmade := h.makeDirectory (Path.ofString written)
  unfold Disk.ensureOne
  rw [h.leadsToDirectory_eq]
  generalize d.makeDirectory (Path.ofString written) = x at hmade ⊢
  generalize d'.makeDirectory (Path.ofString written) = y at hmade ⊢
  cases hmade with
  | changed hd => exact ⟨rfl, hd⟩
  | refused r =>
    simp only
    split <;> exact ⟨rfl, h⟩

/-- The directories of a copy are made alike. -/
theorem ensureDirectories (h : Alike differ d d') (depth : Nat) (written : String) :
    AlikeEnds differ (d.ensureDirectories depth written) (d'.ensureDirectories depth written) := by
  induction depth generalizing d d' written with
  | zero => exact ⟨rfl, h⟩
  | succ depth ih =>
    rw [ensureDirectories_succ, ensureDirectories_succ, h.pathExists_eq]
    split
    · exact h.ensureOne written
    · obtain ⟨hanswer, hd⟩ := ih h (Path.ofString written).parent.toString
      rcases hx : d.ensureDirectories depth (Path.ofString written).parent.toString with ⟨answer, d₁⟩
      rcases hy : d'.ensureDirectories depth (Path.ofString written).parent.toString with ⟨answer', d₁'⟩
      rw [hx, hy] at hanswer hd
      obtain rfl : answer' = answer := hanswer
      cases answer' with
      | ok => exact hd.ensureOne written
      | error f =>
        simp only
        split
        · exact hd.ensureOne written
        · exact ⟨rfl, hd⟩

theorem ensureDirectory (h : Alike differ d d') (written : String) :
    AlikeEnds differ (d.ensureDirectory written) (d'.ensureDirectory written) := h.ensureDirectories _ written

/-- It is the same file that would be copied to itself. -/
theorem leadsToOrigin_eq (h : Alike differ d d') (into : Path) (origin? : Option Location) :
    d'.leadsToOrigin into origin? = d.leadsToOrigin into origin? := by
  simp only [leadsToOrigin, h.locate_eq, (h.get? _).isSome_eq]

/-- A file that is copied lands in the same place. -/
theorem copyFile (h : Alike differ d d') (name source target : String) (origin? : Option Location) (content : List UInt8) :
    AlikeEnds differ (d.copyFile name source target origin? content) (d'.copyFile name source target origin? content) := by
  rw [copyFile_eq, copyFile_eq]
  simp only [h.leadsToDirectory_eq, h.leadsToOrigin_eq]
  generalize (if d.leadsToDirectory target then under target name else target) = into
  split
  · exact ⟨rfl, h⟩
  · have hwrite := h.writeBytes (Path.ofString into) content
    unfold Disk.writeCopy
    generalize d.writeBytes (Path.ofString into) content = x at hwrite ⊢
    generalize d'.writeBytes (Path.ofString into) content = y at hwrite ⊢
    cases hwrite <;> exact ⟨rfl, ‹_›⟩

/-- Things that are copied alike, each on what the one before has left, are so in a row. -/
theorem copyEach {β : Type} {copy : Disk → β → CopyEnd × Disk}
    (hcopy : ∀ {d d' : Disk}, Alike differ d d' → ∀ x, AlikeEnds differ (copy d x) (copy d' x)) (xs : List β) (h : Alike differ d d') :
    AlikeEnds differ (Disk.copyEach copy xs d) (Disk.copyEach copy xs d') := by
  induction xs generalizing d d' with
  | nil => exact ⟨rfl, h⟩
  | cons x xs ih =>
    obtain ⟨hanswer, hd⟩ := hcopy h x
    rw [Disk.copyEach, Disk.copyEach]
    generalize copy d x = first at hanswer hd ⊢
    generalize copy d' x = first' at hanswer hd ⊢
    obtain ⟨answer, d₁⟩ := first
    obtain ⟨answer', d₁'⟩ := first'
    obtain rfl : answer' = answer := hanswer
    cases answer' with
    | broken f => exact ⟨rfl, hd⟩
    | ended faults =>
      obtain ⟨hrest, hend⟩ := ih hd
      simp only
      rcases hx : Disk.copyEach copy xs d₁ with ⟨more, d₂⟩
      rcases hy : Disk.copyEach copy xs d₁' with ⟨more', d₂'⟩
      rw [hx, hy] at hrest hend
      obtain rfl : more' = more := hrest
      cases more' <;> exact ⟨rfl, hend⟩

/-- An entry is copied alike if whole trees are, and if it holds no file that may differ. -/
theorem copyEntry (h : Alike differ d d') {copy : Disk → Location → String → String → CopyEnd × Disk} {origin : Location}
    (ih : ∀ {d d' : Disk} {origin : Location} (source target : String), Alike differ d d' →
      (∀ m, origin <+: m → ∀ content content', ¬differ m content content') →
      AlikeEnds differ (copy d origin source target) (copy d' origin source target))
    (horigin : ∀ m, origin <+: m → ∀ content content', ¬differ m content content') (source target : String) (name : String) :
    AlikeEnds differ (Disk.copyEntry copy origin source target d name) (Disk.copyEntry copy origin source target d' name) := by
  have hbelow : ∀ m, origin ++ [name] <+: m → ∀ content content', ¬differ m content content' := fun m hm =>
    horigin m ((List.prefix_append _ _).trans hm)
  unfold Disk.copyEntry
  simp only
  rw [h.get?_eq (hbelow _ (List.prefix_refl _))]
  split
  · obtain ⟨hanswer, hd⟩ := ih (under source name) (under target name) h hbelow
    rcases hx : copy d (origin ++ [name]) (under source name) (under target name) with ⟨answer, d₁⟩
    rcases hy : copy d' (origin ++ [name]) (under source name) (under target name) with ⟨answer', d₁'⟩
    rw [hx, hy] at hanswer hd
    obtain rfl : answer' = answer := hanswer
    cases answer' <;> exact ⟨rfl, hd⟩
  · rename_i content _
    exact (h.copyFile name (under source name) (under target name) (some (origin ++ [name])) content).map CopyEnd.ended
  · exact ⟨rfl, h⟩

/-- A tree without files that may differ is copied alike. -/
theorem copyTree (h : Alike differ d d') (depth : Nat) {origin : Location}
    (horigin : ∀ m, origin <+: m → ∀ content content', ¬differ m content content') (source target : String) :
    AlikeEnds differ (Disk.copyTree depth d origin source target) (Disk.copyTree depth d' origin source target) := by
  induction depth generalizing d d' origin source target with
  | zero => exact ⟨rfl, h⟩
  | succ depth ih =>
    rw [Disk.copyTree, Disk.copyTree, h.names_eq]
    obtain ⟨hanswer, hd⟩ := h.ensureDirectory target
    rcases hx : d.ensureDirectory target with ⟨answer, d₁⟩
    rcases hy : d'.ensureDirectory target with ⟨answer', d₁'⟩
    rw [hx, hy] at hanswer hd
    obtain rfl : answer' = answer := hanswer
    cases answer' with
    | error f => exact ⟨rfl, hd⟩
    | ok =>
      have hentry := fun {d d' : Disk} (h : Alike differ d d') (name : String) =>
        h.copyEntry (fun source target h horigin => ih h horigin source target) horigin source target name
      exact copyEach hentry (d.names origin) hd

theorem copyAnswer {x x' : CopyEnd × Disk} (h : AlikeEnds differ x x') : AlikeEnds differ (Disk.copyAnswer x) (Disk.copyAnswer x') := by
  obtain ⟨answer, d⟩ := x
  obtain ⟨answer', d'⟩ := x'
  obtain ⟨rfl, hd⟩ : answer' = answer ∧ Alike differ d d' := h
  cases answer' with
  | broken f => exact ⟨rfl, hd⟩
  | ended faults => cases faults <;> exact ⟨rfl, hd⟩

/-- A directory that holds no file that may differ is copied alike. -/
theorem copyStatic (h : Alike differ d d') {source : Path} (target : Path)
    (hsource : ∀ l, d.locate source = .ok l → ∀ m, l <+: m → ∀ content content', ¬differ m content content') :
    AlikeEnds differ (d.copyStatic source target) (d'.copyStatic source target) := by
  unfold Disk.copyStatic
  rw [h.isDirectory_eq, h.locate_eq]
  split
  · exact ⟨rfl, h⟩
  · exact ⟨rfl, h⟩
  · split
    · exact ⟨rfl, h⟩
    · rename_i l hl
      rw [h.platform]
      exact copyAnswer (h.copyTree _ (hsource l hl) _ _)

/-- One of some files that are on no disk is copied alike. -/
theorem copyNote (h : Alike differ d d') (source target : String) (file : String × String) :
    AlikeEnds differ (Disk.copyNote source target d file) (Disk.copyNote source target d' file) := by
  unfold Disk.copyNote
  exact (h.copyFile file.1 (under source file.1) (under target file.1) none (Text.Utf8.encode file.2)).map CopyEnd.ended

/-- Files that are on no disk are copied alike. -/
theorem copyFiles (h : Alike differ d d') (source : String) (files : List (String × String)) (target : Path) :
    AlikeEnds differ (d.copyFiles source files target) (d'.copyFiles source files target) := by
  unfold Disk.copyFiles
  obtain ⟨hanswer, hd⟩ := h.ensureDirectory target.toString
  rcases hx : d.ensureDirectory target.toString with ⟨answer, d₁⟩
  rcases hy : d'.ensureDirectory target.toString with ⟨answer', d₁'⟩
  rw [hx, hy] at hanswer hd
  obtain rfl : answer' = answer := hanswer
  cases answer' with
  | error f => exact ⟨rfl, hd⟩
  | ok =>
    have hnote := fun {d d' : Disk} (h : Alike differ d d') (file : String × String) => h.copyNote source target.toString file
    exact copyAnswer (copyEach hnote files hd)

end Alike

end IconForge.Disk
