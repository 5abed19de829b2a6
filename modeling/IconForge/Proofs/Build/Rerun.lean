import IconForge.Proofs.Build.Coupled
import IconForge.Proofs.Build.Input
import IconForge.Proofs.Disk.Renewal
import IconForge.Workspace.Readers

/-!
# Builds over an old output

A build clears its output before it reads anything, so that what an earlier build has left there has no influence: on disks that differ
at and below the output only, a build ends the same and leaves the same disk (`old_output_unseen`), in whatever order their platform lists
what is on them. It does so too when it is run again on what it has left: however it has ended, the output has not been made or it has been
made anew and filled (`Reached`), and from there it is prepared as it was. A path that leads up out of the output again is another matter
(`old_output_unseen_false`).
-/

namespace IconForge.Build

open Component Disk

variable {σ α : Type} {disk : σ → Disk} {Ready : σ → Prop} {c : Collaborators σ} {st : Settings}

/-! ## Local collaborators side by side -/

/-- Worlds that are ready and whose disks are alike. -/
def DisksAlike (disk : σ → Disk) (Ready : σ → Prop) (w w' : σ) : Prop := Ready w ∧ Ready w' ∧ Alike nowhere (disk w) (disk w')

/-- A formatter that answers a source the same in every world that is ready. -/
def Collaborators.SteadyFormat (c : Collaborators σ) (Ready : σ → Prop) : Prop :=
  ∀ source w w', Ready w → Ready w' → (c.format source w').1 = (c.format source w).1

/-- Operations that mirror those of the disk answer alike on disks that are alike. -/
theorem respects_of_mirrors {operation : σ → Except Fault α × σ} {onDisk : Disk → Except Fault α × Disk}
    (h : Mirrors disk Ready operation onDisk) (halike : ∀ {d d'}, Alike nowhere d d' → AlikeEnds nowhere (onDisk d) (onDisk d')) :
    Respects (DisksAlike disk Ready) operation := by
  rintro w w' ⟨hw, hw', hd⟩
  obtain ⟨hanswer, hdisk, hready⟩ := h w hw
  obtain ⟨hanswer', hdisk', hready'⟩ := h w' hw'
  obtain ⟨hsame, hafter⟩ := halike hd
  exact ⟨by rw [hanswer, hanswer', hsame], hready, hready', by rwa [hdisk, hdisk']⟩

/-- A change beside the disk leaves disks alike. -/
theorem disksAlike_of_leaves {change : σ → σ} (h : Leaves disk Ready change) {w w' : σ} (hw : DisksAlike disk Ready w w') :
    DisksAlike disk Ready (change w) (change w') := by
  obtain ⟨hready, hready', hd⟩ := hw
  obtain ⟨hdisk, hafter⟩ := h w hready
  obtain ⟨hdisk', hafter'⟩ := h w' hready'
  exact ⟨hafter, hafter', by rwa [hdisk, hdisk']⟩

/-- Static files are copied alike. -/
theorem copyStaticOf_alike {d d' : Disk} (h : Alike nowhere d d') (source? : Option Path) (target : Path) :
    AlikeEnds nowhere (copyStaticOf source? target d) (copyStaticOf source? target d') := by
  unfold copyStaticOf
  split
  · exact h.copyStatic target fun _ _ _ _ _ _ => id
  · exact h.copyFiles _ _ target

/-- Local collaborators do the same on disks that are alike. -/
theorem Collaborators.Local.respect (hc : c.Local disk Ready) (hformat : c.SteadyFormat Ready) :
    c.Respect (fun _ => False) (DisksAlike disk Ready) where
  removeTree := fun p _ => respects_of_mirrors (hc.removeTree p) fun h => h.removeTree p
  makeDirs := fun p _ => respects_of_mirrors (hc.makeDirs p) fun h => h.makeDirs p
  copyStatic := fun source? target _ => respects_of_mirrors (hc.copyStatic source? target) fun h => copyStaticOf_alike h source? target
  listFiles := fun root pattern _ => respects_of_mirrors (hc.listFiles root pattern) fun h => ⟨h.listFiles_eq root pattern, h⟩
  readText := fun p _ => respects_of_mirrors (hc.readText p) fun h => ⟨h.readText_eq fun _ _ _ _ => id, h⟩
  writeText := fun p text _ => respects_of_mirrors (hc.writeText p text) fun h => h.writeText p text
  startOptimizing := fun markup _ _ => disksAlike_of_leaves (hc.startOptimizing markup)
  closeOptimizer := fun _ _ => disksAlike_of_leaves hc.closeOptimizer
  format := fun source w w' hw => ⟨hformat source w w' hw.1 hw.2.1, disksAlike_of_leaves (hc.format source) hw⟩
  log := fun record _ _ => disksAlike_of_leaves (hc.log record)

/-! ## Two outputs -/

section
variable (hc : c.Local disk Ready) (hformat : c.SteadyFormat Ready)
include hc hformat

/-- The output is prepared the same where disks differ there only. -/
theorem prepare_matches {s s' : Session σ} (hsession : s' = { s with world := s'.world }) (hs : Ready s.world) (hs' : Ready s'.world)
    (h : (disk s.world).Clearable st.outputDir) (h' : (disk s'.world).Clearable st.outputDir)
    (hsame : SameBeside ((disk s.world).place st.outputDir) (disk s.world) (disk s'.world)) :
    Matches (fun _ => False) (DisksAlike disk Ready) (exec (prepare c st) s) (exec (prepare c st) s') := by
  obtain ⟨hanswer, hdisk, hready⟩ := hc.removeTree st.outputDir s.world hs
  obtain ⟨hanswer', hdisk', hready'⟩ := hc.removeTree st.outputDir s'.world hs'
  obtain ⟨hequal, halike⟩ := removeTree_alike h h' hsame
  have hrespect := hc.respect hformat
  refine (matches_call hsession (by rw [hanswer, hanswer', hequal]) ⟨hready, hready', by rwa [hdisk, hdisk']⟩).bind fun _ => ?_
  exact (Couples.call (hrespect.makeDirs _)).bind fun _ => Couples.call (hrespect.copyStatic _ _)

/-- An output that has been made anew and filled is made anew again. -/
theorem prepare_matches_again {s s' : Session σ} (hsession : s' = { s with world := s'.world }) (hs : Ready s.world) (hs' : Ready s'.world)
    {d₂ : Disk} (hremove : ((disk s.world).removeTree st.outputDir).1 = .ok ())
    (hmake : ((disk s.world).removeTree st.outputDir).2.makeDirs st.componentsDir = (.ok (), d₂))
    (hanew : ((disk s'.world).removeTree st.outputDir).1 = .ok () ∧
      (((disk s'.world).removeTree st.outputDir).2.makeDirs st.componentsDir).1 = .ok () ∧
      Alike nowhere d₂ (((disk s'.world).removeTree st.outputDir).2.makeDirs st.componentsDir).2) :
    Matches (fun _ => False) (DisksAlike disk Ready) (exec (prepare c st) s) (exec (prepare c st) s') := by
  obtain ⟨hremove', hmake', halike⟩ := hanew
  obtain ⟨hanswer, hdisk, hready⟩ := hc.removeTree st.outputDir s.world hs
  obtain ⟨hanswer', hdisk', hready'⟩ := hc.removeTree st.outputDir s'.world hs'
  rw [hremove] at hanswer
  rw [hremove'] at hanswer'
  have hfirst := exec_call (.remove st.outputDir) done (c.removeTree st.outputDir) FaultKind.isStorage (.prepare st.outputDir) s
  have hfirst' := exec_call (.remove st.outputDir) done (c.removeTree st.outputDir) FaultKind.isStorage (.prepare st.outputDir) s'
  rw [hanswer] at hfirst
  rw [hanswer'] at hfirst'
  obtain ⟨hanswer₂, hdisk₂, hready₂⟩ := hc.makeDirs st.componentsDir _ hready
  obtain ⟨hanswer₂', hdisk₂', hready₂'⟩ := hc.makeDirs st.componentsDir _ hready'
  simp only [hdisk, hmake] at hanswer₂ hdisk₂
  simp only [hdisk'] at hanswer₂' hdisk₂'
  unfold prepare
  rw [exec_bind_of_ok hfirst, exec_bind_of_ok hfirst']
  have hrespect := hc.respect hformat
  refine (matches_call ?_ ?_ ?_).bind fun _ => Couples.call (hrespect.copyStatic _ _)
  · rw [hsession]
  · exact hanswer₂'.trans (hmake'.trans hanswer₂.symm)
  · exact ⟨hready₂, hready₂', by rwa [hdisk₂, hdisk₂']⟩

end

/-! ## How far a build comes -/

/-- How far a build has come that has started on a disk. Nothing has changed but at and below its output, which has not been made; or
the output has been made anew and filled since. -/
inductive Reached (st : Settings) (d₀ d : Disk) : Prop where
  | unopened (htree : d.IsTree) (hsame : SameBeside (d₀.place st.outputDir) d₀ d) (hfree : FreeOrDirectory d (d₀.place st.outputDir))
  | opened {d₂ : Disk} (hremove : (d₀.removeTree st.outputDir).1 = .ok ())
    (hmake : (d₀.removeTree st.outputDir).2.makeDirs st.componentsDir = (.ok (), d₂)) (hfills : Fills (d₀.place st.outputDir) d₂ d)

/-- Writing a file below the output keeps how far a build has come. -/
theorem Reached.writeText {d₀ d : Disk} {q : Path} {name : String} {rel : Location} (hr : Reached st d₀ d) (hw : (q.child name).IsWritten)
    (hup : name ≠ "..") (habs : q.isAbsolute = true) (hbelow : d₀.place (q.child name) = d₀.place st.outputDir ++ rel) (hrel : rel ≠ [])
    (text : String) : Reached st d₀ (d.writeText (q.child name) text).2 := by
  have habs' : (q.child name).isAbsolute = true := habs
  have hplace : ∀ l, d.locate (q.child name) = .ok l → l = d₀.place st.outputDir ++ rel := by
    intro l hl
    rw [eq_place_of_locate hl, ← hbelow, place_of_isAbsolute habs', place_of_isAbsolute habs']
  have hgrows : Grows (d₀.place st.outputDir <+: ·) (fun _ => False) d (d.writeText (q.child name) text).2 :=
    writeText_grows hup (fun l hl => hplace l hl ▸ List.prefix_append _ _) text
  cases hr with
  | opened hremove hmake hfills =>
    exact .opened hremove hmake (hfills.trans ⟨hgrows, hfills.isTree.writeText hw hup text⟩)
  | unopened htree hsame hfree =>
    have hfills : Fills (d₀.place st.outputDir) d (d.writeText (q.child name) text).2 := ⟨hgrows, htree.writeText hw hup text⟩
    refine .unopened hfills.isTree
      ⟨hgrows.workingDirectory.trans hsame.workingDirectory, hgrows.platform.trans hsame.platform, fun m hm => ?_⟩ ?_
    · rw [hfills.get?_outside hm, hsame.get? m hm]
    · rcases writeText_cases d (q.child name) text with ⟨f, hr⟩ | ⟨l, hl, -, hr⟩
      · rwa [hr]
      · -- The file lies in the tree, so that there is a directory above it.
        have hfile : (d.writeText (q.child name) text).2.get? (d₀.place st.outputDir ++ rel) = some (.file (Text.Utf8.encode text)) := by
          rw [hr, ← hplace l hl, get?_put (ne_nil_of_locate hup hl), if_pos rfl]
        have hnames := hfills.isTree.isName_of_file hfile
        exact .inr (hfills.isTree.hasDirectory_of_isThere hrel (fun part hpart => (hnames part hpart).ne_empty) (isThere_of_get? hfile))

section
variable {d₀ d d₂ : Disk} (h : d₀.Clearable st.outputDir)
include h

/-- Once the output has been removed, it has not been made. -/
theorem reached_of_removeTree : Reached st d₀ (d₀.removeTree st.outputDir).2 := by
  have hcleared := h.removeTree_cleared
  refine .unopened (h.isTree.removeTree _) ⟨hcleared.workingDirectory, hcleared.platform, fun m hm => ?_⟩ (.inl fun m hm => ?_)
  · rw [hcleared.get?, if_neg hm]
  · rw [hcleared.get?, if_pos hm]

/-- The disk of a build that has cleared its output and made its directories is a tree. -/
theorem isTree_of_makeDirs (hmake : (d₀.removeTree st.outputDir).2.makeDirs st.componentsDir = (.ok (), d₂)) : d₂.IsTree := by
  have hopens := makeDirs_opens (d₀.removeTree st.outputDir).2 st.componentsDir
  rw [hmake] at hopens
  exact hopens.isTree (isWritten_componentsDir h.isWritten) (h.isTree.removeTree _)

/-- Making the directory of the components opens the output, or it changes nothing. -/
theorem reached_of_makeDirs (hshort : ∀ part ∈ st.outputDir.parts, part.utf8ByteSize ≤ nameLimit)
    (hremove : (d₀.removeTree st.outputDir).1 = .ok ()) :
    Reached st d₀ ((d₀.removeTree st.outputDir).2.makeDirs st.componentsDir).2 := by
  have hcleared := h.removeTree_cleared
  rcases hmake : (d₀.removeTree st.outputDir).2.makeDirs st.componentsDir with ⟨f | u, d₂⟩
  · have hfirm : (d₀.removeTree st.outputDir).2.Firm [] st.componentsDir.parts := by
      refine Firm.concat (FirmBeside.firm (h.firm.mono fun l hl hdir => ?_)) (by decide)
      rwa [hasDirectory_iff, hcleared.get?, if_neg hl, ← hasDirectory_iff]
    have hparts : ∀ part ∈ st.componentsDir.parts, part.utf8ByteSize ≤ nameLimit := by
      intro part hpart
      rcases List.mem_append.mp hpart with hpart | hpart
      · exact hshort part hpart
      · rw [List.mem_singleton.mp hpart]
        decide
    have hsame : d₂ = _ := makeDirectories_unchanged (h.isTree.removeTree _) (isWritten_componentsDir h.isWritten) h.isAbsolute hfirm
      hparts hmake
    rw [hsame]
    exact reached_of_removeTree h
  · exact .opened hremove hmake (.refl (isTree_of_makeDirs h hmake))

/-- Copying the static files fills the output. -/
theorem reached_of_copyStaticOf (hremove : (d₀.removeTree st.outputDir).1 = .ok ())
    (hmake : (d₀.removeTree st.outputDir).2.makeDirs st.componentsDir = (.ok (), d₂)) (source? : Option Path) :
    Reached st d₀ (copyStaticOf source? st.outputDir d₂).2 := by
  have hopens := makeDirs_opens (d₀.removeTree st.outputDir).2 st.componentsDir
  rw [hmake] at hopens
  have hstart : SameStart d₀ d₂ := .inl (hopens.grows.workingDirectory.trans h.removeTree_cleared.workingDirectory)
  obtain ⟨hleads, -⟩ := leads_outputDir h.isWritten hstart (makeDirs_eq_ok hmake)
  exact .opened hremove hmake (copyStaticOf_fills (isTree_of_makeDirs h hmake) hleads source?)

/-- The calls behind the preparation keep how far a build has come. -/
theorem Reached.perform (hr : Reached st d₀ d) {request : Call} (hrequest : LaterCall st request) :
    Reached st d₀ (Build.perform d request).2 := by
  cases hrequest with
  | list => exact hr
  | read => exact hr
  | component hname content =>
    exact hr.writeText (isWritten_componentTarget h.isWritten hname) (componentFilename_ne_up _ _) h.isAbsolute
      (place_componentTarget d₀ st _) (by simp) content
  | index content =>
    exact hr.writeText (isWritten_indexTarget h.isWritten) (indexFilename_ne_up _) h.isAbsolute (place_indexTarget d₀ st) (by simp)
      content

/-- Wherever a build ends, its output can be removed again. -/
theorem Reached.clearable (hr : Reached st d₀ d) : d.Clearable st.outputDir := by
  cases hr with
  | unopened htree hsame hfree =>
    refine h.later htree hsame.workingDirectory (fun l hl hdir => ?_) hfree
    rwa [hasDirectory_iff, hsame.get? l hl, ← hasDirectory_iff]
  | opened _ hmake hfills =>
    have hcleared := h.removeTree_cleared
    have hopens := makeDirs_opens (d₀.removeTree st.outputDir).2 st.componentsDir
    rw [hmake] at hopens
    have hanew := h.isAnew_of_makeDirs (by decide) hcleared hmake
    refine h.later hfills.isTree (hfills.grows.workingDirectory.trans (hopens.grows.workingDirectory.trans hcleared.workingDirectory))
      (fun l hl hdir => ?_) (.inr (hfills.grows.directories _ hanew.directory))
    refine hfills.grows.directories l (hopens.grows.directories l ?_)
    rwa [hasDirectory_iff, hcleared.get?, if_neg hl, ← hasDirectory_iff]

end

section
variable (hc : c.Local disk Ready)
include hc

/-- However it ends, the preparation has come as far as a build can come. -/
theorem prepare_reached (hshort : ∀ part ∈ st.outputDir.parts, part.utf8ByteSize ≤ nameLimit) {s : Session σ} (hs : Ready s.world)
    (h : (disk s.world).Clearable st.outputDir) :
    Holds disk Ready (fun d _ => Reached st (disk s.world) d) (exec (prepare c st) s).2 := by
  unfold prepare
  obtain ⟨hs₁, hd₁, -⟩ := exec_local_call (hc.removeTree st.outputDir) hs (.remove st.outputDir) done FaultKind.isStorage
    (.prepare st.outputDir)
  have hreached₁ := reached_of_removeTree h
  rw [← hd₁] at hreached₁
  refine Preserves.exec_bind ⟨hs₁, hreached₁⟩ fun _ t₁ h₁ _ => ?_
  have hremove : ((disk s.world).removeTree st.outputDir).1 = .ok () :=
    (hc.removeTree _ _ hs).1.symm.trans (exec_call_eq_ok h₁).2
  rw [h₁] at hs₁ hd₁
  obtain ⟨hs₂, hd₂, -⟩ := exec_local_call (hc.makeDirs st.componentsDir) hs₁ (.makeDirs st.componentsDir) done FaultKind.isStorage
    (.prepare st.outputDir)
  have hreached₂ := reached_of_makeDirs h hshort hremove
  rw [← hd₁, ← hd₂] at hreached₂
  refine Preserves.exec_bind ⟨hs₂, hreached₂⟩ fun _ t₂ h₂ _ => ?_
  have hmade : ((disk t₁.world).makeDirs st.componentsDir).1 = .ok () :=
    (hc.makeDirs _ _ hs₁).1.symm.trans (exec_call_eq_ok h₂).2
  rw [h₂] at hs₂ hd₂
  obtain ⟨hs₃, hd₃, -⟩ := exec_local_call (hc.copyStatic st.staticDir? st.outputDir) hs₂ (.copy st.staticDir? st.outputDir) done
    FaultKind.isStorage (.prepare st.outputDir)
  refine ⟨hs₃, ?_⟩
  rw [hd₃]
  refine reached_of_copyStaticOf h hremove ?_ _
  rw [← hd₁]
  exact Prod.ext hmade hd₂.symm

/-- However it ends, a build has come so far. -/
theorem build_reached (hshort : ∀ part ∈ st.outputDir.parts, part.utf8ByteSize ≤ nameLimit) {world : σ} (hready : Ready world)
    (h : (disk world).Clearable st.outputDir) (run : Nat → List Schedule.Job → Schedule.State) :
    Ready (runBuildBy run c st world).2.world ∧ Reached st (disk world) (disk (runBuildBy run c st world).2.world) := by
  have hprepare : ∀ record, Holds disk Ready (fun d _ => Reached st (disk world) d)
      (exec (prepare c st) { world := c.log record world }).2 := by
    intro record
    obtain ⟨hdisk, hready'⟩ := hc.log record world hready
    have hreached := @prepare_reached _ _ _ _ st hc hshort { world := c.log record world } hready' (hdisk ▸ h)
    simp only [hdisk] at hreached
    exact hreached
  exact hc.build (J := fun d _ => Reached st (disk world) d) hprepare (fun _ hrequest _ _ hd => hd.perform h hrequest) run

/-- On a disk that a build has left, the output is prepared as it was by that build. -/
theorem prepare_matches_reached (hformat : c.SteadyFormat Ready) {s s' : Session σ} (hsession : s' = { s with world := s'.world })
    (hs : Ready s.world) (hs' : Ready s'.world) (h : (disk s.world).Clearable st.outputDir)
    (hr : Reached st (disk s.world) (disk s'.world)) :
    Matches (fun _ => False) (DisksAlike disk Ready) (exec (prepare c st) s) (exec (prepare c st) s') := by
  have h' := hr.clearable h
  cases hr with
  | unopened _ hsame _ => exact prepare_matches hc hformat hsession hs hs' h h' hsame
  | opened hremove hmake hfills =>
    have hplace : (disk s'.world).place st.outputDir = (disk s.world).place st.outputDir := by
      rw [place_of_isAbsolute h.isAbsolute, place_of_isAbsolute h.isAbsolute]
    have hanew := h.isAnew_of_makeDirs (by decide) h.removeTree_cleared hmake
    have hname : IsName "components" := by decide
    refine prepare_matches_again hc hformat hsession hs hs' hremove hmake ?_
    rw [← hplace] at hanew hfills
    exact renewal_again h' (hfills.grows.directories _ hanew.directory) hname hanew
      ⟨hfills.grows.workingDirectory, hfills.grows.platform, fun m hm => hfills.get?_outside hm⟩

/-- A build that gives a result has made its output, so that the path to it has been looked up. -/
theorem located_of_result (run : Nat → List Schedule.Job → Schedule.State) {world : σ} (hready : Ready world) {result : Result}
    (h : (runBuildBy run c st world).1 = .ok result) : ∃ (d : Disk) (l : Location), d.locate st.componentsDir = .ok l := by
  obtain ⟨found, s₁, hgather, -⟩ := exec_bind_eq_ok (show exec (Build.build run c st) { world } = (.ok result, _) from Prod.ext h rfl)
  obtain ⟨_, s₂, hnote, hrest⟩ := exec_bind_eq_ok hgather
  obtain ⟨_, s₃, hprepare, -⟩ := exec_bind_eq_ok hrest
  obtain ⟨_, t₁, hremove, hrest⟩ := exec_bind_eq_ok hprepare
  obtain ⟨_, t₂, hmake, -⟩ := exec_bind_eq_ok hrest
  have hready₂ : Ready s₂.world := by
    rw [exec_note] at hnote
    rw [← (Prod.mk.inj hnote).2]
    exact (hc.log _ world hready).2
  have hready₁ : Ready t₁.world := by
    obtain ⟨hready', -⟩ := exec_local_call (hc.removeTree st.outputDir) hready₂ (.remove st.outputDir) done FaultKind.isStorage
      (.prepare st.outputDir)
    rwa [hremove] at hready'
  have hmade : ((disk t₁.world).makeDirs st.componentsDir).1 = .ok () :=
    (hc.makeDirs _ _ hready₁).1.symm.trans (exec_call_eq_ok hmake).2
  obtain ⟨l, hl, -⟩ := isDirectory_eq_ok_iff.mp (makeDirs_eq_ok (Prod.ext hmade rfl))
  exact ⟨_, l, hl⟩

/-- No part of the path to the output of a build that gives a result is too long. -/
theorem short_of_result (run : Nat → List Schedule.Job → Schedule.State) {world : σ} (hready : Ready world) {result : Result}
    (h : (runBuildBy run c st world).1 = .ok result) : ∀ part ∈ st.outputDir.parts, part.utf8ByteSize ≤ nameLimit := by
  obtain ⟨d, l, hl⟩ := located_of_result hc run hready h
  intro part hpart
  exact short_of_walk (locate_eq_ok_iff.mp hl).2 part (List.mem_append_left _ hpart)

/-- Builds whose outputs are prepared alike end alike. -/
theorem runBuildBy_alike (hformat : c.SteadyFormat Ready) (run : Nat → List Schedule.Job → Schedule.State) {world world' : σ}
    (hprepare : ∀ record, Matches (fun _ => False) (DisksAlike disk Ready) (exec (prepare c st) { world := c.log record world })
      (exec (prepare c st) { world := c.log record world' })) :
    (runBuildBy run c st world').1 = (runBuildBy run c st world).1 ∧
      ∀ l, (disk (runBuildBy run c st world').2.world).get? l = (disk (runBuildBy run c st world).2.world).get? l := by
  have hmatch : Matches (fun _ => False) (DisksAlike disk Ready) (runBuildBy run c st world) (runBuildBy run c st world') :=
    (hc.respect hformat).build run hprepare
  rcases hmatch with ⟨_, -, hfalse⟩ | ⟨hanswer, ⟨_, _, halike⟩, -⟩
  · exact hfalse.elim
  · exact ⟨hanswer, fun l => halike.get?_eq fun _ _ => id⟩

end

/-! ## Workspaces -/

section
variable {onDisk : Disk → Except Fault α × Disk} {Kept : σ → Prop}

/-- What an operation keeps may be asked of its worlds as well. -/
theorem Mirrors.and {operation : σ → Except Fault α × σ} (h : Mirrors disk Ready operation onDisk)
    (hkeep : ∀ w, Kept w → Kept (operation w).2) : Mirrors disk (fun w => Ready w ∧ Kept w) operation onDisk := by
  intro w ⟨hready, hkept⟩
  obtain ⟨hanswer, hdisk, hready'⟩ := h w hready
  exact ⟨hanswer, hdisk, hready', hkeep w hkept⟩

/-- What a change keeps may be asked of its worlds as well. -/
theorem Leaves.and {change : σ → σ} (h : Leaves disk Ready change) (hkeep : ∀ w, Kept w → Kept (change w)) :
    Leaves disk (fun w => Ready w ∧ Kept w) change := by
  intro w ⟨hready, hkept⟩
  obtain ⟨hdisk, hready'⟩ := h w hready
  exact ⟨hdisk, hready', hkeep w hkept⟩

end

/-- A workspace that keeps no log file and whose children behave in a given way. -/
def Equipped (toolbox : Toolbox) (w : Workspace) : Prop := Unfiled w ∧ w.toolbox = toolbox

theorem onDisk_toolbox (operation : Disk → Except Fault α × Disk) (w : Workspace) :
    (Workspace.onDisk operation w).2.toolbox = w.toolbox := by
  obtain ⟨setup?, heq⟩ := onDisk_eq operation w
  rw [heq]

theorem log_toolbox (record : Log.Record) (w : Workspace) : (w.log record).toolbox = w.toolbox :=
  log_keeps (fun _ _ sink => by cases sink <;> rfl) record w

theorem startOptimizing_toolbox (w : Workspace) : w.startOptimizing.toolbox = w.toolbox := by
  have hnote : ∀ message w, (Workspace.noteOptimizer message w).toolbox = w.toolbox := fun message w => log_toolbox _ w
  unfold Workspace.startOptimizing
  split
  · exact hnote _ { w with svgo := w.svgo.opened }
  · exact (hnote _ _).trans (hnote _ w)

theorem format_toolbox (s : Settings) (source : String) (w : Workspace) : (Workspace.format s source w).2.toolbox = w.toolbox := by
  unfold Workspace.format
  split <;> rfl

/-- The collaborators of a workspace without a log file are local, and the children stay as they are. -/
theorem workspace_local_equipped (s : Settings) (svgo : Tool.Svgo) (toolbox : Toolbox) :
    (Workspace.collaborators s svgo toolbox).Local (·.disk) (Equipped toolbox) :=
  have hc := workspace_local s svgo toolbox
  { removeTree := fun p => (hc.removeTree p).and fun w hw => (onDisk_toolbox _ w).trans hw
    makeDirs := fun p => (hc.makeDirs p).and fun w hw => (onDisk_toolbox _ w).trans hw
    copyStatic := fun source? target => (hc.copyStatic source? target).and fun w hw => (onDisk_toolbox _ w).trans hw
    listFiles := fun root pattern => (hc.listFiles root pattern).and fun _ => id
    readText := fun p => (hc.readText p).and fun _ => id
    writeText := fun p text => (hc.writeText p text).and fun w hw => (onDisk_toolbox _ w).trans hw
    startOptimizing := fun markup => (hc.startOptimizing markup).and fun w hw => (startOptimizing_toolbox w).trans hw
    closeOptimizer := hc.closeOptimizer.and fun _ => id
    format := fun source => (hc.format source).and fun w hw => (format_toolbox s source w).trans hw
    log := fun record => (hc.log record).and fun w hw => (log_toolbox record w).trans hw }

/-- The formatter of a workspace is a function of the source. -/
theorem workspace_steadyFormat (s : Settings) (svgo : Tool.Svgo) (toolbox : Toolbox) :
    (Workspace.collaborators s svgo toolbox).SteadyFormat (Equipped toolbox) := by
  rintro source w w' ⟨-, hw⟩ ⟨-, hw'⟩
  change (Workspace.format s source w').1 = (Workspace.format s source w).1
  unfold Workspace.format
  rw [hw, hw']
  split <;> rfl

/-! ## The whole build -/

/-- What is at and below the output has no influence on a build, in whatever order directories are read and files are listed: on disks
that differ there only, it ends the same and leaves the same disk. So it does when it is run again on the disk that it has left, if no
part of the path to the output is too long for a name; otherwise it never gives a result. -/
theorem old_output_unseen (hc : c.Local disk Ready) (hformat : c.SteadyFormat Ready) (run : Nat → List Schedule.Job → Schedule.State)
    (st : Settings) {world : σ} (hready : Ready world) (h : (disk world).Clearable st.outputDir) :
    let first := runBuildBy run c st world
    (∀ world', Ready world' → (disk world').Clearable st.outputDir →
      SameBeside ((disk world).place st.outputDir) (disk world) (disk world') →
        (runBuildBy run c st world').1 = first.1 ∧
          ∀ l, (disk (runBuildBy run c st world').2.world).get? l = (disk first.2.world).get? l) ∧
    ((∀ part ∈ st.outputDir.parts, part.utf8ByteSize ≤ nameLimit) → ∀ world', Ready world' → disk world' = disk first.2.world →
      (runBuildBy run c st world').1 = first.1 ∧
        ∀ l, (disk (runBuildBy run c st world').2.world).get? l = (disk first.2.world).get? l) ∧
    ((∃ part ∈ st.outputDir.parts, nameLimit < part.utf8ByteSize) → ∀ world', Ready world' →
      ∀ result, (runBuildBy run c st world').1 ≠ .ok result) := by
  intro first
  have hlog : ∀ record world, Ready world → disk (c.log record world) = disk world ∧ Ready (c.log record world) := hc.log
  refine ⟨fun world' hready' h' hsame => ?_, fun hshort world' hready' hagain => ?_, ?_⟩
  · refine runBuildBy_alike hc hformat run fun record => ?_
    obtain ⟨hdisk, hlogged⟩ := hlog record world hready
    obtain ⟨hdisk', hlogged'⟩ := hlog record world' hready'
    exact prepare_matches hc hformat rfl hlogged hlogged' (hdisk ▸ h) (hdisk' ▸ h') (by rwa [hdisk, hdisk'])
  · obtain ⟨-, hreached⟩ := build_reached hc hshort hready h run
    refine runBuildBy_alike hc hformat run fun record => ?_
    obtain ⟨hdisk, hlogged⟩ := hlog record world hready
    obtain ⟨hdisk', hlogged'⟩ := hlog record world' hready'
    refine prepare_matches_reached hc hformat rfl hlogged hlogged' (hdisk ▸ h) ?_
    rw [hdisk, hdisk', hagain]
    exact hreached
  · rintro ⟨part, hpart, hlong⟩ world' hready' result hresult
    exact absurd (short_of_result hc run hready' hresult part hpart) (Nat.not_le.mpr hlong)

/-- A workspace with a given disk, whose tools hand back an empty icon and the source as it is. -/
def toolWorkspace (disk : Disk) : Workspace :=
  { disk, homes := ⟨Path.here, []⟩, readers := .standard, now := "", svgoPlace := "", setup? := none, console := "", runs := []
    svgo := Tool.Svgo.new none []
    toolbox :=
      { svgo := fun _ => .ended 0 (Text.Utf8.encode "<svg/>") []
        prettier := fun source => .ended 0 (Text.Utf8.encode source) [] } }

/-- The disk with one icon, on which nothing has been built. -/
def unbuiltDisk : Disk :=
  { entries := [(["icons"], .directory), (["icons", "a.svg"], .file (Text.Utf8.encode "<svg/>"))], workingDirectory := [] }

theorem isTree_unbuiltDisk : unbuiltDisk.IsTree := isTree_of_entries (by decide +kernel)

/-- Settings with a given output. -/
def outputSettings (parts : List String) : Settings := { twoSlots with outputDir := ⟨.root, parts⟩ }

/-- Nothing stands at the output directory of the example, nor below it. -/
theorem free_unbuiltDisk : ∀ m, ["out"] <+: m → unbuiltDisk.get? m = none := by
  rintro m ⟨rest, rfl⟩
  rw [get?_eq_find? (by simp)]
  simp [unbuiltDisk]

/-- The disk of the example with its old output and the one without it agree beside the output directory. -/
theorem sameBeside_unbuiltDisk : SameBeside ["out"] iconDisk unbuiltDisk where
  workingDirectory := rfl
  platform := rfl
  get? := by
    intro m hm
    by_cases hnil : m = []
    · rw [hnil]
      rfl
    rw [get?_eq_find? hnil, get?_eq_find? hnil]
    have hdir : ¬["out"] = m := fun heq => hm (heq ▸ List.prefix_refl _)
    have hfile : ¬["out", "old.js"] = m := fun heq => hm (heq ▸ List.prefix_append ["out"] _)
    simp [unbuiltDisk, iconDisk, List.find?_cons, hdir, hfile]

/-- A build in a workspace with a given disk. -/
def toolRun (disk : Disk) : Except Failure Result × Session Workspace :=
  runBuildBy Schedule.run (Workspace.collaborators (outputSettings ["out"]) (Tool.Svgo.new none []) (toolWorkspace disk).toolbox)
    (outputSettings ["out"]) (toolWorkspace disk)

/-- A build over an old output does what it does without one, and so does a build over what it has left. -/
theorem old_output_unseen_twice :
    (toolRun iconDisk).1.toOption = some ⟨[⟨.root, ["out", "components", "A.js"]⟩], ⟨.root, ["out", "index.js"]⟩⟩ ∧
      ((toolRun unbuiltDisk).1 = (toolRun iconDisk).1 ∧
        ∀ l, (toolRun unbuiltDisk).2.world.disk.get? l = (toolRun iconDisk).2.world.disk.get? l) ∧
      (toolRun (toolRun iconDisk).2.world.disk).1 = (toolRun iconDisk).1 ∧
        ∀ l, (toolRun (toolRun iconDisk).2.world.disk).2.world.disk.get? l = (toolRun iconDisk).2.world.disk.get? l := by
  have hresult : (toolRun iconDisk).1.toOption =
      some ⟨[⟨.root, ["out", "components", "A.js"]⟩], ⟨.root, ["out", "index.js"]⟩⟩ := by decide +kernel
  have hready : ∀ disk, Equipped (toolWorkspace iconDisk).toolbox (toolWorkspace disk) := fun _ => ⟨rfl, rfl⟩
  have hclear : iconDisk.Clearable (outputSettings ["out"]).outputDir :=
    ⟨isTree_iconDisk, rfl, by decide, by decide, rfl, ⟨nofun, trivial⟩, .inr (by decide)⟩
  have hclear' : unbuiltDisk.Clearable (outputSettings ["out"]).outputDir :=
    ⟨isTree_unbuiltDisk, rfl, by decide, by decide, rfl, ⟨nofun, trivial⟩, .inl free_unbuiltDisk⟩
  obtain ⟨hfresh, hagain, -⟩ := old_output_unseen (workspace_local_equipped _ _ (toolWorkspace iconDisk).toolbox)
    (workspace_steadyFormat _ _ _) Schedule.run (outputSettings ["out"]) (hready iconDisk) hclear
  exact ⟨hresult, hfresh _ (hready unbuiltDisk) hclear' sameBeside_unbuiltDisk, hagain (by decide) _ (hready _) rfl⟩

/-- The disk with one icon and an empty directory in the output. -/
def hollowDisk : Disk :=
  { unbuiltDisk with entries := unbuiltDisk.entries ++ [(["out"], .directory), (["out", "sub"], .directory)] }

/-- Empty directories in the output make no difference beside it. -/
theorem sameBeside_hollowDisk : SameBeside ["out"] unbuiltDisk hollowDisk where
  workingDirectory := rfl
  platform := rfl
  get? := by
    intro m hm
    by_cases hnil : m = []
    · rw [hnil]
      rfl
    rw [get?_eq_find? hnil, get?_eq_find? hnil]
    have hdir : ¬["out"] = m := fun heq => hm (heq ▸ List.prefix_refl _)
    have hsub : ¬["out", "sub"] = m := fun heq => hm (heq ▸ List.prefix_append ["out"] _)
    simp [unbuiltDisk, hollowDisk, List.find?_cons, hdir, hsub]

/-- If ways back up on the path to the output leave directories below it, the output cannot be removed along that path once it is
there, so that old output is told from none, and a second build fails where the first one has not. -/
theorem old_output_unseen_false :
    (¬∀ (st : Settings) (d d' : Disk), d.IsTree → d'.IsTree → d.hasDirectory d.workingDirectory = true →
      ¬d.place st.outputDir <+: d.workingDirectory → st.outputDir.IsWritten → st.outputDir.isAbsolute = true →
      FreeOrDirectory d (d.place st.outputDir) → FreeOrDirectory d' (d.place st.outputDir) →
      SameBeside (d.place st.outputDir) d d' →
        (runBuildBy Schedule.run onDiskOnly st d').1.toOption = (runBuildBy Schedule.run onDiskOnly st d).1.toOption) ∧
    ¬∀ (st : Settings) (d : Disk), d.IsTree → d.hasDirectory d.workingDirectory = true →
      ¬d.place st.outputDir <+: d.workingDirectory → st.outputDir.IsWritten → st.outputDir.isAbsolute = true →
      FreeOrDirectory d (d.place st.outputDir) → ¬d.place st.outputDir <+: d.place st.inputDir → st.staticDir? = none →
        (runBuildBy Schedule.run onDiskOnly st (runBuildBy Schedule.run onDiskOnly st d).2.world).1.toOption =
          (runBuildBy Schedule.run onDiskOnly st d).1.toOption := by
  let winding := outputSettings ["out", "sub", "..", "..", "out"]
  have hfirst : (runBuildBy Schedule.run onDiskOnly winding unbuiltDisk).1.toOption.isSome = true := by decide +kernel
  constructor
  · intro h
    have hhollow : (runBuildBy Schedule.run onDiskOnly winding hollowDisk).1.toOption.isSome = false := by decide +kernel
    rw [h winding unbuiltDisk hollowDisk isTree_unbuiltDisk (isTree_of_entries (by decide +kernel)) rfl (by decide) (by decide) rfl
      (.inl free_unbuiltDisk) (.inr (by decide)) sameBeside_hollowDisk, hfirst] at hhollow
    cases hhollow
  · intro h
    have hagain : (runBuildBy Schedule.run onDiskOnly winding
        (runBuildBy Schedule.run onDiskOnly winding unbuiltDisk).2.world).1.toOption.isSome = false := by decide +kernel
    rw [h winding unbuiltDisk isTree_unbuiltDisk rfl (by decide) (by decide) rfl (.inl free_unbuiltDisk) (by decide) rfl, hfirst] at hagain
    cases hagain

end IconForge.Build
