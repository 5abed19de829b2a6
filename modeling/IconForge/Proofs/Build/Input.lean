import IconForge.Proofs.Build.Output
import IconForge.Proofs.Build.Success
import IconForge.Proofs.Disk.Select

/-!
# What becomes of the input

A build clears its output before it looks for its icons, so that icons below the output are lost (`input_kept_false`). Apart from them
it keeps its input, however it ends (`input_kept`): it removes nothing but what lies below the output, and all that it writes goes
there.
-/

namespace IconForge.Build

open Component Disk

/-- A disk that differs from an earlier one below a location only, and by directories that have been made. -/
structure Safe (base : Location) (d d' : Disk) : Prop where
  spares : Spares (base <+: ·) (fun _ => True) d d'
  isTree : d'.IsTree
  /-- A file at the location itself stays as well. -/
  file : ∀ content, d.get? base = some (.file content) → d'.get? base = some (.file content)

/-- A file that does not lie below the location stays. -/
theorem Safe.get? {base l : Location} {d d' : Disk} (h : Safe base d d') (htree : d.IsTree) {content : List UInt8}
    (hl : isBelow l base = false) (hfile : d.get? l = some (.file content)) : d'.get? l = some (.file content) := by
  by_cases heq : l = base
  · subst heq
    exact h.file content hfile
  · refine h.spares.file (htree.not_isStray_of_file hfile) (fun hpre => ?_) hfile
    exact absurd (isBelow_iff.mpr ⟨hpre, heq⟩) (by simp [hl])

/-! ## The stages -/

section
variable {σ : Type} {disk : σ → Disk} {Ready : σ → Prop} {c : Collaborators σ} {st : Settings}

/-- Removing the output is safe. -/
theorem removeTree_safe {d : Disk} (htree : d.IsTree) (p : Path) : Safe (d.place p) d (d.removeTree p).2 where
  spares := removeTree_spares fun _ hm => hm
  isTree := htree.removeTree p
  file := by
    intro content hfile
    rcases removeTree_cases d p with ⟨r, hr, -⟩ | ⟨l, hl, hdir, -⟩
    · rw [hr]
      exact hfile
    · have hplace : l = d.place p := eq_place_of_locate hl
      rw [hplace, hasDirectory_iff, hfile] at hdir
      cases hdir

/-- Making the directory of the components is safe. -/
theorem makeDirs_safe {base : Location} {d d₁ : Disk} (h : Safe base d d₁) {p : Path} (hw : p.IsWritten) :
    Safe base d (d₁.makeDirs p).2 where
  spares := h.spares.trans ((makeDirs_opens d₁ p).grows.mono (fun _ hf => hf.elim) fun _ _ => trivial).spares
  isTree := (makeDirs_opens d₁ p).isTree hw h.isTree
  file := by
    intro content hfile
    have hfile₁ := h.file content hfile
    rcases (makeDirs_opens d₁ p).grows.outside base id with heq | ⟨hnone, -⟩
    · rw [heq, hfile₁]
    · rw [hnone] at hfile₁
      cases hfile₁

/-- What fills a directory at the location is safe. -/
theorem Fills.safe {base : Location} {d d₁ d₂ : Disk} (hf : Fills base d₁ d₂) (h : Safe base d d₁) (hdir : d₁.hasDirectory base = true) :
    Safe base d d₂ where
  spares := h.spares.trans (hf.grows.mono (fun _ hm => hm) fun _ _ => trivial).spares
  isTree := hf.isTree
  file := by
    intro content hfile
    have hfile₁ := h.file content hfile
    rw [hasDirectory_iff.mp hdir] at hfile₁
    cases hfile₁

/-- Preparing the output is safe, whether it fails or not. -/
theorem prepare_safe (hc : c.Local disk Ready) (hw : st.outputDir.IsWritten) {s : Session σ} (hs : Ready s.world)
    (htree : (disk s.world).IsTree) :
    Holds disk Ready (fun d' _ => Safe ((disk s.world).place st.outputDir) (disk s.world) d') (exec (prepare c st) s).2 := by
  unfold prepare
  obtain ⟨hs₁, hd₁, -⟩ := exec_local_call (hc.removeTree st.outputDir) hs (.remove st.outputDir) done FaultKind.isStorage
    (.prepare st.outputDir)
  have hsafe₁ := removeTree_safe htree st.outputDir
  rw [← hd₁] at hsafe₁
  refine Preserves.exec_bind ⟨hs₁, hsafe₁⟩ fun _ t₁ h₁ _ => ?_
  rw [h₁] at hs₁ hsafe₁
  obtain ⟨hs₂, hd₂, -⟩ := exec_local_call (hc.makeDirs st.componentsDir) hs₁ (.makeDirs st.componentsDir) done FaultKind.isStorage
    (.prepare st.outputDir)
  have hsafe₂ := makeDirs_safe hsafe₁ (isWritten_componentsDir hw)
  rw [← hd₂] at hsafe₂
  refine Preserves.exec_bind ⟨hs₂, hsafe₂⟩ fun _ t₂ h₂ _ => ?_
  -- The directory of the components has been made, so that the output is a directory where it was to be.
  have hmade : ((disk t₁.world).makeDirs st.componentsDir).1 = .ok () :=
    (hc.makeDirs _ _ hs₁).1.symm.trans (exec_call_eq_ok h₂).2
  rw [h₂] at hs₂ hd₂ hsafe₂
  have hdirectory := makeDirs_eq_ok (Prod.ext hmade hd₂.symm)
  obtain ⟨hleads, hdir⟩ := leads_outputDir hw hsafe₂.spares.start hdirectory
  obtain ⟨hs₃, hd₃, -⟩ := exec_local_call (hc.copyStatic st.staticDir? st.outputDir) hs₂ (.copy st.staticDir? st.outputDir) done
    FaultKind.isStorage (.prepare st.outputDir)
  refine ⟨hs₃, ?_⟩
  rw [hd₃]
  exact Fills.safe (copyStaticOf_fills hsafe₂.isTree hleads _) hsafe₂ hdir

/-- Writing a file below the location is safe. -/
theorem writeText_safe {d d' : Disk} {p : Path} {name : String} {rel : Location} (hw : (p.child name).IsWritten) (hup : name ≠ "..")
    (hbelow : d.place (p.child name) = d.place st.outputDir ++ rel) (hrel : rel ≠ []) (h : Safe (d.place st.outputDir) d d')
    (text : String) : Safe (d.place st.outputDir) d (d'.writeText (p.child name) text).2 := by
  have hplace : ∀ l, d'.locate (p.child name) = .ok l → l = d.place st.outputDir ++ rel := fun l hl =>
    (locate_eq_place h.spares.start hl (.inl (by simp [Path.child]))).trans hbelow
  have hgrows : Grows (d.place st.outputDir <+: ·) (fun _ => True) d' (d'.writeText (p.child name) text).2 :=
    writeText_grows hup (fun l hl => hplace l hl ▸ List.prefix_append _ _) text
  refine ⟨h.spares.trans hgrows.spares, h.isTree.writeText hw hup text, fun content hfile => ?_⟩
  have hfile' := h.file content hfile
  rcases writeText_cases d' (p.child name) text with ⟨f, hr⟩ | ⟨l, hl, -, hr⟩
  · rw [hr]
    exact hfile'
  · have hne : d.place st.outputDir ≠ l := by
      rw [hplace l hl]
      simpa using hrel
    rw [hr, get?_put (ne_nil_of_locate hup hl), if_neg hne]
    exact hfile'

/-- The calls behind the preparation are safe. -/
theorem laterCall_safe {d d' : Disk} (hw : st.outputDir.IsWritten) {request : Call} (hrequest : LaterCall st request)
    (h : Safe (d.place st.outputDir) d d') : Safe (d.place st.outputDir) d (perform d' request).2 := by
  cases hrequest with
  | list => exact h
  | read => exact h
  | component hname content =>
    exact writeText_safe (isWritten_componentTarget hw hname) (componentFilename_ne_up _ _) (place_componentTarget d st _) (by simp) h
      content
  | index content =>
    exact writeText_safe (isWritten_indexTarget hw) (indexFilename_ne_up _) (place_indexTarget d st) (by simp) h content

/-- A local build is safe, whatever its outcome. -/
theorem build_safe (hc : c.Local disk Ready) (hw : st.outputDir.IsWritten) {world : σ} (hready : Ready world)
    (htree : (disk world).IsTree) (run : Nat → List Schedule.Job → Schedule.State) :
    Safe ((disk world).place st.outputDir) (disk world) (disk (runBuildBy run c st world).2.world) := by
  have hprepare : ∀ record, Holds disk Ready (fun d' _ => Safe ((disk world).place st.outputDir) (disk world) d')
      (exec (prepare c st) { world := c.log record world }).2 := by
    intro record
    obtain ⟨hdisk, hready'⟩ := hc.log record world hready
    have hsafe := @prepare_safe _ _ _ _ st hc hw { world := c.log record world } hready' (hdisk ▸ htree)
    simp only [hdisk] at hsafe
    exact hsafe
  exact (hc.build (J := fun d' _ => Safe ((disk world).place st.outputDir) (disk world) d') hprepare
    (fun request hrequest d es hd => laterCall_safe hw hrequest hd) run).2

end

/-! ## Listed files -/

/-- Every file that would have been listed before a local build is still there behind it, with the same bytes and whatever the
outcome, unless it lies below the output. -/
theorem input_kept {σ : Type} {disk : σ → Disk} {Ready : σ → Prop} {c : Collaborators σ} (hc : c.Local disk Ready)
    (run : Nat → List Schedule.Job → Schedule.State) (st : Settings) (hw : st.outputDir.IsWritten) {world : σ} (hready : Ready world)
    (htree : (disk world).IsTree) {paths : List Path} (hlist : (disk world).listFiles st.inputDir st.pattern = .ok paths) :
    ∀ p ∈ paths, ∃ l content, (disk world).locate p = .ok l ∧ (disk world).get? l = some (.file content) ∧
      (isBelow l ((disk world).place st.outputDir) = false →
        (disk (runBuildBy run c st world).2.world).get? l = some (.file content)) := by
  intro p hp
  obtain ⟨l, content, hl, hfile⟩ := file_of_mem_listFiles hlist hp
  exact ⟨l, content, hl, hfile, fun hbelow => (build_safe hc hw hready htree run).get? htree hbelow hfile⟩

/-- A disk with one icon, and with what an earlier build has left. -/
def iconDisk : Disk :=
  { entries := [(["icons"], .directory), (["icons", "a.svg"], .file (Text.Utf8.encode "<svg/>")),
      (["out"], .directory), (["out", "old.js"], .file [])]
    workingDirectory := [] }

theorem isTree_iconDisk : iconDisk.IsTree := isTree_of_entries (by decide +kernel)

/-- The disk of the example holds one icon. -/
theorem listFiles_iconDisk : iconDisk.listFiles twoSlots.inputDir twoSlots.pattern = .ok [⟨.here, ["icons", "a.svg"]⟩] :=
  eq_ok_of_toOption (by decide +kernel)

/-- The icon is still there behind a build into a directory beside it, and what the earlier build has left is gone. -/
theorem input_kept_beside :
    let final := (runBuildBy Schedule.run onDiskOnly twoSlots iconDisk).2.world
    final.get? ["icons", "a.svg"] = some (.file (Text.Utf8.encode "<svg/>")) ∧ final.get? ["out", "old.js"] = none := by
  intro final
  obtain ⟨l, content, hl, hfile, hkept⟩ := input_kept onDiskOnly_local Schedule.run twoSlots (by decide +kernel) trivial isTree_iconDisk
    listFiles_iconDisk _ (List.mem_singleton_self _)
  have hplace : l = ["icons", "a.svg"] := eq_place_of_locate hl
  subst hplace
  have hicon : iconDisk.get? ["icons", "a.svg"] = some (.file (Text.Utf8.encode "<svg/>")) := by decide +kernel
  refine ⟨?_, by decide +kernel⟩
  exact (hkept (by decide +kernel)).trans (hfile.symm.trans hicon)

/-- Icons that lie below the output are removed before the build looks for them. -/
theorem input_kept_false :
    ¬∀ (σ : Type) (disk : σ → Disk) (Ready : σ → Prop) (c : Collaborators σ), c.Local disk Ready →
      ∀ (run : Nat → List Schedule.Job → Schedule.State) (st : Settings) (world : σ), st.outputDir.IsWritten → Ready world →
        (disk world).IsTree → ∀ paths, (disk world).listFiles st.inputDir st.pattern = .ok paths →
          ∀ p ∈ paths, ∀ l content, (disk world).locate p = .ok l → (disk world).get? l = some (.file content) →
            (disk (runBuildBy run c st world).2.world).get? l = some (.file content) := by
  intro h
  let st : Settings := { twoSlots with outputDir := ⟨.here, ["icons"]⟩, staticDir? := some ⟨.here, ["static"]⟩ }
  have hkept := h Disk id _ onDiskOnly onDiskOnly_local Schedule.run st iconDisk (by decide +kernel) trivial isTree_iconDisk _
    listFiles_iconDisk _ (List.mem_singleton_self _) ["icons", "a.svg"] (Text.Utf8.encode "<svg/>") (eq_ok_of_toOption (by decide +kernel))
    (by decide +kernel)
  have hgone : (runBuildBy Schedule.run onDiskOnly st iconDisk).2.world.get? ["icons", "a.svg"] = none := by decide +kernel
  have hnone := hkept.symm.trans hgone
  cases hnone

end IconForge.Build
