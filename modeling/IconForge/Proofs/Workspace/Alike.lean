import IconForge.Proofs.Build.Coupled
import IconForge.Proofs.Build.Local
import IconForge.Proofs.Disk.Alike

/-!
# Workspaces that are alike

Workspaces are alike when they differ in their disks only, and these are alike (`AlikeBut`). Whatever a build does in them it does the
same, unless it takes in a file that may differ (`collaborators_respect`); a log file may go on growing where contents differ.
-/

namespace IconForge.Workspace

open Build

variable {α : Type} {differ : Location → List UInt8 → List UInt8 → Prop} {w w' : Workspace} {d₀ : Disk} {l : Location}

/-- Workspaces that differ in their disks only, which are alike. -/
def AlikeBut (differ : Location → List UInt8 → List UInt8 → Prop) (w w' : Workspace) : Prop :=
  ∃ d', w' = { w with disk := d' } ∧ Disk.Alike differ w.disk d'

/-- Contents that may differ may do so when the same bytes are added at their ends. -/
def Appendable (differ : Location → List UInt8 → List UInt8 → Prop) : Prop :=
  ∀ l content content' more, differ l content content' → differ l (content ++ more) (content' ++ more)

namespace AlikeBut

theorem mono {more : Location → List UInt8 → List UInt8 → Prop} (h : AlikeBut differ w w')
    (hmore : ∀ l content content', differ l content content' → more l content content') : AlikeBut more w w' := by
  obtain ⟨d', rfl, hd⟩ := h
  exact ⟨d', rfl, hd.mono hmore⟩

/-- A log file is there in both of them, or in none. -/
theorem settled (h : AlikeBut differ w w') : AlikeBut differ w.settled w'.settled := by
  obtain ⟨d', rfl, hd⟩ := h
  unfold Workspace.settled
  simp only
  split
  · rename_i detail l hsetup
    have htwin := hd.get? l
    generalize w.disk.get? l = x at htwin ⊢
    generalize d'.get? l = y at htwin ⊢
    cases htwin with
    | same => split <;> exact ⟨d', rfl, hd⟩
    | files => exact ⟨d', rfl, hd⟩
  · exact ⟨d', rfl, hd⟩

/-- An operation that disks answer alike is answered alike. -/
theorem onDisk {operation : Disk → Except Fault α × Disk} (h : AlikeBut differ w w')
    (hoperation : ∀ d', Disk.Alike differ w.disk d' → Disk.AlikeEnds differ (operation w.disk) (operation d')) :
    (onDisk operation w').1 = (onDisk operation w).1 ∧
      AlikeBut differ (Workspace.onDisk operation w).2 (Workspace.onDisk operation w').2 := by
  obtain ⟨d', rfl, hd⟩ := h
  obtain ⟨hanswer, hafter⟩ := hoperation d' hd
  have hbut : AlikeBut differ { w with disk := (operation w.disk).2 } { w with disk := (operation d').2 } := ⟨_, rfl, hafter⟩
  exact ⟨hanswer, hbut.settled⟩

theorem log (h : AlikeBut differ w w') (happend : Appendable differ) (record : Log.Record) :
    AlikeBut differ (w.log record) (w'.log record) := by
  have hkeep : ∀ {w w' : Workspace} (sink : Log.Sink), AlikeBut differ w w' →
      AlikeBut differ (w.keep record sink) (w'.keep record sink) := by
    rintro w _ sink ⟨d', rfl, hd⟩
    cases sink with
    | console => exact ⟨d', rfl, hd⟩
    | file l => exact ⟨_, rfl, hd.appendBytes l _ fun content content' => happend l content content' _⟩
  have hall : ∀ (sinks : List Log.Sink) {w w' : Workspace}, AlikeBut differ w w' →
      AlikeBut differ (sinks.foldl (Workspace.keep record) w) (sinks.foldl (Workspace.keep record) w') := by
    intro sinks
    induction sinks with
    | nil => exact fun h => h
    | cons sink rest ih => exact fun h => ih (hkeep sink h)
  have hsetup : w'.setup? = w.setup? := by
    obtain ⟨d', rfl, -⟩ := h
    rfl
  unfold Workspace.log
  rw [hsetup]
  split
  · exact hall _ h
  · exact h

theorem tell (h : AlikeBut differ w w') (text : String) : AlikeBut differ (w.tell text) (w'.tell text) := by
  obtain ⟨d', rfl, hd⟩ := h
  exact ⟨d', rfl, hd⟩

/-- A log file is opened alike. -/
theorem openLogFile {d d' : Disk} (h : Disk.Alike differ d d') (p : Path) :
    Disk.AlikeEnds differ (openLogFile p d) (Workspace.openLogFile p d') := by
  obtain ⟨hanswer, hd⟩ := h.makeDirs p.parent
  unfold Workspace.openLogFile
  rcases hx : d.makeDirs p.parent with ⟨answer, d₁⟩
  rcases hy : d'.makeDirs p.parent with ⟨answer', d₁'⟩
  rw [hx, hy] at hanswer hd
  obtain rfl : answer' = answer := hanswer
  cases answer' with
  | error f => exact ⟨rfl, hd⟩
  | ok =>
    simp only [hd.resolve_eq]
    cases d₁.resolve p with
    | error f => exact ⟨rfl, hd⟩
    | ok full =>
      rcases hd.ensureFile full with ⟨r, hr, hr'⟩ | ⟨l, d₂, d₂', hl, hl', hend⟩
      · simp only [hr, hr']
        exact ⟨rfl, hd⟩
      · simp only [hl, hl']
        exact ⟨rfl, hend⟩

/-- Logging is set up alike. -/
theorem configureLog (h : AlikeBut differ w w') (detail : Log.Detail) (file? : Option Path) :
    (configureLog detail file? w').1 = (configureLog detail file? w).1 ∧
      AlikeBut differ (Workspace.configureLog detail file? w).2 (Workspace.configureLog detail file? w').2 := by
  obtain ⟨d', rfl, hd⟩ := h
  cases file? with
  | none => exact ⟨rfl, d', rfl, hd⟩
  | some p =>
    have hbut : AlikeBut differ { w with setup? := some ⟨detail, none⟩ } { w with disk := d', setup? := some ⟨detail, none⟩ } :=
      ⟨d', rfl, hd⟩
    obtain ⟨hanswer, hafter⟩ := hbut.onDisk fun _ h => openLogFile h p
    unfold Workspace.configureLog
    simp only
    rcases hx : Workspace.onDisk (Workspace.openLogFile p) { w with setup? := some ⟨detail, none⟩ } with ⟨answer, w₁⟩
    rcases hy : Workspace.onDisk (Workspace.openLogFile p) { w with disk := d', setup? := some ⟨detail, none⟩ } with ⟨answer', w₁'⟩
    rw [hx, hy] at hanswer hafter
    obtain rfl : answer' = answer := hanswer
    cases answer' with
    | error f => exact ⟨rfl, hafter⟩
    | ok l =>
      obtain ⟨d₁', rfl, hd₁⟩ := hafter
      exact ⟨rfl, d₁', rfl, hd₁⟩

end AlikeBut

/-! ## Builds -/

/-- A call that takes in the file at a location, seen from a disk: it reads it, or it copies a directory in which it lies. -/
def TakesIn (d : Disk) (l : Location) : Call → Prop
  | .read p => d.place p = l
  | .copy (some source) _ => d.place source <+: l
  | _ => False

instance (d : Disk) (l : Location) : DecidablePred (TakesIn d l)
  | .read p => inferInstanceAs (Decidable (d.place p = l))
  | .copy (some source) _ => inferInstanceAs (Decidable (d.place source <+: l))
  | .copy none _ | .remove _ | .makeDirs _ | .list _ _ | .write _ _ => instDecidableFalse

/-- Workspaces that are alike, and whose working directory is where it was on an earlier disk, or gone. -/
def AlikeFrom (differ : Location → List UInt8 → List UInt8 → Prop) (d₀ : Disk) (w w' : Workspace) : Prop :=
  AlikeBut differ w w' ∧ Disk.SameStart d₀ w.disk

/-- Logging does not move the working directory. -/
theorem log_workingDirectory (record : Log.Record) (w : Workspace) : (w.log record).disk.workingDirectory = w.disk.workingDirectory := by
  refine @log_keeps _ (fun w => w.disk.workingDirectory) (fun record w sink => ?_) record w
  cases sink with
  | console => rfl
  | file l =>
    change (w.disk.appendBytes l _).workingDirectory = _
    unfold Disk.appendBytes
    split <;> rfl

/-- A workspace whose optimizer has been opened and started. -/
def launched (w : Workspace) : Workspace :=
  (noteOptimizer ("Running " ++ Text.joined " " (w.svgo.opened.arguments w.svgoPlace)) { w with svgo := w.svgo.opened }).started
    (w.svgo.opened.arguments w.svgoPlace)

/-- A child is launched, behind a note when the settings file for it is new. -/
theorem startOptimizing_eq (w : Workspace) :
    w.startOptimizing = (if w.svgo.isOpen then w else noteOptimizer ("Wrote svgo config to " ++ w.svgoPlace) w).launched := by
  unfold startOptimizing
  split <;> rfl

/-- An operation that disks answer alike, and that leaves the working directory where it is if it does not remove it. -/
theorem respects_onDisk {operation : Disk → Except Fault α × Disk}
    (hoperation : ∀ {d d' : Disk}, Disk.SameStart d₀ d → Disk.Alike differ d d' → Disk.AlikeEnds differ (operation d) (operation d'))
    (hstart : ∀ d, Disk.SameStart d (operation d).2) : Respects (AlikeFrom differ d₀) (onDisk operation) := by
  rintro w w' ⟨hbut, hfrom⟩
  obtain ⟨hanswer, hafter⟩ := hbut.onDisk fun d' hd => hoperation hfrom hd
  obtain ⟨setup?, heq⟩ := onDisk_eq operation w
  have hdisk : (Workspace.onDisk operation w).2.disk = (operation w.disk).2 := by rw [heq]
  exact ⟨hanswer, hafter, hfrom.trans (hdisk ▸ hstart w.disk)⟩

section
variable (happend : Appendable differ)
include happend

theorem AlikeFrom.log {w w' : Workspace} (h : AlikeFrom differ d₀ w w') (record : Log.Record) :
    AlikeFrom differ d₀ (w.log record) (w'.log record) :=
  ⟨h.1.log happend record, h.2.trans (.inl (log_workingDirectory record w))⟩

theorem AlikeFrom.launched {w w' : Workspace} (h : AlikeFrom differ d₀ w w') : AlikeFrom differ d₀ w.launched w'.launched := by
  obtain ⟨⟨d', rfl, hd⟩, hstart⟩ := h
  have hopen : AlikeFrom differ d₀ { w with svgo := w.svgo.opened } { w with disk := d', svgo := w.svgo.opened } := ⟨⟨d', rfl, hd⟩, hstart⟩
  obtain ⟨⟨d₁', hw₁, hd₁⟩, hstart₁⟩ := hopen.log happend
    ⟨Log.loggerOf (some "optimizer"), Log.debug, "Running " ++ Text.joined " " (w.svgo.opened.arguments w.svgoPlace)⟩
  exact ⟨⟨d₁', congrArg (Workspace.started · (w.svgo.opened.arguments w.svgoPlace)) hw₁, hd₁⟩, hstart₁⟩

/-- Starting a child leaves workspaces alike. -/
theorem AlikeFrom.startOptimizing {w w' : Workspace} (h : AlikeFrom differ d₀ w w') :
    AlikeFrom differ d₀ w.startOptimizing w'.startOptimizing := by
  have hsame : w'.svgo = w.svgo ∧ w'.svgoPlace = w.svgoPlace := by
    obtain ⟨⟨d', rfl, -⟩, -⟩ := h
    exact ⟨rfl, rfl⟩
  rw [startOptimizing_eq, startOptimizing_eq, hsame.1, hsame.2]
  refine AlikeFrom.launched happend ?_
  split
  · exact h
  · exact h.log happend _

end

/-- Where a directory lies in which the file is. -/
theorem eq_place_of_along {d : Disk} {p : Path} {m : Location} (hl : ∀ name ∈ l, name ≠ "") (hstart : Disk.SameStart d₀ d)
    (hm : d.locate p = .ok m) (hpre : m <+: l) : m = d₀.place p :=
  Disk.locate_eq_place hstart hm (.inr (Disk.isStray_of_forall_ne fun name hname => hl name (hpre.subset hname)))

/-- What a build does it does the same in workspaces that are alike, unless it takes in the file that may differ. -/
theorem collaborators_respect (happend : Appendable differ) (hdiffer : ∀ m content content', differ m content content' → m = l)
    (hl : ∀ name ∈ l, name ≠ "") (s : Settings) (svgo : Tool.Svgo) (toolbox : Toolbox) :
    (collaborators s svgo toolbox).Respect (TakesIn d₀ l) (AlikeFrom differ d₀) where
  removeTree := fun p _ => respects_onDisk (fun _ h => h.removeTree p) fun d =>
    (@Disk.removeTree_spares (fun _ => True) (fun _ => True) d p fun _ _ => trivial).start
  makeDirs := fun p _ => respects_onDisk (fun _ h => h.makeDirs p) fun d => .inl (Disk.makeDirs_opens d p).grows.workingDirectory
  copyStatic := by
    intro source? target hnot
    cases source? with
    | none => exact respects_onDisk (fun _ h => h.copyFiles _ _ target) fun d => .inl (Disk.copyFiles_workingDirectory d _ _ target)
    | some source =>
      refine respects_onDisk (fun hstart h => h.copyStatic target fun m₀ hm₀ m hpre content content' hcontents => hnot ?_) fun d =>
        .inl (Disk.copyStatic_workingDirectory d source target)
      obtain rfl := hdiffer m content content' hcontents
      rwa [eq_place_of_along hl hstart hm₀ hpre] at hpre
  listFiles := by
    rintro root pattern - w w' ⟨⟨d', rfl, hd⟩, hstart⟩
    exact ⟨hd.listFiles_eq root pattern, ⟨d', rfl, hd⟩, hstart⟩
  readText := by
    rintro p hnot w w' ⟨⟨d', rfl, hd⟩, hstart⟩
    refine ⟨hd.readText_eq fun m hm content content' hcontents => hnot ?_, ⟨d', rfl, hd⟩, hstart⟩
    obtain rfl := hdiffer m content content' hcontents
    exact (eq_place_of_along hl hstart hm (List.prefix_refl _)).symm
  writeText := by
    refine fun p text _ => respects_onDisk (fun _ h => h.writeText p text) fun d => .inl ?_
    rcases Disk.writeText_cases d p text with ⟨f, hr⟩ | ⟨m, -, -, hr⟩ <;> rw [hr]
    rfl
  startOptimizing := fun _ _ _ h => h.startOptimizing happend
  closeOptimizer := by
    rintro w w' ⟨⟨d', rfl, hd⟩, hstart⟩
    exact ⟨⟨d', rfl, hd⟩, hstart⟩
  format := by
    rintro source w w' ⟨⟨d', rfl, hd⟩, hstart⟩
    change (format s source { w with disk := d' }).1 = (format s source w).1 ∧
      AlikeFrom differ d₀ (format s source w).2 (format s source { w with disk := d' }).2
    unfold Workspace.format
    split <;> exact ⟨rfl, ⟨d', rfl, hd⟩, hstart⟩
  log := fun record _ _ h => h.log happend record

/-- The session of a build in a workspace. -/
def buildSession (s : Settings) (w : Workspace) : Session Workspace :=
  let svgo := Tool.Svgo.new (some s.optimizer.executable) s.optimizer.plugins
  (runBuild (collaborators s svgo w.toolbox) s { w with svgo }).2

/-- A build does the same in workspaces that are alike, unless it takes in the file that may differ. -/
theorem AlikeBut.build (h : AlikeBut differ w w') (happend : Appendable differ)
    (hdiffer : ∀ m content content', differ m content content' → m = l) (hl : ∀ name ∈ l, name ≠ "") (s : Settings)
    (hout : ∀ request ∈ (buildSession s w).calls, ¬TakesIn w.disk l request) :
    (w'.build s).1 = (w.build s).1 ∧ AlikeBut differ (w.build s).2 (w'.build s).2 := by
  obtain ⟨d', rfl, hd⟩ := h
  let svgo := Tool.Svgo.new (some s.optimizer.executable) s.optimizer.plugins
  have hrespect : (collaborators s svgo w.toolbox).Respect (TakesIn w.disk l) (AlikeFrom differ w.disk) :=
    collaborators_respect happend hdiffer hl s svgo w.toolbox
  have hstart : AlikeFrom differ w.disk { w with svgo } { w with disk := d', svgo } := ⟨⟨d', rfl, hd⟩, .refl _⟩
  have hends : Matches (TakesIn w.disk l) (AlikeFrom differ w.disk) (runBuild (collaborators s svgo w.toolbox) s { w with svgo })
      (runBuild (collaborators s svgo w.toolbox) s { w with disk := d', svgo }) :=
    hrespect.build Schedule.run fun record => hrespect.prepare.ends _ _ ⟨hstart.log happend record, rfl⟩
  rcases hends with ⟨request, hmem, htakes⟩ | ⟨hanswer, ⟨hbut, -⟩, -⟩
  · exact absurd htakes (hout request hmem)
  · exact ⟨hanswer, hbut⟩

end IconForge.Workspace
