import IconForge.Proofs.Workspace.Alike

/-!
# What is shown plays no part

Where no log file is kept, how much is logged and what the console shows make no difference to a build: it ends the same, and leaves the
same disk behind the same children (`SameUnshown.build`).
-/

namespace IconForge.Workspace

open Build

variable {α : Type} {w w' : Workspace}

/-- A workspace as it is apart from logging. -/
def unshown (w : Workspace) : Workspace := { w with setup? := none, console := "" }

/-- Workspaces without a log file that are the same apart from how much is logged and what the console shows. -/
structure SameUnshown (w w' : Workspace) : Prop where
  unfiled : Unfiled w
  unfiled' : Unfiled w'
  unshown_eq : w'.unshown = w.unshown

/-- A change that is told by what is unshown. -/
theorem SameUnshown.change (h : SameUnshown w w') {u u' : Workspace} (hu : Unfiled u) (hu' : Unfiled u') (f : Workspace → Workspace)
    (hf : u.unshown = f w.unshown) (hf' : u'.unshown = f w'.unshown) : SameUnshown u u' :=
  ⟨hu, hu', by rw [hf, hf', h.unshown_eq]⟩

/-- What is told by what is unshown is the same. -/
theorem SameUnshown.field_eq (h : SameUnshown w w') (field : Workspace → α) (hfield : ∀ w, field w = field w.unshown) :
    field w' = field w := by
  rw [hfield w', hfield w, h.unshown_eq]

/-- Workspaces that differ in what they have shown have the same disk. -/
theorem SameUnshown.disk_eq (h : SameUnshown w w') : w'.disk = w.disk := h.field_eq (·.disk) fun _ => rfl

/-- Where no log file is kept, all that logging changes is shown. -/
theorem unshown_log (record : Log.Record) (h : Unfiled w) : (w.log record).unshown = w.unshown ∧ Unfiled (w.log record) := by
  obtain ⟨console, heq⟩ := log_of_unfiled record h
  rw [heq]
  exact ⟨rfl, h⟩

/-- A record is logged alike in workspaces that differ in what they have shown. -/
theorem SameUnshown.log (h : SameUnshown w w') (record : Log.Record) : SameUnshown (w.log record) (w'.log record) := by
  obtain ⟨heq, hu⟩ := unshown_log record h.unfiled
  obtain ⟨heq', hu'⟩ := unshown_log record h.unfiled'
  exact h.change hu hu' id heq heq'

/-- Operations on the disk do not depend on what has been shown. -/
theorem respects_onDisk_unshown (operation : Disk → Except Fault α × Disk) : Respects SameUnshown (onDisk operation) := by
  intro w w' h
  rw [onDisk_of_unfiled operation h.unfiled, onDisk_of_unfiled operation h.unfiled', h.disk_eq]
  exact ⟨rfl, h.change h.unfiled h.unfiled' (fun u => { u with disk := (operation w.disk).2 }) rfl rfl⟩

/-- Launching a child is the same for all that is not shown. -/
theorem unshown_launched (h : Unfiled w) : w.launched.unshown = { w.unshown with
      svgo := w.svgo.opened, runs := w.runs ++ [w.svgo.opened.arguments w.svgoPlace] } ∧ Unfiled w.launched := by
  obtain ⟨console, heq⟩ := @log_of_unfiled
    ⟨Log.loggerOf (some "optimizer"), Log.debug, "Running " ++ Text.joined " " (w.svgo.opened.arguments w.svgoPlace)⟩
    { w with svgo := w.svgo.opened } h
  rw [launched, noteOptimizer, heq]
  exact ⟨rfl, h⟩

/-- A child is started alike in workspaces that differ in what they have shown. -/
theorem SameUnshown.startOptimizing (h : SameUnshown w w') : SameUnshown w.startOptimizing w'.startOptimizing := by
  have hlaunched : ∀ {w w'}, SameUnshown w w' → SameUnshown w.launched w'.launched := by
    intro w w' h
    obtain ⟨heq, hu⟩ := unshown_launched h.unfiled
    obtain ⟨heq', hu'⟩ := unshown_launched h.unfiled'
    exact h.change hu hu' (fun u => { u with svgo := u.svgo.opened, runs := u.runs ++ [u.svgo.opened.arguments u.svgoPlace] }) heq heq'
  rw [startOptimizing_eq, startOptimizing_eq, h.field_eq (·.svgo) fun _ => rfl, h.field_eq (·.svgoPlace) fun _ => rfl]
  refine hlaunched ?_
  split
  · exact h
  · exact h.log _

/-- What a build does it does the same whatever is shown. -/
theorem collaborators_unshown (s : Settings) (svgo : Tool.Svgo) (toolbox : Toolbox) :
    (collaborators s svgo toolbox).Respect (fun _ => False) SameUnshown where
  removeTree := fun _ _ => respects_onDisk_unshown _
  makeDirs := fun _ _ => respects_onDisk_unshown _
  copyStatic := fun _ _ _ => respects_onDisk_unshown _
  listFiles := fun root pattern _ _ _ h => ⟨congrArg (·.listFiles root pattern) h.disk_eq, h⟩
  readText := fun p _ _ _ h => ⟨congrArg (·.readText p) h.disk_eq, h⟩
  writeText := fun _ _ _ => respects_onDisk_unshown _
  startOptimizing := fun _ _ _ h => h.startOptimizing
  closeOptimizer := fun _ _ h => h.change h.unfiled h.unfiled' (fun u => { u with svgo := u.svgo.closed }) rfl rfl
  format := by
    intro source w w' h
    change (format s source w').1 = (format s source w).1 ∧ SameUnshown (format s source w).2 (format s source w').2
    unfold Workspace.format
    split
    · exact ⟨by rw [h.field_eq (·.toolbox) fun _ => rfl], h.change h.unfiled h.unfiled' (·.started _) rfl rfl⟩
    · exact ⟨rfl, h⟩
  log := fun record _ _ h => h.log record

/-- A build does the same whatever is shown. -/
theorem SameUnshown.build (h : SameUnshown w w') (s : Settings) :
    (w'.build s).1 = (w.build s).1 ∧ SameUnshown (w.build s).2 (w'.build s).2 := by
  let svgo := Tool.Svgo.new (some s.optimizer.executable) s.optimizer.plugins
  have hrespect := collaborators_unshown s svgo w.toolbox
  have hstart : SameUnshown { w with svgo } { w' with svgo } :=
    h.change h.unfiled h.unfiled' (fun u => { u with svgo }) rfl rfl
  have hends : Matches (fun _ => False) SameUnshown (runBuild (collaborators s svgo w.toolbox) s { w with svgo })
      (runBuild (collaborators s svgo w.toolbox) s { w' with svgo }) :=
    hrespect.build Schedule.run fun record => hrespect.prepare.ends _ _ ⟨hstart.log record, rfl⟩
  have hsame : collaborators s svgo w'.toolbox = collaborators s svgo w.toolbox := by
    rw [h.field_eq (·.toolbox) fun _ => rfl]
  change (runBuild (collaborators s svgo w'.toolbox) s { w' with svgo }).1 =
      (runBuild (collaborators s svgo w.toolbox) s { w with svgo }).1 ∧
    SameUnshown (runBuild (collaborators s svgo w.toolbox) s { w with svgo }).2.world
      (runBuild (collaborators s svgo w'.toolbox) s { w' with svgo }).2.world
  rw [hsame]
  rcases hends with ⟨_, -, hfalse⟩ | ⟨hanswer, hafter, -⟩
  · exact hfalse.elim
  · exact ⟨hanswer, hafter⟩

end IconForge.Workspace
