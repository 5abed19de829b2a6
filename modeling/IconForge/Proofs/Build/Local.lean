import IconForge.Proofs.Build.Preserve
import IconForge.Workspace.Build

/-!
# Builds on a disk

Collaborators are local when a world holds a disk that their file operations work on as the disk does, and that nothing else changes
(`Collaborators.Local`): those of a workspace that keeps no log file are (`workspace_local`), and so are a disk's own. What
such a build does to its disk is told by its exchanges: they can be replayed (`Collaborators.Local.replays`).
-/

namespace IconForge.Build

variable {σ α : Type}

/-- Copies a static directory into a directory of a disk; without one, the files that come with the program. -/
def copyStaticOf (source? : Option Path) (target : Path) (d : Disk) : Except Fault Unit × Disk :=
  match source? with
  | some source => d.copyStatic source target
  | none => d.copyFiles Workspace.staticSource Component.staticFiles target

/-- An operation on worlds that does to their disks what an operation on disks does. -/
def Mirrors (disk : σ → Disk) (Ready : σ → Prop) (operation : σ → Except Fault α × σ) (onDisk : Disk → Except Fault α × Disk) : Prop :=
  ∀ w, Ready w → (operation w).1 = (onDisk (disk w)).1 ∧ disk (operation w).2 = (onDisk (disk w)).2 ∧ Ready (operation w).2

/-- A change of worlds that leaves their disks alone. -/
def Leaves (disk : σ → Disk) (Ready : σ → Prop) (change : σ → σ) : Prop := ∀ w, Ready w → disk (change w) = disk w ∧ Ready (change w)

/-- Collaborators whose file operations work on the disk of a world, which nothing else changes, as long as the world is ready. -/
structure Collaborators.Local (c : Collaborators σ) (disk : σ → Disk) (Ready : σ → Prop) : Prop where
  removeTree : ∀ p, Mirrors disk Ready (c.removeTree p) (·.removeTree p)
  makeDirs : ∀ p, Mirrors disk Ready (c.makeDirs p) (·.makeDirs p)
  copyStatic : ∀ source? target, Mirrors disk Ready (c.copyStatic source? target) (copyStaticOf source? target)
  listFiles : ∀ root pattern, Mirrors disk Ready (c.listFiles root pattern) fun d => (d.listFiles root pattern, d)
  readText : ∀ p, Mirrors disk Ready (c.readText p) fun d => (d.readText p, d)
  writeText : ∀ p text, Mirrors disk Ready (c.writeText p text) (·.writeText p text)
  startOptimizing : ∀ markup, Leaves disk Ready (c.startOptimizing markup)
  closeOptimizer : Leaves disk Ready c.closeOptimizer
  format : ∀ source, Leaves disk Ready fun w => (c.format source w).2
  log : ∀ record, Leaves disk Ready (c.log record)

/-! ## Local collaborators -/

/-- A disk by itself: the optimizer and the formatter leave every text as it is, and nothing is logged. -/
def onDiskOnly : Collaborators Disk :=
  { removeTree := fun p d => d.removeTree p
    makeDirs := fun p d => d.makeDirs p
    copyStatic := copyStaticOf
    listFiles := fun root pattern d => (d.listFiles root pattern, d)
    readText := fun p d => (d.readText p, d)
    writeText := fun p text d => d.writeText p text
    optimize := fun _ markup => ⟨0, .ok markup⟩
    startOptimizing := fun _ d => d
    closeOptimizer := id
    format := fun source d => (.ok source, d)
    log := fun _ d => d }

/-- The collaborators of a bare disk are local: the disk is all that they have. -/
theorem onDiskOnly_local : onDiskOnly.Local id fun _ => True where
  removeTree := fun _ _ _ => ⟨rfl, rfl, trivial⟩
  makeDirs := fun _ _ _ => ⟨rfl, rfl, trivial⟩
  copyStatic := fun _ _ _ _ => ⟨rfl, rfl, trivial⟩
  listFiles := fun _ _ _ _ => ⟨rfl, rfl, trivial⟩
  readText := fun _ _ _ => ⟨rfl, rfl, trivial⟩
  writeText := fun _ _ _ _ => ⟨rfl, rfl, trivial⟩
  startOptimizing := fun _ _ _ => ⟨rfl, trivial⟩
  closeOptimizer := fun _ _ => ⟨rfl, trivial⟩
  format := fun _ _ _ => ⟨rfl, trivial⟩
  log := fun _ _ _ => ⟨rfl, trivial⟩

/-- A workspace that keeps no log file. -/
def Unfiled (w : Workspace) : Prop := w.setup?.bind (·.file?) = none

/-- Without a log file nothing is waiting to be written. -/
theorem settled_of_unfiled {w : Workspace} (h : Unfiled w) : w.settled = w := by
  obtain ⟨disk, homes, readers, toolbox, now, place, setup?, console, runs, svgo⟩ := w
  rcases setup? with _ | ⟨detail, _ | l⟩
  · rfl
  · rfl
  · cases h

/-- An operation on the disk changes nothing else, but that the log file may be given up. -/
theorem onDisk_eq (operation : Disk → Except Fault α × Disk) (w : Workspace) :
    ∃ setup?, Workspace.onDisk operation w = ((operation w.disk).1, { w with disk := (operation w.disk).2, setup? }) := by
  have hsettled : ∀ w : Workspace, ∃ setup?, w.settled = { w with setup? } := by
    intro w
    unfold Workspace.settled
    split
    · split
      · exact ⟨w.setup?, rfl⟩
      · exact ⟨_, rfl⟩
    · exact ⟨w.setup?, rfl⟩
  obtain ⟨setup?, h⟩ := hsettled { w with disk := (operation w.disk).2 }
  exact ⟨setup?, congrArg (Prod.mk _) h⟩

/-- Logging leaves what it leaves wherever a record goes. -/
theorem log_keeps {field : Workspace → α} (hkeep : ∀ record w sink, field (Workspace.keep record w sink) = field w) (record : Log.Record)
    (w : Workspace) : field (w.log record) = field w := by
  have hall : ∀ (sinks : List Log.Sink) (w : Workspace), field (sinks.foldl (Workspace.keep record) w) = field w := by
    intro sinks
    induction sinks with
    | nil => exact fun _ => rfl
    | cons sink rest ih => exact fun w => (ih _).trans (hkeep record w sink)
  unfold Workspace.log
  split
  · exact hall _ w
  · rfl

/-- Without a log file an operation of the workspace is the operation of its disk. -/
theorem onDisk_of_unfiled (operation : Disk → Except Fault α × Disk) {w : Workspace} (h : Unfiled w) :
    Workspace.onDisk operation w = ((operation w.disk).1, { w with disk := (operation w.disk).2 }) := by
  have hsettled : (Workspace.settled { w with disk := (operation w.disk).2 }) = { w with disk := (operation w.disk).2 } :=
    settled_of_unfiled h
  exact congrArg (Prod.mk _) hsettled

/-- An operation of the workspace does to its disk what the operation does to a disk. -/
theorem onDisk_mirrors (operation : Disk → Except Fault α × Disk) :
    Mirrors (·.disk) Unfiled (Workspace.onDisk operation) operation := by
  intro w hw
  rw [onDisk_of_unfiled operation hw]
  exact ⟨rfl, rfl, hw⟩

/-- Where no log file is kept, logging changes nothing but what the console shows. -/
theorem log_of_unfiled (record : Log.Record) {w : Workspace} (h : Unfiled w) : ∃ console, w.log record = { w with console } := by
  have hsinks : Log.sinks w.setup? = [.console] := by rw [Log.sinks, h]; rfl
  unfold Workspace.log
  split
  · rw [hsinks]
    exact ⟨_, rfl⟩
  · exact ⟨w.console, rfl⟩

/-- A record that no file takes leaves the disk as it is. -/
theorem log_leaves (record : Log.Record) : Leaves (·.disk) Unfiled (Workspace.log record) := by
  intro w hw
  obtain ⟨console, heq⟩ := log_of_unfiled record hw
  rw [heq]
  exact ⟨rfl, hw⟩

theorem noteOptimizer_leaves (message : String) : Leaves (·.disk) Unfiled (Workspace.noteOptimizer message) := log_leaves _

/-- The collaborators of a workspace that keeps no log file are local. -/
theorem workspace_local (s : Settings) (svgo : Tool.Svgo) (toolbox : Toolbox) :
    (Workspace.collaborators s svgo toolbox).Local (·.disk) Unfiled where
  removeTree := fun _ => onDisk_mirrors _
  makeDirs := fun _ => onDisk_mirrors _
  copyStatic := fun _ _ => onDisk_mirrors _
  listFiles := fun _ _ _ hw => ⟨rfl, rfl, hw⟩
  readText := fun _ _ hw => ⟨rfl, rfl, hw⟩
  writeText := fun _ _ => onDisk_mirrors _
  startOptimizing := by
    intro markup w hw
    have hopen : ∀ w, Unfiled w → ∀ svgo message arguments,
        let w' := (Workspace.noteOptimizer message { w with svgo }).started arguments
        w'.disk = w.disk ∧ Unfiled w' := fun w hw svgo message arguments => noteOptimizer_leaves message { w with svgo } hw
    change (Workspace.startOptimizing w).disk = w.disk ∧ Unfiled (Workspace.startOptimizing w)
    unfold Workspace.startOptimizing
    split
    · exact hopen w hw _ _ _
    · obtain ⟨hdisk, hw'⟩ := noteOptimizer_leaves ("Wrote svgo config to " ++ w.svgoPlace) w hw
      obtain ⟨hdisk', hw''⟩ := hopen _ hw' _ _ _
      exact ⟨hdisk'.trans hdisk, hw''⟩
  closeOptimizer := fun _ hw => ⟨rfl, hw⟩
  format := by
    intro source w hw
    change (Workspace.format s source w).2.disk = w.disk ∧ Unfiled (Workspace.format s source w).2
    unfold Workspace.format
    split
    · exact ⟨rfl, hw⟩
    · exact ⟨rfl, hw⟩
  log := log_leaves

/-! ## What a build does to its disk -/

/-- The answer of an operation on a disk as a reply. -/
def replied (reply : α → Reply) (x : Except Fault α × Disk) : Except Fault Reply × Disk := (x.1.map reply, x.2)

/-- What a disk makes of a call. -/
def perform (d : Disk) : Call → Except Fault Reply × Disk
  | .remove p => replied done (d.removeTree p)
  | .makeDirs p => replied done (d.makeDirs p)
  | .copy source? target => replied done (copyStaticOf source? target d)
  | .list root pattern => replied .files (d.listFiles root pattern, d)
  | .read p => replied .text (d.readText p, d)
  | .write p content => replied done (d.writeText p content)

/-- A call that a build makes once its output has been prepared. -/
inductive LaterCall (st : Settings) : Call → Prop where
  | list : LaterCall st (.list st.inputDir st.pattern)
  | read (path : Path) : LaterCall st (.read path)
  | component {name : String} (h : Component.isUsable name = true) (content : String) :
      LaterCall st (.write (componentTarget st name) content)
  | index (content : String) : LaterCall st (.write (indexTarget st) content)

/-- A property of a disk and of the exchanges so far that holds in a world that is ready. -/
def Holds (disk : σ → Disk) (Ready : σ → Prop) (J : Disk → List Exchange → Prop) (s : Session σ) : Prop :=
  Ready s.world ∧ J (disk s.world) s.exchanges

section
variable {disk : σ → Disk} {Ready : σ → Prop} {J : Disk → List Exchange → Prop} {c : Collaborators σ} {st : Settings}

/-- What a local call does to the disk and to the exchanges. -/
theorem exec_local_call {operation : σ → Except Fault α × σ} {onDisk : Disk → Except Fault α × Disk}
    (h : Mirrors disk Ready operation onDisk) {s : Session σ} (hs : Ready s.world) (request : Call) (reply : α → Reply)
    (expected : FaultKind → Bool) (error : String → BuildError) :
    let t := (exec (call request reply operation expected error) s).2
    Ready t.world ∧ disk t.world = (onDisk (disk s.world)).2 ∧
      t.exchanges = s.exchanges ++ [⟨request, (replied reply (onDisk (disk s.world))).1⟩] := by
  obtain ⟨hanswer, hdisk, hready⟩ := h s.world hs
  rw [exec_call]
  exact ⟨hready, hdisk, by simp only [hanswer]; rfl⟩

/-- A local call preserves what the disk does. -/
theorem preserves_local_call {operation : σ → Except Fault α × σ} {onDisk : Disk → Except Fault α × Disk}
    (h : Mirrors disk Ready operation onDisk) {request : Call} {reply : α → Reply} {expected : FaultKind → Bool}
    {error : String → BuildError}
    (hJ : ∀ d es, J d es → J (replied reply (onDisk d)).2 (es ++ [⟨request, (replied reply (onDisk d)).1⟩])) :
    Preserves (Holds disk Ready J) (call request reply operation expected error) := by
  intro s ⟨hs, hd⟩
  obtain ⟨hready, hdisk, hex⟩ := exec_local_call h hs request reply expected error
  refine ⟨hready, ?_⟩
  rw [hdisk, hex]
  exact hJ _ _ hd

/-- A change of the world that leaves the disk alone preserves what holds of it. -/
theorem Holds.leaves {change : σ → σ} (h : Leaves disk Ready change) {s t : Session σ} (hs : Holds disk Ready J s)
    (hworld : t.world = change s.world) (hex : t.exchanges = s.exchanges) : Holds disk Ready J t := by
  obtain ⟨hdisk, hready⟩ := h s.world hs.1
  rw [Holds, hworld, hdisk, hex]
  exact ⟨hready, hs.2⟩

theorem Leaves.comp {f g : σ → σ} (hf : Leaves disk Ready f) (hg : Leaves disk Ready g) : Leaves disk Ready fun w => g (f w) := by
  intro w hw
  obtain ⟨hdisk, hready⟩ := hf w hw
  obtain ⟨hdisk', hready'⟩ := hg _ hready
  exact ⟨hdisk'.trans hdisk, hready'⟩

theorem Leaves.foldl {β : Type} {f : σ → β → σ} (h : ∀ x, Leaves disk Ready fun w => f w x) (xs : List β) :
    Leaves disk Ready fun w => xs.foldl f w := by
  induction xs with
  | nil => exact fun _ hw => ⟨rfl, hw⟩
  | cons x xs ih => exact (h x).comp ih

/-- A local build keeps what holds of its disk and of its exchanges once the output has been prepared, if the calls that come behind
preserve it. -/
theorem Collaborators.Local.build (hc : c.Local disk Ready) {s : Session σ}
    (hprepare : ∀ record, Holds disk Ready J (exec (prepare c st) { s with world := c.log record s.world }).2)
    (hlater : ∀ request, LaterCall st request → ∀ d es, J d es → J (perform d request).2 (es ++ [⟨request, (perform d request).1⟩]))
    (run : Nat → List Schedule.Job → Schedule.State) : Holds disk Ready J (exec (build run c st) s).2 := by
  refine Preserves.build hprepare ?note ?list ?read ?optimize ?format ?write ?index
  case note => exact fun level message s hs => hs.leaves (hc.log _) rfl rfl
  case list => exact preserves_local_call (hc.listFiles _ _) fun d es hd => hlater _ .list d es hd
  case read => exact fun icon => preserves_local_call (hc.readText _) fun d es hd => hlater _ (.read icon.path) d es hd
  case optimize =>
    intro icons markups s hs
    rw [exec_optimizeIcons]
    exact hs.leaves ((Leaves.foldl (fun markup => hc.startOptimizing markup) _).comp hc.closeOptimizer) rfl rfl
  case format =>
    intro icon source s hs
    rw [exec_formatSource]
    exact hs.leaves (hc.format source) rfl rfl
  case write =>
    exact fun name hname content => preserves_local_call (hc.writeText _ _) fun d es hd => hlater _ (.component hname content) d es hd
  case index => exact fun content => preserves_local_call (hc.writeText _ _) fun d es hd => hlater _ (.index content) d es hd

end

/-! ## Replays -/

/-- Exchanges that lead from one disk to another one, every answer being that of the disk. -/
def Replays (d : Disk) : List Exchange → Disk → Prop
  | [], d' => d' = d
  | x :: rest, d' => x.answer = (perform d x.call).1 ∧ Replays (perform d x.call).2 rest d'

/-- Calls are replayed in two parts as they are in one. -/
theorem replays_append {d d' : Disk} {es es' : List Exchange} :
    Replays d (es ++ es') d' ↔ ∃ d₁, Replays d es d₁ ∧ Replays d₁ es' d' := by
  induction es generalizing d with
  | nil => simp [Replays]
  | cons x es ih => simp [Replays, ih, and_assoc]

/-- One more call is replayed on the disk behind the calls before it. -/
theorem Replays.concat {d d' : Disk} {es : List Exchange} (h : Replays d es d') (request : Call) :
    Replays d (es ++ [⟨request, (perform d' request).1⟩]) (perform d' request).2 :=
  replays_append.mpr ⟨d', h, rfl, rfl⟩

/-- The exchanges of a local build lead from the disk at its start to the one at its end. -/
theorem Collaborators.Local.replays {disk : σ → Disk} {Ready : σ → Prop} {c : Collaborators σ} (hc : c.Local disk Ready) {st : Settings}
    {run : Nat → List Schedule.Job → Schedule.State} {world : σ} (hready : Ready world) {r : Except Failure Result} {session : Session σ}
    (h : runBuildBy run c st world = (r, session)) : Replays (disk world) session.exchanges (disk session.world) := by
  have hprepare : Preserves (Holds disk Ready fun d es => Replays (disk world) es d) (prepare c st) :=
    (preserves_local_call (hc.removeTree _) fun d es hd => hd.concat (.remove _)).bind fun _ =>
      (preserves_local_call (hc.makeDirs _) fun d es hd => hd.concat (.makeDirs _)).bind fun _ =>
        preserves_local_call (hc.copyStatic _ _) fun d es hd => hd.concat (.copy _ _)
  have hstart : Holds disk Ready (fun d es => Replays (disk world) es d) { world } := ⟨hready, rfl⟩
  have hend : Holds disk Ready (fun d es => Replays (disk world) es d) (exec (Build.build run c st) { world }).2 :=
    hc.build (fun record => hprepare _ (hstart.leaves (hc.log record) rfl rfl)) (fun request _ d es hd => hd.concat request) run
  have hrun : exec (Build.build run c st) { world } = (r, session) := h
  rw [hrun] at hend
  exact hend.2

end IconForge.Build
