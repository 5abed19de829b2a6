import IconForge.Proofs.Build.Optimizer
import IconForge.Proofs.Tool.Bench

/-!
# The optimizer of a build

A build that has its own optimizer starts all children one after the other and then closes it, and it does so also when it fails. To see
this, the optimizer is put beside the world of the build (`AtBench`), with the children that are started for it; the build does not
notice (`Tracks`). Behind it no settings file is there any more, and all its children were told of the same one (`settings_file_lifecycle`).
-/

namespace IconForge.Build

open Tool

variable {σ α β : Type}

/-- A world with an optimizer beside it, and the children that have been started. -/
structure AtBench (σ : Type) where
  world : σ
  bench : Bench
  children : List Child := []

/-- An operation on the world, which leaves the optimizer alone. -/
def AtBench.beside (operation : σ → α × σ) (w : AtBench σ) : α × AtBench σ :=
  ((operation w.world).1, { w with world := (operation w.world).2 })

/-- What a build works with, with its optimizer beside its world. -/
def Collaborators.atBench (place : Nat → String) (c : Collaborators σ) : Collaborators (AtBench σ) :=
  { removeTree := fun p => AtBench.beside (c.removeTree p)
    makeDirs := fun p => AtBench.beside (c.makeDirs p)
    copyStatic := fun source? p => AtBench.beside (c.copyStatic source? p)
    listFiles := fun root pattern => AtBench.beside (c.listFiles root pattern)
    readText := fun p => AtBench.beside (c.readText p)
    writeText := fun p text => AtBench.beside (c.writeText p text)
    optimize := c.optimize
    startOptimizing := fun markup w =>
      { world := c.startOptimizing markup w.world
        bench := w.bench.ready place
        children := w.children ++ [(w.bench.ready place).child place markup] }
    closeOptimizer := fun w => { w with world := c.closeOptimizer w.world, bench := w.bench.close place }
    format := fun source => AtBench.beside (c.format source)
    log := fun r w => { w with world := c.log r w.world } }

/-- A session without the optimizer beside its world. -/
def Session.plain (s : Session (AtBench σ)) : Session σ := { s with world := s.world.world }

/-! ## Forgetting the optimizer -/

/-- A part of a build goes on like another one that knows nothing of the optimizer. -/
def Tracks (m' : BuildM (AtBench σ) α) (m : BuildM σ α) : Prop := ∀ s, exec m s.plain = ((exec m' s).1, (exec m' s).2.plain)

namespace Tracks

theorem pure (a : α) : Tracks (Pure.pure a : BuildM (AtBench σ) α) (Pure.pure a) := fun _ => rfl

theorem throw (e : Failure) : Tracks (MonadExcept.throw e : BuildM (AtBench σ) α) (MonadExcept.throw e) := fun _ => rfl

/-- What two parts do alike, and what comes behind their common answer, they do alike together. -/
theorem bind {m' : BuildM (AtBench σ) α} {m : BuildM σ α} {f' : α → BuildM (AtBench σ) β} {f : α → BuildM σ β} (h : Tracks m' m)
    (hf : ∀ a, Tracks (f' a) (f a)) : Tracks (m' >>= f') (m >>= f) := by
  intro s
  have hm := h s
  cases hr : exec m' s with
  | mk r t =>
    rw [hr] at hm
    cases r with
    | ok a =>
      rw [exec_bind_of_ok hr, exec_bind_of_ok hm]
      exact hf a t
    | error e => rw [exec_bind_of_error hr, exec_bind_of_error hm]

/-- A call on the world beside the optimizer is the call on the world alone. -/
theorem call (request : Call) (reply : α → Reply) (operation : σ → Except Fault α × σ) (expected : FaultKind → Bool)
    (error : String → BuildError) :
    Tracks (call request reply (AtBench.beside operation) expected error) (call request reply operation expected error) := by
  intro s
  rw [exec_call, exec_call]
  rfl

end Tracks

section
variable (place : Nat → String) (c : Collaborators σ) (st : Settings)

theorem tracks_note (level : Int) (message : String) : Tracks (note (c.atBench place) level message) (note c level message) :=
  fun _ => rfl

theorem tracks_prepare : Tracks (prepare (c.atBench place) st) (prepare c st) :=
  (Tracks.call _ _ _ _ _).bind fun _ => (Tracks.call _ _ _ _ _).bind fun _ => Tracks.call _ _ _ _ _

/-- The discovery lists files and rejects names, neither of which needs the optimizer. -/
theorem tracks_discover : Tracks (discover (c.atBench place) st) (discover c st) := by
  refine (Tracks.call _ _ _ _ _).bind fun paths => ?_
  cases checkNames st.naming [] paths with
  | ok icons => exact .pure icons
  | error e => exact .throw _

theorem tracks_readIcons (icons : List Icon) : Tracks (readIcons (c.atBench place) icons) (readIcons c icons) := by
  induction icons with
  | nil => exact .pure []
  | cons icon rest ih => exact (Tracks.call _ _ _ _ _).bind fun _ => ih.bind fun _ => .pure _

/-- The stages before the optimization leave the optimizer alone. -/
theorem tracks_gather : Tracks (gather (c.atBench place) st) (gather c st) :=
  (tracks_note place c _ _).bind fun _ => (tracks_prepare place c st).bind fun _ => (tracks_discover place c st).bind fun icons =>
    (tracks_readIcons place c icons).bind fun _ => (tracks_note place c _ _).bind fun _ => .pure _

/-- Starting children for some texts does to the world what it does without the optimizer beside it. -/
theorem world_startAll (markups : List String) (w : AtBench σ) :
    (markups.foldl (fun w markup => (c.atBench place).startOptimizing markup w) w).world =
      markups.foldl (fun w markup => c.startOptimizing markup w) w.world := by
  induction markups generalizing w with
  | nil => rfl
  | cons markup rest ih => exact ih _

/-- The optimization starts its children beside the world and closes their optimizer; its answers come from elsewhere. -/
theorem tracks_optimizeIcons (run : Nat → List Schedule.Job → Schedule.State) (icons : List Icon) (markups : List String) :
    Tracks (optimizeIcons run (c.atBench place) st icons markups) (optimizeIcons run c st icons markups) := by
  intro s
  rw [exec_optimizeIcons, exec_optimizeIcons]
  have hattempts : attempts (c.atBench place) icons markups = attempts c icons markups := rfl
  simp only [hattempts, Session.plain, ← world_startAll place c]
  rfl

theorem tracks_formatSource (icon : Icon) (source : String) :
    Tracks (formatSource (c.atBench place) icon source) (formatSource c icon source) := by
  intro s
  rw [exec_formatSource, exec_formatSource]
  rfl

theorem tracks_emitComponent (icon : Icon) (optimized : String) :
    Tracks (emitComponent (c.atBench place) st icon optimized) (emitComponent c st icon optimized) := by
  unfold emitComponent
  cases Component.render icon.name st.typescript optimized with
  | error cause => exact .throw _
  | ok source =>
    exact (tracks_formatSource place c icon source).bind fun _ => (Tracks.call _ _ _ _ _).bind fun _ =>
      (tracks_note place c _ _).bind fun _ => .pure _

/-- The components are written beside the optimizer, one after the other. -/
theorem tracks_emitComponents (inputs : List (Icon × String)) :
    Tracks (emitComponents (c.atBench place) st inputs) (emitComponents c st inputs) := by
  induction inputs with
  | nil => exact .pure []
  | cons input rest ih => exact (tracks_emitComponent place c st input.1 input.2).bind fun _ => ih.bind fun _ => .pure _

/-- The stages behind the optimization leave the optimizer alone. -/
theorem tracks_publish (icons : List Icon) (optimized : List String) :
    Tracks (publish (c.atBench place) st icons optimized) (publish c st icons optimized) :=
  (tracks_emitComponents place c st _).bind fun _ => (Tracks.call _ _ _ _ _).bind fun _ => (tracks_note place c _ _).bind fun _ => .pure _

/-- A build does not notice the optimizer beside its world. -/
theorem tracks_build (run : Nat → List Schedule.Job → Schedule.State) : Tracks (build run (c.atBench place) st) (build run c st) :=
  (tracks_gather place c st).bind fun found => (tracks_optimizeIcons place c st run found.1 found.2).bind fun optimized =>
    tracks_publish place c st found.1 optimized

end

/-! ## The optimizer beside a build -/

section
variable {place : Nat → String} {c : Collaborators σ} {st : Settings} {b : Bench} {svgo : Svgo}

/-- A part of a build that leaves the optimizer alone. -/
def Unused (b : Bench) (children : List Child) (s : Session (AtBench σ)) : Prop :=
  s.world.bench = b ∧ s.world.children = children

/-- Nothing is optimized before all icons have been read. -/
theorem gather_unused (children : List Child) : Preserves (Unused b children) (gather (c.atBench place) st) :=
  Preserves.gather (fun _ _ _ h => h)
    ((Preserves.call fun _ h _ => h).bind fun _ => (Preserves.call fun _ h _ => h).bind fun _ => Preserves.call fun _ h _ => h)
    (Preserves.call fun _ h _ => h) fun _ => Preserves.call fun _ h _ => h

/-- Nothing is optimized once components are written. -/
theorem publish_unused (children : List Child) (icons : List Icon) (optimized : List String) :
    Preserves (Unused b children) (publish (c.atBench place) st icons optimized) := by
  refine Preserves.publish (fun _ _ _ h => h) (fun icon source s h => ?_) (fun _ _ _ => Preserves.call fun _ h _ => h)
    (fun _ => Preserves.call fun _ h _ => h) optimized
  rw [exec_formatSource]
  exact h

/-- All children that are started one after the other are told of the same settings file. -/
theorem startAll (markups : List String) (w : AtBench σ) (hw : Bench.Sound place svgo w.bench) :
    let w' := markups.foldl (fun w markup => (c.atBench place).startOptimizing markup w) w
    Bench.Sound place svgo w'.bench ∧
      w'.children = w.children ++ markups.map (Bench.childOf svgo ((w.bench.ready place).config place)) := by
  induction markups generalizing w with
  | nil => exact ⟨hw, by simp⟩
  | cons markup rest ih =>
    obtain ⟨hsound, hchildren⟩ := ih ((c.atBench place).startOptimizing markup w) hw.ready
    have hready : ((c.atBench place).startOptimizing markup w).bench.ready place = w.bench.ready place := Bench.ready_ready place _
    have hfirst : ((c.atBench place).startOptimizing markup w).children =
        w.children ++ [Bench.childOf svgo ((w.bench.ready place).config place) markup] := by
      rw [← hw.child_eq]
      rfl
    refine ⟨hsound, ?_⟩
    rw [List.foldl_cons, hchildren, hready, hfirst, List.append_assoc, List.singleton_append, List.map_cons]

/-- Behind the optimizations of a build the settings file is gone, and the children are those that were called for, told of one file. -/
theorem optimizeIcons_closes (hb : Bench.Sound place svgo b) (run : Nat → List Schedule.Job → Schedule.State) (icons : List Icon)
    (markups : List String) {s t : Session (AtBench σ)} {r : Except Failure (List String)} (hs : Unused b [] s)
    (h : exec (optimizeIcons run (c.atBench place) st icons markups) s = (r, t)) :
    t.world.bench.files = [] ∧ t.world.children = t.optimizerCalls.map (Bench.childOf svgo ((b.ready place).config place)) := by
  obtain ⟨-, -, hsub, hhist⟩ := optimizeIcons_keeps h
  have hcalls := optimizerCalls_eq hsub hhist
  rw [exec_optimizeIcons] at h
  obtain ⟨rfl, hnone⟩ := hs
  obtain ⟨hsound, hchildren⟩ := startAll t.optimizerCalls s.world hb
  rw [hcalls] at hsound hchildren
  cases h
  refine ⟨?_, ?_⟩
  · have hclosed := hsound.close.files
    rw [Bench.svgo_close, Svgo.closed, if_neg Bool.false_ne_true] at hclosed
    exact hclosed
  · rw [hcalls]
    exact hchildren.trans (by rw [hnone, List.nil_append])

/-- A build leaves no settings file behind, whatever its outcome, and tells all its children of the same one. -/
theorem build_closes (hb : Bench.Sound place svgo b) (hfiles : b.files = []) (run : Nat → List Schedule.Job → Schedule.State) (world : σ) :
    let session := (runBuildBy run (c.atBench place) st ⟨world, b, []⟩).2
    session.world.bench.files = [] ∧
      session.world.children = session.optimizerCalls.map (Bench.childOf svgo ((b.ready place).config place)) := by
  change let session := (exec (build run (c.atBench place) st) ⟨⟨world, b, []⟩, [], [], [], []⟩).2
    session.world.bench.files = [] ∧ session.world.children = session.optimizerCalls.map _
  have hunused : Unused b [] (⟨⟨world, b, []⟩, [], [], [], []⟩ : Session (AtBench σ)) := ⟨rfl, rfl⟩
  unfold build
  cases hg : exec (gather (c.atBench place) st) ⟨⟨world, b, []⟩, [], [], [], []⟩ with
  | mk gathered s =>
    have hs := @gather_unused σ place c st b [] _ hunused
    have hnothing := @gather_unrecorded _ (c.atBench place) st ⟨⟨world, b, []⟩, [], [], [], []⟩ ⟨rfl, rfl⟩
    rw [hg] at hs hnothing
    cases gathered with
    | error e =>
      rw [exec_bind_of_error hg]
      refine ⟨hs.1 ▸ hfiles, ?_⟩
      rw [hs.2, Session.optimizerCalls, hnothing.1]
      rfl
    | ok found =>
      rw [exec_bind_of_ok hg]
      cases ho : exec (optimizeIcons run (c.atBench place) st found.1 found.2) s with
      | mk optimized t =>
        obtain ⟨hclosed, hchildren⟩ := optimizeIcons_closes hb run found.1 found.2 hs ho
        cases optimized with
        | error e =>
          rw [exec_bind_of_error ho]
          exact ⟨hclosed, hchildren⟩
        | ok texts =>
          rw [exec_bind_of_ok ho]
          obtain ⟨hbench, hkept⟩ := @publish_unused σ place c st t.world.bench t.world.children found.1 texts t ⟨rfl, rfl⟩
          obtain ⟨hhistory, hsubmitted⟩ := publish_keeps_record (c.atBench place) st found.1 texts t
          refine ⟨?_, ?_⟩
          · rw [hbench]
            exact hclosed
          · rw [hkept, hchildren, Session.optimizerCalls, Session.optimizerCalls, hhistory, hsubmitted]

end

/-- However an optimizer is used, it has one settings file if a child has been started since it was closed last, and none otherwise; each
child is told by `--config` of a settings file that is there, with the text that the optimizer tells all along, and two children are told
of the same one exactly if the optimizer has not been closed between them. A build that has its own optimizer leaves no settings file
behind, whatever its outcome, and has told all its children of the same one. -/
theorem settings_file_lifecycle {place : Nat → String} (hplace : Function.Injective place) (executable? : Option String)
    (plugins : List String) :
    let b := Bench.new executable? plugins
    let source := b.svgo.configSource
    (∀ us, (b.after place us).files.length ≤ 1 ∧
      ((b.after place us).files ≠ [] ↔ ∃ markup course, .optimize markup course ∈ Bench.sinceClose us) ∧
      (b.after place us).svgo.configSource = source) ∧
    (∀ us u child, ((b.after place us).use place u).1.child? = some child →
      child.arguments = [b.svgo.executable, "--input", "-", "--output", "-", "--config", child.config] ∧
      child.settings? = some source ∧ (b.after place (us ++ [u])).files = [(child.config, source)]) ∧
    (∀ us first between second child child', ((b.after place us).use place first).1.child? = some child →
      ((b.after place (us ++ first :: between)).use place second).1.child? = some child' →
        (child.config = child'.config ↔ .close ∉ between)) ∧
    ∀ (σ : Type) (c : Collaborators σ) (run : Nat → List Schedule.Job → Schedule.State) (st : Settings) (world : σ),
      let built := runBuildBy run (c.atBench place) st ⟨world, b, []⟩
      runBuildBy run c st world = (built.1, built.2.plain) ∧ built.2.world.bench.files = [] ∧
      built.2.world.children.map (·.input) = built.2.optimizerCalls ∧
      ∀ child ∈ built.2.world.children, child.config = place 0 ∧
        child.arguments = [b.svgo.executable, "--input", "-", "--output", "-", "--config", child.config] ∧
        child.settings? = some source := by
  intro b source
  have hnew : Bench.Sound place b.svgo b := Bench.sound_new place executable? plugins
  refine ⟨fun us => ⟨(hnew.after us).length_files_le, ?_, (hnew.after us).configSource_eq⟩, ?_, ?_, ?_⟩
  · rw [(hnew.after us).files_ne_nil_iff]
    exact Bench.isOpen_after_iff rfl us
  · intro us u child hchild
    obtain ⟨markup, course, rfl, rfl⟩ := (hnew.after us).of_child hchild
    refine ⟨rfl, rfl, ?_⟩
    have hfiles := (hnew.after us).ready.files
    rw [Bench.svgo_ready, Bench.isOpen_opened, if_pos rfl] at hfiles
    rw [Bench.after_append]
    exact hfiles
  · intro us first between second child child' hfirst hsecond
    rw [Bench.after_append] at hsecond
    exact (hnew.after us).config_eq_iff hplace between hfirst hsecond
  · intro σ c run st world built
    have hplain := tracks_build place c st run ⟨⟨world, b, []⟩, [], [], [], []⟩
    obtain ⟨hfiles, hchildren⟩ := @build_closes σ place c st b b.svgo hnew rfl run world
    refine ⟨hplain, hfiles, ?_, fun child hchild => ?_⟩
    · rw [hchildren, List.map_map]
      exact List.map_id _
    · rw [hchildren, List.mem_map] at hchild
      obtain ⟨markup, -, rfl⟩ := hchild
      exact ⟨rfl, rfl, rfl⟩

/-- Places of settings files in directories whose names grow. -/
def growingPlace (i : Nat) : String := "/tmp/iconbuild-svgo-" ++ String.ofList (List.replicate i 'i') ++ "/svgo.config.js"

theorem growingPlace_injective : Function.Injective growingPlace := by
  intro i j h
  unfold growingPlace at h
  have hlength := congrArg String.length h
  simp only [String.length_append, String.length_ofList, List.length_replicate] at hlength
  omega

/-- A child that is not found, and one that is started behind a closing and cancelled, are told of different settings files. The second of
them is still there. -/
theorem settings_file_lifecycle_reopened :
    let b := Bench.new none []
    let missing := Use.optimize "<svg/>" (.ended .missing)
    let cancelled := Use.optimize "<svg/>" (.cancelled none)
    Function.Injective growingPlace ∧ (b.after growingPlace [missing, .close]).files = [] ∧
      (b.after growingPlace [missing, .close, cancelled]).files.length = 1 ∧
      ∀ child child', (b.use growingPlace missing).1.child? = some child →
        ((b.after growingPlace [missing, .close]).use growingPlace cancelled).1.child? = some child' → child.config ≠ child'.config := by
  intro b missing cancelled
  obtain ⟨hfiles, -, hchildren, -⟩ := settings_file_lifecycle growingPlace_injective none []
  obtain ⟨-, hclosed, -⟩ := hfiles [missing, .close]
  obtain ⟨hle, hopen, -⟩ := hfiles [missing, .close, cancelled]
  refine ⟨growingPlace_injective, ?_, ?_, ?_⟩
  · by_contra hne
    obtain ⟨markup, course, hmem⟩ := hclosed.mp hne
    cases hmem
  · have hne := hopen.mpr ⟨"<svg/>", .cancelled none, List.mem_cons_self⟩
    exact Nat.le_antisymm hle (List.length_pos_iff.mpr hne)
  · intro child child' hfirst hsecond hsame
    exact (hchildren [] missing [.close] cancelled child child' hfirst hsecond).mp hsame List.mem_cons_self

end IconForge.Build
