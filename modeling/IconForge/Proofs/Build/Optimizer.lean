import IconForge.Proofs.Build.Input
import IconForge.Proofs.Tool.Svgo
import IconForge.Workspace.Readers

/-!
# Children that misbehave

A build whose optimizations are the work of children ends with the icon of the first one that fails, and it goes on only if all children
have optimized. A child that ends well but writes no text is not refused: its fault ends the build as it is (`misbehaviour_surfaces`).
-/

namespace IconForge.Build

open Tool

variable {σ : Type}

/-- Every optimization is the work of a child. -/
def Collaborators.RunsChildren (c : Collaborators σ) (executable : String) (child : Nat → String → ChildRun) : Prop :=
  ∀ i markup, (c.optimize i markup).outcome = Svgo.outcome executable (child i markup)

section
variable {c : Collaborators σ} {st : Settings} {sch : Schedule.Scheduler} {world : σ} {r : Except Failure Result} {session : Session σ}

/-- Whatever becomes of the icons before they are handed to the optimizer, nothing is recorded of it. -/
theorem gather_unrecorded : Preserves (fun s => s.history = [] ∧ s.submitted = []) (gather c st) := by
  have hcall : ∀ {α : Type} (request : Call) (reply : α → Reply) (operation : σ → Except Fault α × σ) (expected : FaultKind → Bool)
      (error : String → BuildError),
      Preserves (fun s : Session σ => s.history = [] ∧ s.submitted = []) (call request reply operation expected error) :=
    fun _ _ _ _ _ => Preserves.call fun _ h _ => h
  have hnote : ∀ level message, Preserves (fun s : Session σ => s.history = [] ∧ s.submitted = []) (note c level message) :=
    fun _ _ _ h => h
  have hprepare : Preserves (fun s : Session σ => s.history = [] ∧ s.submitted = []) (prepare c st) :=
    (hcall _ _ _ _ _).bind fun _ => (hcall _ _ _ _ _).bind fun _ => hcall _ _ _ _ _
  exact Preserves.gather hnote hprepare (hcall _ _ _ _ _) fun icon => hcall _ _ _ _ _

/-- What is recorded of the optimizations stays when their texts are published. -/
theorem publish_keeps_record (c : Collaborators σ) (st : Settings) (icons : List Icon) (texts : List String) (s : Session σ) :
    (exec (publish c st icons texts) s).2.history = s.history ∧ (exec (publish c st icons texts) s).2.submitted = s.submitted := by
  have hwrite : ∀ target content, Preserves (fun t : Session σ => t.history = s.history ∧ t.submitted = s.submitted)
      (writeFile c target content) := fun _ _ => Preserves.call fun _ h _ => h
  refine Preserves.publish (fun _ _ _ h => h) (fun icon source t h => ?_) (fun _ _ => hwrite _) (hwrite _) texts s ⟨rfl, rfl⟩
  rw [exec_formatSource]
  exact h

/-- A build hands no icon to the optimizer, it ends by the first optimization that fails, or all optimizations give a text. -/
theorem optimizations_cases (h : runBuildBy sch.final c st world = (r, session)) :
    (session.submitted = [] ∧ session.failedOptimizations = []) ∨
    (∃ i rest paths path markup e, session.failedOptimizations = i :: rest ∧ session.exchanges = gathering st paths session.submitted ∧
      paths[i]? = some path ∧ session.submitted[i]? = some markup ∧ (c.optimize i markup).outcome = .error e ∧
      r = .error (e.failure (.optimize path))) ∨
    (session.failedOptimizations = [] ∧ ∃ texts : List String, outcomes c session.submitted = texts.map .ok) := by
  have hrun : exec (build sch.final c st) { world } = (r, session) := h
  unfold build at hrun
  cases hg : exec (gather c st) { world } with
  | mk gathered t =>
    have hnothing := @gather_unrecorded σ c st { world } ⟨rfl, rfl⟩
    rw [hg] at hnothing
    cases gathered with
    | error e =>
      rw [exec_bind_of_error hg] at hrun
      obtain rfl := (Prod.mk.inj hrun).2
      exact .inl ⟨hnothing.2, by rw [Session.failedOptimizations, hnothing.1]; rfl⟩
    | ok found =>
      obtain ⟨icons, markups⟩ := found
      rw [exec_bind_of_ok hg] at hrun
      obtain ⟨paths, rfl, -, hlen, hadds⟩ := gather_eq_ok hg
      cases ho : exec (optimizeIcons sch.final c st (paths.map (iconOf st.naming)) markups) t with
      | mk optimized u =>
        obtain ⟨hex, -, hsub, hhist⟩ := optimizeIcons_keeps ho
        cases optimized with
        | error e =>
          simp only [exec_bind_of_error ho, Prod.mk.injEq] at hrun
          obtain ⟨rfl, rfl⟩ := hrun
          obtain ⟨i, rest, icon, markup, e', hfailed, hicon, hmarkup, hout, rfl⟩ := optimizeIcons_eq_error ho
          obtain ⟨path, hpath, rfl⟩ := Option.map_eq_some_iff.mp (List.getElem?_map ▸ hicon)
          refine .inr (.inl ⟨i, rest, paths, path, markup, e', hfailed, ?_, hpath, hsub ▸ hmarkup, hout, rfl⟩)
          rw [hex, hsub, hadds.exchanges]
          rfl
        | ok texts =>
          simp only [exec_bind_of_ok ho] at hrun
          obtain ⟨hkeep, hkeep'⟩ := publish_keeps_record c st (paths.map (iconOf st.naming)) texts u
          simp only [hrun] at hkeep hkeep'
          obtain ⟨hall, -⟩ := optimizeIcons_eq_ok (by simpa using hlen) ho
          refine .inr (.inr ⟨?_, texts, by rw [hkeep', hsub, hall]⟩)
          have hended := sch.ended st.concurrency (jobsOf (attempts c (paths.map (iconOf st.naming)) markups))
          have hsettled : settle (attempts c (paths.map (iconOf st.naming)) markups)
              (sch.final st.concurrency (jobsOf (attempts c (paths.map (iconOf st.naming)) markups))) = .ok texts := by
            rw [exec_optimizeIcons] at ho
            exact (Prod.mk.inj ho).1
          have hnone := (failures_eq_nil_of_settle (sch.reachable _ _) st.concurrency_pos hended hsettled).1
          rw [Session.failedOptimizations, hkeep, hhist, ← hnone]
          rfl

end

/-- How a child that misbehaves shows at the end of a build: as the error of its icon, or, if it writes no text, as that fault. -/
inductive Surfaces (executable : String) (child : ChildRun) (path : Path) : Except Failure Result → Prop where
  | refused {message : String} : Failed child → Svgo.outcome executable child = .error (.refused message) →
      Surfaces executable child path (.error (.build (.optimize path message)))
  | garbled {f : Fault} : Garbled child → Svgo.outcome executable child = .error (.unexpected f) →
      Surfaces executable child path (.error (.unexpected f))

/-- An optimizer's failure is shown with the path of its icon and the words of its child. -/
theorem surfaces_of_error {executable : String} {child : ChildRun} {e : ToolFailure} (path : Path)
    (h : Svgo.outcome executable child = .error e) : Surfaces executable child path (.error (e.failure (.optimize path))) := by
  cases e with
  | refused message => exact .refused (outcome_refused_iff.mp ⟨message, h⟩) h
  | unexpected f => exact .garbled (outcome_unexpected_iff.mp ⟨f, h⟩) h

/-- The optimizer gives the text that is left of what its child has written, it refuses if the child fails, and only a child that ends
with 0 and writes no text makes it do what is not expected. In a build, if the child of any icon does not optimize, then the first
optimization that fails ends the build: with the error of its icon, or with that fault as it is. -/
theorem misbehaviour_surfaces (executable : String) :
    (∀ run, (∀ s, Svgo.outcome executable run = .ok s ↔ Optimized run s) ∧
      ((∃ message, Svgo.outcome executable run = .error (.refused message)) ↔ Failed run) ∧
      ((∃ f, Svgo.outcome executable run = .error (.unexpected f)) ↔ Garbled run)) ∧
    ∀ (σ : Type) (sch : Schedule.Scheduler) (c : Collaborators σ) (child : Nat → String → ChildRun), c.RunsChildren executable child →
      ∀ (st : Settings) (world : σ) (r : Except Failure Result) (session : Session σ), runBuildBy sch.final c st world = (r, session) →
      ∀ j markup, session.submitted[j]? = some markup → (∀ s, ¬Optimized (child j markup) s) →
        ∃ i rest paths path first, session.failedOptimizations = i :: rest ∧ session.exchanges = gathering st paths session.submitted ∧
          paths[i]? = some path ∧ session.submitted[i]? = some first ∧ Surfaces executable (child i first) path r := by
  refine ⟨fun run => ⟨fun s => outcome_eq_ok_iff, outcome_refused_iff, outcome_unexpected_iff⟩, ?_⟩
  intro σ sch c child hc st world r session h j markup hj hbad
  rcases optimizations_cases h with ⟨hnone, -⟩ | ⟨i, rest, paths, path, first, e, hfailed, hex, hpath, hfirst, hout, rfl⟩ |
    ⟨-, texts, hall⟩
  · rw [hnone] at hj
    cases hj
  · exact ⟨i, rest, paths, path, first, hfailed, hex, hpath, hfirst, surfaces_of_error path ((hc i first).symm.trans hout)⟩
  · -- Every text that was handed over has been optimized.
    have hgiven : (outcomes c session.submitted)[j]? = some (Svgo.outcome executable (child j markup)) := by
      rw [outcomes, List.getElem?_mapIdx, hj, Option.map_some, hc]
    rw [hall, List.getElem?_map, Option.map_eq_some_iff] at hgiven
    obtain ⟨s, -, hs⟩ := hgiven
    exact absurd (outcome_eq_ok_iff.mp hs.symm) (hbad s)

/-- The optimizations of a workspace are the work of its tool. -/
theorem workspace_runsChildren (s : Settings) (svgo : Svgo) (toolbox : Toolbox) :
    (Workspace.collaborators s svgo toolbox).RunsChildren svgo.executable fun _ markup => toolbox.svgo markup := fun _ _ => rfl

/-- A workspace with one icon, whose optimizer ends with 1 and complains in bytes of which one is no text. -/
def complainingWorkspace : Workspace :=
  { disk := iconDisk, homes := ⟨Path.here, []⟩, readers := .standard, now := "", svgoPlace := "", setup? := none, console := "", runs := []
    svgo := Svgo.new none []
    toolbox := ⟨fun _ => .ended 1 [] (Text.Utf8.encode "no such preset\n" ++ [0xFF]), fun _ => .missing⟩ }

/-- The icon whose child complains ends the build. -/
theorem misbehaviour_surfaces_complaint :
    let c := Workspace.collaborators twoSlots (Svgo.new none []) complainingWorkspace.toolbox
    ∃ r session paths path markup, runBuildBy Schedule.Scheduler.counting.final c twoSlots complainingWorkspace = (r, session) ∧
      paths[0]? = some path ∧ session.exchanges = gathering twoSlots paths session.submitted ∧
      Surfaces "svgo" (complainingWorkspace.toolbox.svgo markup) path r ∧
      r = .error (.build (.optimize ⟨.here, ["icons", "a.svg"]⟩ "svgo failed: no such preset\n\ufffd")) := by
  intro c
  have herror : (runBuildBy Schedule.Scheduler.counting.final c twoSlots complainingWorkspace).1 =
      .error (.build (.optimize ⟨.here, ["icons", "a.svg"]⟩ "svgo failed: no such preset\n\ufffd")) := by decide +kernel
  have hsubmitted : (runBuildBy Schedule.Scheduler.counting.final c twoSlots complainingWorkspace).2.submitted[0]? = some "<svg/>" := by
    decide +kernel
  have hfailed : (runBuildBy Schedule.Scheduler.counting.final c twoSlots complainingWorkspace).2.failedOptimizations = [0] := by
    decide +kernel
  cases hr : runBuildBy Schedule.Scheduler.counting.final c twoSlots complainingWorkspace with
  | mk r session =>
    rw [hr] at herror hsubmitted hfailed
    obtain ⟨i, rest, paths, path, first, hi, hex, hpath, -, hs⟩ := (misbehaviour_surfaces "svgo").2 Workspace _ c _
      (workspace_runsChildren _ _ _) twoSlots complainingWorkspace r session hr 0 "<svg/>" hsubmitted (fun s hs => by cases hs)
    obtain ⟨rfl, -⟩ := List.cons.inj (hi.symm.trans hfailed)
    exact ⟨r, session, paths, path, first, rfl, hpath, hex, hs, herror⟩

/-- A child that ends with 0 and writes a byte that starts no character is neither optimized with nor refused. -/
theorem misbehaviour_surfaces_false :
    ¬∀ executable run, (∃ s, Svgo.outcome executable run = .ok s) ∨ ∃ message, Svgo.outcome executable run = .error (.refused message) := by
  intro h
  have hgarbled : Svgo.outcome "svgo" (.ended 0 [0xFF] []) =
      .error (.unexpected ⟨.undecodable, "'utf-8' codec can't decode byte 0xff in position 0: invalid start byte"⟩) := by decide +kernel
  rcases h "svgo" (.ended 0 [0xFF] []) with ⟨s, hs⟩ | ⟨message, hmessage⟩
  · cases hgarbled.symm.trans hs
  · cases hgarbled.symm.trans hmessage

end IconForge.Build
