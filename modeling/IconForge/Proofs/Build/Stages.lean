import IconForge.Proofs.Build.Optimization
import IconForge.Proofs.Build.Session
import IconForge.Proofs.Build.Targets

/-!
# What the stages of a build do when they succeed

For each stage: the exchanges and formattings that it adds, and how the answers of the disk, of the optimizer and of the
formatter make up what it gives. A build gathers its icons (`gather_eq_ok`), has them optimized (`optimizeIcons_eq_ok`), and
publishes them (`publish_eq_ok`).
-/

namespace IconForge.Build

open Component

/-- The exchanges that clear the output and fill it with the static files. -/
def opening (st : Settings) : List Exchange :=
  [⟨.remove st.outputDir, .ok .done⟩, ⟨.makeDirs st.componentsDir, .ok .done⟩, ⟨.copy st.staticDir? st.outputDir, .ok .done⟩]

/-- The exchanges in which some files are found. -/
def finding (st : Settings) (paths : List Path) : List Exchange :=
  opening st ++ [⟨.list st.inputDir st.pattern, .ok (.files paths)⟩]

/-- The exchange that reads a file. -/
def reading (path : Path) (markup : String) : Exchange := ⟨.read path, .ok (.text markup)⟩

/-- The exchanges in which some files are found and read. -/
def gathering (st : Settings) (paths : List Path) (markups : List String) : List Exchange :=
  finding st paths ++ List.zipWith reading paths markups

/-- The calls in which files are found. -/
def findingCalls (st : Settings) : List Call :=
  [.remove st.outputDir, .makeDirs st.componentsDir, .copy st.staticDir? st.outputDir, .list st.inputDir st.pattern]

/-- The calls of a build that finds some files and formats their components as given: every file is read, then every
component is written, and last the index. -/
def plan (st : Settings) (paths : List Path) (contents : List String) : List Call :=
  findingCalls st ++ paths.map .read
    ++ List.zipWith (fun name content => .write (componentTarget st name) content) (paths.map (identifier st.naming)) contents
    ++ [.write (indexTarget st) (indexSource (paths.map (identifier st.naming)))]

/-- What becomes of the optimizations of some markup texts. -/
def outcomes {σ : Type} (c : Collaborators σ) (markups : List String) : List (Except ToolFailure String) :=
  markups.mapIdx fun i markup => (c.optimize i markup).outcome

/-- What a build makes of one icon behind its optimization: the source that is rendered from the optimized markup, and the
formatted text that is written. -/
structure Emission where
  icon : Icon
  optimized : String
  source : String
  content : String
  deriving Repr, DecidableEq

namespace Emission

/-- The file that is written. -/
def target (st : Settings) (m : Emission) : Path := componentTarget st m.icon.name

/-- The exchange that writes the file. -/
def exchange (st : Settings) (m : Emission) : Exchange := ⟨.write (m.target st) m.content, .ok .done⟩

/-- The formatting of the source. -/
def formatting (m : Emission) : Formatting := ⟨m.source, .ok m.content⟩

/-- The source is what is rendered from the optimized markup. -/
def Renders (st : Settings) (m : Emission) : Prop := render m.icon.name st.typescript m.optimized = .ok m.source

end Emission

variable {σ : Type} {c : Collaborators σ} {st : Settings} {s t : Session σ}

/-! ## Gathering -/

/-- The calls that find icons do not depend on which icons are found. -/
theorem calls_finding (st : Settings) (paths : List Path) : (finding st paths).map (·.call) = findingCalls st := rfl

/-- The sources are read in the order in which they were found. -/
theorem calls_reading {paths : List Path} {markups : List String} (h : markups.length = paths.length) :
    (List.zipWith reading paths markups).map (·.call) = paths.map .read := by
  refine List.ext_getElem (by simp [h]) fun i hi hi' => ?_
  simp [reading]

/-- Gathering finds the files, and reads each of them. -/
theorem calls_gathering {paths : List Path} {markups : List String} (h : markups.length = paths.length) :
    (gathering st paths markups).map (·.call) = findingCalls st ++ paths.map .read := by
  rw [gathering, List.map_append, calls_finding, calls_reading h]

/-- Finding and reading files writes nothing. -/
theorem write_not_mem_reads (st : Settings) (paths : List Path) (target : Path) (content : String) :
    Call.write target content ∉ findingCalls st ++ paths.map .read := by
  simp [findingCalls]

/-- A prepared output directory was cleared, made and filled, in this order. -/
theorem prepare_eq_ok (h : exec (prepare c st) s = (.ok (), t)) : s.Adds t (opening st) [] := by
  unfold prepare at h
  obtain ⟨_, s₁, h₁, h⟩ := exec_bind_eq_ok h
  obtain ⟨_, s₂, h₂, h₃⟩ := exec_bind_eq_ok h
  exact ((exec_call_eq_ok h₁).1.trans (exec_call_eq_ok h₂).1).trans (exec_call_eq_ok h₃).1

/-- Discovered icons are those of the listed paths, and their names are well chosen. -/
theorem discover_eq_ok {icons : List Icon} (h : exec (discover c st) s = (.ok icons, t)) :
    ∃ paths, icons = paths.map (iconOf st.naming) ∧ WellNamed st.naming paths ∧
      s.Adds t [⟨.list st.inputDir st.pattern, .ok (.files paths)⟩] [] := by
  unfold discover at h
  obtain ⟨paths, s₁, h₁, h⟩ := exec_bind_eq_ok h
  cases hc : checkNames st.naming [] paths with
  | error e =>
    simp only [hc] at h
    cases h
  | ok icons' =>
    simp only [hc] at h
    cases h
    obtain ⟨hw, hi⟩ := checkNames_eq_ok hc
    exact ⟨paths, hi, hw, (exec_call_eq_ok h₁).1⟩

/-- Every icon is read once, in order. -/
theorem readIcons_eq_ok {icons : List Icon} {markups : List String} (h : exec (readIcons c icons) s = (.ok markups, t)) :
    markups.length = icons.length ∧ s.Adds t (List.zipWith reading (icons.map (·.path)) markups) [] := by
  induction icons generalizing s markups with
  | nil =>
    cases h
    exact ⟨rfl, .refl _⟩
  | cons icon rest ih =>
    unfold readIcons at h
    obtain ⟨markup, s₁, h₁, h⟩ := exec_bind_eq_ok h
    obtain ⟨markups', s₂, h₂, h⟩ := exec_bind_eq_ok h
    cases h
    obtain ⟨hlen, hadds⟩ := ih h₂
    exact ⟨by simp [hlen], (exec_call_eq_ok h₁).1.trans hadds⟩

/-- The icons that are gathered are the files that were found, and each comes with its markup. -/
theorem gather_eq_ok {icons : List Icon} {markups : List String} (h : exec (gather c st) s = (.ok (icons, markups), t)) :
    ∃ paths, icons = paths.map (iconOf st.naming) ∧ WellNamed st.naming paths ∧ markups.length = paths.length ∧
      s.Adds t (gathering st paths markups) [] := by
  unfold gather at h
  obtain ⟨_, s₁, h₁, h⟩ := exec_bind_eq_ok h
  obtain ⟨_, s₂, h₂, h⟩ := exec_bind_eq_ok h
  obtain ⟨icons', s₃, h₃, h⟩ := exec_bind_eq_ok h
  obtain ⟨markups', s₄, h₄, h⟩ := exec_bind_eq_ok h
  obtain ⟨_, s₅, h₅, h⟩ := exec_bind_eq_ok h
  cases h
  have hadds₁ := adds_of_note h₁
  have hadds₅ := adds_of_note h₅
  obtain ⟨paths, rfl, hw, hadds₃⟩ := discover_eq_ok h₃
  obtain ⟨hlen, hadds₄⟩ := readIcons_eq_ok h₄
  rw [map_path_iconOf] at hadds₄
  refine ⟨paths, rfl, hw, by simpa using hlen, ?_⟩
  exact (hadds₁.after (((prepare_eq_ok h₂).trans hadds₃).trans hadds₄)).before hadds₅

/-! ## Optimizing -/

section
variable {icons : List Icon} {markups texts : List String}

theorem length_attempts (h : markups.length = icons.length) : (attempts c icons markups).length = markups.length := by
  simp [attempts, h]

/-- The attempts of the icons have the outcomes of their markup texts. -/
theorem attempts_outcomes (h : markups.length = icons.length) :
    (attempts c icons markups).map (fun a => a.2.outcome) = outcomes c markups := by
  refine List.ext_getElem (by simp [attempts, outcomes, h]) fun i hi hi' => ?_
  simp [attempts, outcomes]

/-- The attempt at a place belongs to the icon and the source at that place. -/
theorem getElem?_attempts {i : Nat} {icon : Icon} {a : Attempt} (h : (attempts c icons markups)[i]? = some (icon, a)) :
    icons[i]? = some icon ∧ ∃ markup, markups[i]? = some markup ∧ a = c.optimize i markup := by
  rw [attempts, List.getElem?_zip_eq_some, List.getElem?_mapIdx, Option.map_eq_some_iff] at h
  obtain ⟨hi, markup, hm, rfl⟩ := h
  exact ⟨hi, markup, hm, rfl⟩

/-- What optimizing the icons leaves: the world is changed by those that have started, and the run is recorded. -/
theorem exec_optimizeIcons (run : Nat → List Schedule.Job → Schedule.State) (c : Collaborators σ) (st : Settings)
    (icons : List Icon) (markups : List String) (s : Session σ) :
    exec (optimizeIcons run c st icons markups) s =
      (settle (attempts c icons markups) (run st.concurrency (jobsOf (attempts c icons markups))),
       { s with
          world := c.closeOptimizer (((run st.concurrency (jobsOf (attempts c icons markups))).started.filterMap
            fun i => markups[i]?).foldl (fun w markup => c.startOptimizing markup w) s.world)
          submitted := markups
          history := (run st.concurrency (jobsOf (attempts c icons markups))).history }) := by
  unfold optimizeIcons
  rw [exec_bind_of_ok (exec_modify _ _)]
  cases settle (attempts c icons markups) (run st.concurrency (jobsOf (attempts c icons markups))) <;> rfl

/-- Optimizing touches neither the disk nor the formatter. -/
theorem optimizeIcons_keeps {run : Nat → List Schedule.Job → Schedule.State} {r : Except Failure (List String)}
    (h : exec (optimizeIcons run c st icons markups) s = (r, t)) :
    t.exchanges = s.exchanges ∧ t.formattings = s.formattings ∧ t.submitted = markups ∧
      t.history = (run st.concurrency (jobsOf (attempts c icons markups))).history := by
  rw [exec_optimizeIcons] at h
  cases h
  exact ⟨rfl, rfl, rfl, rfl⟩

/-- Looking a list up at all its places in order gives the list. -/
theorem filterMap_range_getElem? (l : List String) : (List.range l.length).filterMap (fun i => l[i]?) = l := by
  induction l with
  | nil => rfl
  | cons a l ih =>
    rw [List.length_cons, List.range_succ_eq_map, List.filterMap_cons, List.filterMap_map]
    exact congrArg (a :: ·) ih

/-- The texts that the optimizer is called with are those of the optimizations that start. -/
theorem optimizerCalls_eq {final : Schedule.State} (hsub : t.submitted = markups) (hhist : t.history = final.history) :
    t.optimizerCalls = final.started.filterMap fun i => markups[i]? := by
  unfold Session.optimizerCalls Schedule.State.started
  rw [hsub, hhist, List.filterMap_filterMap]
  congr 1
  funext e
  cases e <;> rfl

/-- Optimizing succeeds when every optimization does; each one was called for once, in the order of the icons, and so the
world was changed by them. -/
theorem optimizeIcons_eq_ok {sch : Schedule.Scheduler} (hlen : markups.length = icons.length)
    (h : exec (optimizeIcons sch.final c st icons markups) s = (.ok texts, t)) :
    outcomes c markups = texts.map .ok ∧ t.optimizerCalls = markups ∧
      t.world = c.closeOptimizer (markups.foldl (fun w markup => c.startOptimizing markup w) s.world) := by
  obtain ⟨-, -, hsub, hhist⟩ := optimizeIcons_keeps h
  have hr := sch.reachable st.concurrency (jobsOf (attempts c icons markups))
  have ha := sch.ended st.concurrency (jobsOf (attempts c icons markups))
  rw [exec_optimizeIcons] at h
  have hs : settle (attempts c icons markups) (sch.final st.concurrency (jobsOf (attempts c icons markups))) = .ok texts :=
    congrArg Prod.fst h
  obtain ⟨hf, ht⟩ := failures_eq_nil_of_settle hr st.concurrency_pos ha hs
  have hstarted := hr.started_eq_range st.concurrency_pos ha hf
  rw [length_jobsOf, length_attempts hlen] at hstarted
  have hcalls := optimizerCalls_eq hsub hhist
  rw [hstarted, filterMap_range_getElem?] at hcalls
  have hworld := congrArg (fun x => x.2.world) h
  simp only [hstarted, filterMap_range_getElem?] at hworld
  exact ⟨by rw [← attempts_outcomes hlen, ht], hcalls, hworld.symm⟩

/-- Optimizing fails as the optimization that was the first to fail. -/
theorem optimizeIcons_eq_error {sch : Schedule.Scheduler} {e : Failure}
    (h : exec (optimizeIcons sch.final c st icons markups) s = (.error e, t)) :
    ∃ i rest icon markup e', t.failedOptimizations = i :: rest ∧ icons[i]? = some icon ∧ markups[i]? = some markup ∧
      (c.optimize i markup).outcome = .error e' ∧ e = e'.failure (.optimize icon.path) := by
  obtain ⟨-, -, -, hhist⟩ := optimizeIcons_keeps h
  have hr := sch.reachable st.concurrency (jobsOf (attempts c icons markups))
  have ha := sch.ended st.concurrency (jobsOf (attempts c icons markups))
  rw [exec_optimizeIcons] at h
  have hs : settle (attempts c icons markups) (sch.final st.concurrency (jobsOf (attempts c icons markups))) = .error e :=
    congrArg Prod.fst h
  obtain ⟨i, rest, icon, a, e', hf, hget, he, rfl⟩ := failures_eq_cons_of_settle hr st.concurrency_pos ha hs
  obtain ⟨hi, markup, hm, rfl⟩ := getElem?_attempts hget
  refine ⟨i, rest, icon, markup, e', ?_, hi, hm, he, rfl⟩
  unfold Session.failedOptimizations
  rw [hhist, ← hf]
  rfl

end

/-! ## Publishing -/

/-- A formatted source is recorded with what it was formatted to. -/
theorem formatSource_eq_ok {icon : Icon} {source content : String} (h : exec (formatSource c icon source) s = (.ok content, t)) :
    s.Adds t [] [⟨source, .ok content⟩] := by
  rw [exec_formatSource] at h
  cases hf : (c.format source s.world).1 with
  | ok text =>
    simp only [hf, Prod.mk.injEq, Except.ok.injEq] at h
    obtain ⟨rfl, rfl⟩ := h
    exact ⟨by simp, rfl, rfl, rfl⟩
  | error e => simp [hf] at h

/-- One icon is rendered, formatted and written. -/
theorem emitComponent_eq_ok {icon : Icon} {optimized : String} {target : Path}
    (h : exec (emitComponent c st icon optimized) s = (.ok target, t)) :
    ∃ m : Emission, m.icon = icon ∧ m.optimized = optimized ∧ target = m.target st ∧ m.Renders st ∧
      s.Adds t [m.exchange st] [m.formatting] := by
  unfold emitComponent at h
  cases hr : render icon.name st.typescript optimized with
  | error cause =>
    simp only [hr] at h
    cases h
  | ok source =>
    simp only [hr] at h
    obtain ⟨content, s₁, h₁, h⟩ := exec_bind_eq_ok h
    obtain ⟨_, s₂, h₂, h⟩ := exec_bind_eq_ok h
    obtain ⟨_, s₃, h₃, h⟩ := exec_bind_eq_ok h
    cases h
    refine ⟨⟨icon, optimized, source, content⟩, rfl, rfl, rfl, hr, ?_⟩
    exact ((formatSource_eq_ok h₁).trans (exec_call_eq_ok h₂).1).before (adds_of_note h₃)

/-- Every icon is rendered, formatted and written once, in order. -/
theorem emitComponents_eq_ok {inputs : List (Icon × String)} {targets : List Path}
    (h : exec (emitComponents c st inputs) s = (.ok targets, t)) :
    ∃ ms : List Emission, ms.map (fun m => (m.icon, m.optimized)) = inputs ∧ targets = ms.map (·.target st) ∧
      (∀ m ∈ ms, m.Renders st) ∧ s.Adds t (ms.map (·.exchange st)) (ms.map (·.formatting)) := by
  induction inputs generalizing s targets with
  | nil =>
    cases h
    exact ⟨[], rfl, rfl, by simp, .refl _⟩
  | cons input rest ih =>
    obtain ⟨icon, optimized⟩ := input
    unfold emitComponents at h
    obtain ⟨target, s₁, h₁, h⟩ := exec_bind_eq_ok h
    obtain ⟨targets', s₂, h₂, h⟩ := exec_bind_eq_ok h
    cases h
    obtain ⟨m, rfl, rfl, rfl, hm, hadds⟩ := emitComponent_eq_ok h₁
    obtain ⟨ms, rfl, rfl, hms, hadds'⟩ := ih h₂
    refine ⟨m :: ms, rfl, rfl, ?_, hadds.trans hadds'⟩
    simp only [List.mem_cons, forall_eq_or_imp]
    exact ⟨hm, hms⟩

/-- The exchange that writes the index of some components. -/
def indexExchange (st : Settings) (names : List String) (answer : Except Fault Reply) : Exchange :=
  ⟨.write (indexTarget st) (indexSource names), answer⟩

/-- The components are written in the order of the icons, and the index last. -/
theorem publish_eq_ok {icons : List Icon} {optimized : List String} {result : Result}
    (h : exec (publish c st icons optimized) s = (.ok result, t)) :
    ∃ ms : List Emission, ms.map (fun m => (m.icon, m.optimized)) = icons.zip optimized ∧ (∀ m ∈ ms, m.Renders st) ∧
      result = ⟨ms.map (·.target st), indexTarget st⟩ ∧
      s.Adds t (ms.map (·.exchange st) ++ [indexExchange st (icons.map (·.name)) (.ok .done)]) (ms.map (·.formatting)) := by
  unfold publish at h
  obtain ⟨components, s₁, h₁, h⟩ := exec_bind_eq_ok h
  obtain ⟨_, s₂, h₂, h⟩ := exec_bind_eq_ok h
  obtain ⟨_, s₃, h₃, h⟩ := exec_bind_eq_ok h
  cases h
  obtain ⟨ms, hms, rfl, hrenders, hadds⟩ := emitComponents_eq_ok h₁
  refine ⟨ms, hms, hrenders, rfl, ?_⟩
  have hindex := (hadds.trans (exec_call_eq_ok h₂).1).before (adds_of_note h₃)
  rw [List.append_nil] at hindex
  exact hindex

end IconForge.Build
