import IconForge.Proofs.Build.Success

/-!
# Timing and slots do not show

How long the optimizations take and how many of them run at a time shows in the record of the optimizations and nowhere else.
The other parts of a build are blind to that record (`Blind`), and the optimizations of a build that goes on leave the same
world in every run (`optimizeIcons_eq_ok`), so two runs of a build come to the same (`timing_never_shows`).
-/

namespace IconForge.Build

/-- The same collaborators, but every optimization takes as many turns as it is told. -/
def Collaborators.retimed {σ : Type} (c : Collaborators σ) (turns : Nat → String → Nat) : Collaborators σ :=
  { c with optimize := fun i markup => { c.optimize i markup with turns := turns i markup } }

/-- The same settings with another number of slots. -/
def withSlots (st : Settings) (slots : Nat) (h : 0 < slots) : Settings := { st with concurrency := slots, concurrency_pos := h }

/-- A session with another record of the optimizations. -/
def Session.recording {σ : Type} (s : Session σ) (submitted : List String) (history : List Schedule.Event) : Session σ :=
  { s with submitted, history }

/-- A part of a build that neither looks at the record of the optimizations nor changes it. -/
structure Blind {σ α : Type} (m : BuildM σ α) : Prop where
  exec_recording : ∀ s texts events, exec m (s.recording texts events) = ((exec m s).1, (exec m s).2.recording texts events)

namespace Blind

variable {σ α β : Type} {c : Collaborators σ}

/-- The record is the same behind a blind part as before it. -/
theorem keeps {m : BuildM σ α} (h : Blind m) {s t : Session σ} {r : Except Failure α} (hm : exec m s = (r, t)) :
    t.submitted = s.submitted ∧ t.history = s.history := by
  have hs := h.exec_recording s s.submitted s.history
  rw [show s.recording s.submitted s.history = s from rfl, hm] at hs
  have ht : t = t.recording s.submitted s.history := congrArg Prod.snd hs
  rw [ht]
  exact ⟨rfl, rfl⟩

theorem pure (a : α) : Blind (Pure.pure a : BuildM σ α) := ⟨fun _ _ _ => rfl⟩

theorem throw (e : Failure) : Blind (MonadExcept.throw e : BuildM σ α) := ⟨fun _ _ _ => rfl⟩

theorem bind {m : BuildM σ α} {f : α → BuildM σ β} (h : Blind m) (hf : ∀ a, Blind (f a)) : Blind (m >>= f) := by
  refine ⟨fun s texts events => ?_⟩
  have hm := h.exec_recording s texts events
  cases hr : exec m s with
  | mk r u =>
    rw [hr] at hm
    cases r with
    | ok a => rw [exec_bind_of_ok hm, exec_bind_of_ok hr, (hf a).exec_recording u texts events]
    | error e => rw [exec_bind_of_error hm, exec_bind_of_error hr]

theorem note (c : Collaborators σ) (level : Int) (message : String) : Blind (note c level message) := ⟨fun _ _ _ => rfl⟩

theorem call (request : Call) (reply : α → Reply) (operation : σ → Except Fault α × σ) (expected : FaultKind → Bool)
    (error : String → BuildError) : Blind (call request reply operation expected error) := by
  refine ⟨fun s texts events => ?_⟩
  rw [exec_call, exec_call]
  rfl

theorem formatSource (c : Collaborators σ) (icon : Icon) (source : String) : Blind (formatSource c icon source) := by
  refine ⟨fun s texts events => ?_⟩
  rw [exec_formatSource, exec_formatSource]
  rfl

theorem discover (c : Collaborators σ) (st : Settings) : Blind (discover c st) := by
  refine (Blind.call ..).bind fun paths => ?_
  cases checkNames st.naming [] paths with
  | ok icons => exact Blind.pure icons
  | error e => exact Blind.throw _

theorem readIcons (c : Collaborators σ) (icons : List Icon) : Blind (readIcons c icons) := by
  induction icons with
  | nil => exact Blind.pure []
  | cons icon rest ih => exact (Blind.call ..).bind fun _ => ih.bind fun _ => Blind.pure _

/-- No stage before the optimization sees a clock. -/
theorem gather (c : Collaborators σ) (st : Settings) : Blind (gather c st) :=
  (Blind.note ..).bind fun _ => ((Blind.call ..).bind fun _ => (Blind.call ..).bind fun _ => Blind.call ..).bind fun _ =>
    (Blind.discover c st).bind fun icons => (Blind.readIcons c icons).bind fun _ => (Blind.note ..).bind fun _ => Blind.pure _

theorem emitComponent (c : Collaborators σ) (st : Settings) (icon : Icon) (optimized : String) :
    Blind (emitComponent c st icon optimized) := by
  unfold Build.emitComponent
  cases Component.render icon.name st.typescript optimized with
  | error cause => exact Blind.throw _
  | ok source =>
    exact (Blind.formatSource ..).bind fun _ => (Blind.call ..).bind fun _ => (Blind.note ..).bind fun _ => Blind.pure _

theorem emitComponents (c : Collaborators σ) (st : Settings) (inputs : List (Icon × String)) :
    Blind (emitComponents c st inputs) := by
  induction inputs with
  | nil => exact Blind.pure []
  | cons input rest ih => exact (Blind.emitComponent ..).bind fun _ => ih.bind fun _ => Blind.pure _

/-- No stage behind the optimization sees a clock. -/
theorem publish (c : Collaborators σ) (st : Settings) (icons : List Icon) (optimized : List String) :
    Blind (publish c st icons optimized) :=
  (Blind.emitComponents ..).bind fun _ => (Blind.call ..).bind fun _ => (Blind.note ..).bind fun _ => Blind.pure _

end Blind

/-! ## Parts that know neither turns nor slots -/

section
variable {σ : Type} (c : Collaborators σ) (st : Settings) (turns : Nat → String → Nat) {slots : Nat} (hslots : 0 < slots)

theorem readIcons_retimed (icons : List Icon) : readIcons (c.retimed turns) icons = readIcons c icons := by
  induction icons with
  | nil => rfl
  | cons icon rest ih =>
    simp only [readIcons, ih]
    rfl

/-- Other durations and slots do not change the stages before the optimization. -/
theorem gather_retimed : gather (c.retimed turns) (withSlots st slots hslots) = gather c st := by
  simp only [gather, readIcons_retimed]
  rfl

theorem emitComponents_retimed (inputs : List (Icon × String)) :
    emitComponents (c.retimed turns) (withSlots st slots hslots) inputs = emitComponents c st inputs := by
  induction inputs with
  | nil => rfl
  | cons input rest ih =>
    simp only [emitComponents, ih]
    rfl

/-- Other durations and slots do not change the stages behind the optimization. -/
theorem publish_retimed (icons : List Icon) (optimized : List String) :
    publish (c.retimed turns) (withSlots st slots hslots) icons optimized = publish c st icons optimized := by
  simp only [publish, emitComponents_retimed]
  rfl

end

/-- The optimization of the markup at some place fails. -/
def FailsAt {σ : Type} (c : Collaborators σ) (markups : List String) (i : Nat) : Prop :=
  ∃ e, (outcomes c markups)[i]? = some (.error e)

/-- A run that an optimization has stopped: the icons were gathered, nothing was written or formatted, and the error is that
of an icon whose optimization fails. -/
structure Undone {σ : Type} (c : Collaborators σ) (st : Settings) (paths : List Path) (run : Except Failure Result × Session σ) :
    Prop where
  exchanges : run.2.exchanges = gathering st paths run.2.submitted
  unwritten : ∀ target content, Call.write target content ∉ run.2.calls
  formattings : run.2.formattings = []
  blames : ∃ (i : Nat) (path : Path) (e : ToolFailure), paths[i]? = some path ∧
    (outcomes c run.2.submitted)[i]? = some (.error e) ∧ run.1 = .error (e.failure (.optimize path))

section
variable {σ : Type} {c : Collaborators σ} {st : Settings} {s t : Session σ} {paths : List Path} {markups texts : List String}
  {sch : Schedule.Scheduler}

/-- A child that fails is found among the outcomes at the place of its source. -/
theorem getElem?_outcomes {i : Nat} {markup : String} {e : ToolFailure} (hm : markups[i]? = some markup)
    (he : (c.optimize i markup).outcome = .error e) : (outcomes c markups)[i]? = some (.error e) := by
  rw [outcomes, List.getElem?_mapIdx, hm, Option.map_some, he]

/-- No optimization fails where all have texts. -/
theorem not_failsAt (h : outcomes c markups = texts.map .ok) (i : Nat) : ¬FailsAt c markups i := by
  rintro ⟨e, he⟩
  have hmem := List.mem_of_getElem? he
  rw [h] at hmem
  simp at hmem

/-- Optimizations that all succeed leave the same session in every run, but for its record of them. -/
theorem optimizeIcons_recording {icons : List Icon} (hlen : markups.length = icons.length)
    (h : exec (optimizeIcons sch.final c st icons markups) s = (.ok texts, t)) :
    ∃ events, t = Session.recording
      { s with world := c.closeOptimizer (markups.foldl (fun w markup => c.startOptimizing markup w) s.world) } markups events := by
  obtain ⟨hex, hfm, hsub, -⟩ := optimizeIcons_keeps h
  obtain ⟨-, -, hworld⟩ := optimizeIcons_eq_ok hlen h
  obtain ⟨w, exchanges, submitted, history, formattings⟩ := t
  simp only at hex hfm hsub hworld
  subst hex hfm hsub hworld
  exact ⟨history, rfl⟩

/-- An optimization that fails stops a build that has gathered its icons. -/
theorem undone_of_optimizeIcons {e : Failure} {world : σ} (hlen : markups.length = paths.length)
    (hadds : ({ world } : Session σ).Adds s (gathering st paths markups) [])
    (h : exec (optimizeIcons sch.final c st (paths.map (iconOf st.naming)) markups) s = (.error e, t)) :
    Undone c st paths (.error e, t) := by
  obtain ⟨hex, hfm, hsub, -⟩ := optimizeIcons_keeps h
  obtain ⟨i, rest, icon, markup, e', -, hicon, hmarkup, hout, rfl⟩ := optimizeIcons_eq_error h
  rw [List.getElem?_map, Option.map_eq_some_iff] at hicon
  obtain ⟨path, hpath, rfl⟩ := hicon
  have hexchanges : t.exchanges = gathering st paths markups := hex.trans hadds.exchanges
  constructor
  case exchanges => rw [hexchanges, hsub]
  case unwritten =>
    intro target content
    rw [Session.calls, hexchanges, calls_gathering hlen]
    exact write_not_mem_reads st paths target content
  case formattings => exact hfm.trans hadds.formattings
  case blames => exact ⟨i, path, e', hpath, hsub ▸ getElem?_outcomes hmarkup hout, rfl⟩

/-- Optimizing the same icons from the same session comes to the same in every run, or fails in every run. -/
theorem optimizeIcons_agree {sch' : Schedule.Scheduler} {turns : Nat → String → Nat} {slots : Nat} {hslots : 0 < slots}
    {icons : List Icon} {r r' : Except Failure (List String)} {t' : Session σ} (hlen : markups.length = icons.length)
    (h : exec (optimizeIcons sch.final c st icons markups) s = (r, t))
    (h' : exec (optimizeIcons sch'.final (c.retimed turns) (withSlots st slots hslots) icons markups) s = (r', t')) :
    (∃ texts u events events', outcomes c markups = texts.map .ok ∧ r = .ok texts ∧ r' = .ok texts ∧
      t = Session.recording u markups events ∧ t' = Session.recording u markups events') ∨
    ∃ e e', r = .error e ∧ r' = .error e' := by
  cases r with
  | error e =>
    obtain ⟨i, _, _, markup, e₀, -, -, hmarkup, hout, -⟩ := optimizeIcons_eq_error h
    cases r' with
    | error e' => exact .inr ⟨e, e', rfl, rfl⟩
    | ok texts' =>
      obtain ⟨ho', -, -⟩ := optimizeIcons_eq_ok hlen h'
      exact absurd ⟨e₀, getElem?_outcomes hmarkup hout⟩ (not_failsAt (c := c) ho' i)
  | ok texts =>
    obtain ⟨ho, -, -⟩ := optimizeIcons_eq_ok hlen h
    obtain ⟨events, ht⟩ := optimizeIcons_recording hlen h
    cases r' with
    | error e' =>
      obtain ⟨i, _, _, markup, e₀, -, -, hmarkup, hout, -⟩ := optimizeIcons_eq_error h'
      exact absurd ⟨e₀, getElem?_outcomes hmarkup hout⟩ (not_failsAt ho i)
    | ok texts' =>
      obtain ⟨ho', -, -⟩ := optimizeIcons_eq_ok hlen h'
      obtain ⟨events', ht'⟩ := optimizeIcons_recording hlen h'
      have htexts : texts = texts' := List.map_injective_iff.mpr (fun _ _ => Except.ok.inj) (ho.symm.trans ho')
      exact .inl ⟨texts, _, events, events', ho, rfl, htexts ▸ rfl, ht, ht'⟩

/-- A build goes on with the icons that it has gathered. -/
theorem runBuildBy_of_gather {run : Nat → List Schedule.Job → Schedule.State} {world : σ} {icons : List Icon}
    (h : exec (gather c st) { world } = (.ok (icons, markups), s)) :
    runBuildBy run c st world = exec (optimizeIcons run c st icons markups >>= publish c st icons) s := by
  unfold runBuildBy build
  exact exec_bind_of_ok h _

/-- A build that fails before the optimization runs no job at all. -/
theorem runBuildBy_of_gather_error {run : Nat → List Schedule.Job → Schedule.State} {world : σ} {e : Failure}
    (h : exec (gather c st) { world } = (.error e, s)) : runBuildBy run c st world = (.error e, s) := by
  unfold runBuildBy build
  exact exec_bind_of_error h _

/-- What a run is stopped by knows neither turns nor slots. -/
theorem Undone.of_retimed {turns : Nat → String → Nat} {slots : Nat} {hslots : 0 < slots}
    {run : Except Failure Result × Session σ} (h : Undone (c.retimed turns) (withSlots st slots hslots) paths run) :
    Undone c st paths run := ⟨h.exchanges, h.unwritten, h.formattings, h.blames⟩

/-- A run that an optimization has stopped has one that fails. -/
theorem Undone.exists_failsAt {run : Except Failure Result × Session σ} (h : Undone c st paths run) :
    ∃ i, FailsAt c run.2.submitted i := by
  obtain ⟨i, _, e, -, hout, -⟩ := h.blames
  exact ⟨i, e, hout⟩

/-- Where one optimization fails at most, all runs that an optimization has stopped fail alike. -/
theorem Undone.outcome_unique {a b : Except Failure Result × Session σ} (ha : Undone c st paths a) (hb : Undone c st paths b)
    (hsub : a.2.submitted = b.2.submitted) (hone : ∀ i j, FailsAt c a.2.submitted i → FailsAt c a.2.submitted j → i = j) :
    a.1 = b.1 := by
  obtain ⟨i, path, e, hpath, hout, hr⟩ := ha.blames
  obtain ⟨j, path', e', hpath', hout', hr'⟩ := hb.blames
  rw [← hsub] at hout'
  obtain rfl := hone i j ⟨e, hout⟩ ⟨e', hout'⟩
  rw [hpath, Option.some.injEq] at hpath'
  rw [hout, Option.some.injEq, Except.error.injEq] at hout'
  rw [hr, hr', hpath', hout']

end

/-- Two runs of a build that differ in how long the optimizations take, in what order they end and in how many run at a time:
where no optimization fails both runs come to the same; otherwise neither writes or formats anything, and each fails as an
optimization does, both alike where only one fails. -/
theorem timing_never_shows {σ : Type} (sch sch' : Schedule.Scheduler) (c : Collaborators σ) (st : Settings)
    (turns : Nat → String → Nat) {slots : Nat} (hslots : 0 < slots) (world : σ) :
    let a := runBuildBy sch.final c st world
    let b := runBuildBy sch'.final (c.retimed turns) (withSlots st slots hslots) world
    a.2.submitted = b.2.submitted ∧
    ((∀ i, ¬FailsAt c a.2.submitted i) →
      a.1 = b.1 ∧ a.2.exchanges = b.2.exchanges ∧ a.2.formattings = b.2.formattings ∧ a.2.world = b.2.world) ∧
    ((∃ i, FailsAt c a.2.submitted i) → ∃ paths, Undone c st paths a ∧ Undone c st paths b ∧
      ((∀ i j, FailsAt c a.2.submitted i → FailsAt c a.2.submitted j → i = j) → a.1 = b.1)) := by
  intro a b
  have hretimed := gather_retimed c st turns hslots
  cases hg : exec (gather c st) { world } with
  | mk r u =>
    cases r with
    | error e =>
      have ha : a = (.error e, u) := runBuildBy_of_gather_error hg
      have hb : b = (.error e, u) := runBuildBy_of_gather_error (by rw [hretimed]; exact hg)
      have hsub : u.submitted = [] := ((Blind.gather c st).keeps hg).1
      rw [ha, hb]
      refine ⟨rfl, fun _ => ⟨rfl, rfl, rfl, rfl⟩, fun hfails => ?_⟩
      obtain ⟨i, e', he'⟩ := hfails
      simp [outcomes, hsub] at he'
    | ok gathered =>
      obtain ⟨icons, markups⟩ := gathered
      obtain ⟨paths, hicons, -, hlen, hadds⟩ := gather_eq_ok hg
      have hlen' : markups.length = icons.length := by rw [hicons, List.length_map, hlen]
      have ha : a = exec (optimizeIcons sch.final c st icons markups >>= publish c st icons) u := runBuildBy_of_gather hg
      have hb : b = exec (optimizeIcons sch'.final (c.retimed turns) (withSlots st slots hslots) icons markups >>=
          publish (c.retimed turns) (withSlots st slots hslots) icons) u := runBuildBy_of_gather (by rw [hretimed]; exact hg)
      rw [funext (publish_retimed c st turns hslots icons)] at hb
      cases ho : exec (optimizeIcons sch.final c st icons markups) u with
      | mk r v =>
        cases ho' : exec (optimizeIcons sch'.final (c.retimed turns) (withSlots st slots hslots) icons markups) u with
        | mk r' v' =>
          rcases optimizeIcons_agree hlen' ho ho' with
            ⟨texts, w, events, events', houtcomes, rfl, rfl, rfl, rfl⟩ | ⟨e, e', rfl, rfl⟩
          · rw [exec_bind_of_ok ho, (Blind.publish c st icons texts).exec_recording] at ha
            rw [exec_bind_of_ok ho', (Blind.publish c st icons texts).exec_recording] at hb
            rw [ha, hb]
            refine ⟨rfl, fun _ => ⟨rfl, rfl, rfl, rfl⟩, fun hfails => ?_⟩
            obtain ⟨i, hi⟩ := hfails
            exact absurd hi (not_failsAt houtcomes i)
          · rw [exec_bind_of_error ho] at ha
            rw [exec_bind_of_error ho'] at hb
            subst hicons
            have hua : Undone c st paths (.error e, v) := undone_of_optimizeIcons hlen hadds ho
            have hub : Undone (c.retimed turns) (withSlots st slots hslots) paths (.error e', v') :=
              undone_of_optimizeIcons hlen hadds ho'
            have hsub : v.submitted = v'.submitted := (optimizeIcons_keeps ho).2.2.1.trans (optimizeIcons_keeps ho').2.2.1.symm
            rw [ha, hb]
            refine ⟨hsub, fun hnone => ?_, fun _ => ⟨paths, hua, hub.of_retimed, hua.outcome_unique hub.of_retimed hsub⟩⟩
            obtain ⟨i, hi⟩ := hua.exists_failsAt
            exact absurd hi (hnone i)

/-- Collaborators of which the optimizer refuses the second of two icons, and takes two turns to do so. -/
def refusingSecond : Collaborators Unit :=
  obliging [(⟨.here, ["icons", "a.svg"]⟩, "<svg/>"), (⟨.here, ["icons", "b.svg"]⟩, "<svg/>")] fun i _ =>
    if i = 1 then ⟨2, .error (.refused "no")⟩ else ⟨0, .ok "<svg/>"⟩

/-- With two slots the first icon is done before the second one fails; with one slot it takes four turns first. Both runs
fail alike. -/
theorem timing_never_shows_one_failure :
    0 < 1 ∧ (runBuildBy Schedule.Scheduler.counting.final refusingSecond twoSlots ()).1 =
      (runBuildBy Schedule.Scheduler.counting.final (refusingSecond.retimed fun i _ => 4 * (1 - i))
        (withSlots twoSlots 1 (by decide)) ()).1 := by
  have hsub : (runBuildBy Schedule.Scheduler.counting.final refusingSecond twoSlots ()).2.submitted = ["<svg/>", "<svg/>"] := by
    decide +kernel
  have hone : ∀ i, FailsAt refusingSecond ["<svg/>", "<svg/>"] i → i = 1 := by
    rintro (_ | _ | i) ⟨e, he⟩
    · cases he
    · rfl
    · cases he
  have hfails : FailsAt refusingSecond ["<svg/>", "<svg/>"] 1 := ⟨_, rfl⟩
  obtain ⟨-, -, hsome⟩ := timing_never_shows Schedule.Scheduler.counting Schedule.Scheduler.counting refusingSecond twoSlots
    (fun i _ => 4 * (1 - i)) (show 0 < 1 by decide) ()
  rw [hsub] at hsome
  obtain ⟨paths, -, -, hsame⟩ := hsome ⟨1, hfails⟩
  exact ⟨by decide, hsame fun i j hi hj => (hone i hi).trans (hone j hj).symm⟩

end IconForge.Build
