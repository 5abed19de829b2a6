import IconForge.Proofs.Build.Success

/-!
# Builds that fail

Collaborators that fail only as expected make a build fail with an error of its own, and the error is that of the first thing
that went wrong (`build_stops`). `Stopped` lists what that can be: for each stage the error, all exchanges with the disk up
to the one that failed, and all formattings. Every earlier exchange has succeeded, and nothing is called behind the failure,
so the calls are a prefix of those of a build that succeeds.
-/

namespace IconForge.Build

open Component

/-- Collaborators that fail only as a build expects it: the disk by refusals, a file also by bytes that are no text, and the
tools by refusing. -/
structure Collaborators.Expected {σ : Type} (c : Collaborators σ) : Prop where
  removeTree : ∀ p w f, (c.removeTree p w).1 = .error f → f.kind.isStorage = true
  makeDirs : ∀ p w f, (c.makeDirs p w).1 = .error f → f.kind.isStorage = true
  copyStatic : ∀ source? p w f, (c.copyStatic source? p w).1 = .error f → f.kind.isStorage = true
  listFiles : ∀ p pattern w f, (c.listFiles p pattern w).1 = .error f → f.kind.isStorage = true
  readText : ∀ p w f, (c.readText p w).1 = .error f → isUnreadable f.kind = true
  writeText : ∀ p content w f, (c.writeText p content w).1 = .error f → f.kind.isStorage = true
  optimize : ∀ i markup e, (c.optimize i markup).outcome = .error e → ∃ message, e = .refused message
  format : ∀ source w e, (c.format source w).1 = .error e → ∃ message, e = .refused message

/-! ## What can go wrong -/

/-- The output cannot be prepared. -/
inductive Unprepared (st : Settings) : BuildError → List Exchange → Prop where
  | remove (f : Fault) : Unprepared st (.prepare st.outputDir f.message) [⟨.remove st.outputDir, .error f⟩]
  | makeDirs (f : Fault) : Unprepared st (.prepare st.outputDir f.message)
      [⟨.remove st.outputDir, .ok .done⟩, ⟨.makeDirs st.componentsDir, .error f⟩]
  | copy (f : Fault) : Unprepared st (.prepare st.outputDir f.message)
      [⟨.remove st.outputDir, .ok .done⟩, ⟨.makeDirs st.componentsDir, .ok .done⟩,
        ⟨.copy st.staticDir? st.outputDir, .error f⟩]

/-- The icons cannot be gathered. -/
inductive Ungathered (st : Settings) : BuildError → List Exchange → Prop where
  | prepare {e : BuildError} {es : List Exchange} : Unprepared st e es → Ungathered st e es
  | list (f : Fault) : Ungathered st (.enumerate st.inputDir f.message) (opening st ++ [⟨.list st.inputDir st.pattern, .error f⟩])
  | name {before : List Path} {path : Path} (after : List Path) {e : BuildError} : WellNamed st.naming before →
      Offends st.naming before path e → Ungathered st e (finding st (before ++ path :: after))
  | read {before : List Path} {path : Path} {after : List Path} {markups : List String} (f : Fault) :
      WellNamed st.naming (before ++ path :: after) → markups.length = before.length →
      Ungathered st (.read path f.message)
        (finding st (before ++ path :: after) ++ List.zipWith reading before markups ++ [⟨.read path, .error f⟩])

/-- The component of an icon cannot be made: it is rendered, then formatted, then written. -/
inductive Unmade (st : Settings) (icon : Icon) (optimized : String) : BuildError → List Exchange → List Formatting → Prop where
  | parse {cause : Markup.Malformed} : render icon.name st.typescript optimized = .error cause →
      Unmade st icon optimized (.parse icon.path cause) [] []
  | format {source : String} (message : String) : render icon.name st.typescript optimized = .ok source →
      Unmade st icon optimized (.format icon.path message) [] [⟨source, .error (.refused message)⟩]
  | write {source : String} (content : String) (f : Fault) : render icon.name st.typescript optimized = .ok source →
      Unmade st icon optimized (.write (componentTarget st icon.name) f.message)
        [⟨.write (componentTarget st icon.name) content, .error f⟩] [⟨source, .ok content⟩]

/-- What stopped a build: its error, its exchanges with the disk, and its formattings. -/
inductive Stopped {σ : Type} (c : Collaborators σ) (st : Settings) (session : Session σ) :
    BuildError → List Exchange → List Formatting → Prop where
  | gather {e : BuildError} {es : List Exchange} : Ungathered st e es → Stopped c st session e es []
  /-- The optimization that was the first to fail. -/
  | optimize {paths : List Path} {markups : List String} {i : Nat} {rest : List Nat} {path : Path} {markup message : String} :
      WellNamed st.naming paths → markups.length = paths.length → session.failedOptimizations = i :: rest →
      paths[i]? = some path → markups[i]? = some markup → (c.optimize i markup).outcome = .error (.refused message) →
      Stopped c st session (.optimize path message) (gathering st paths markups) []
  /-- The first icon whose component cannot be made; those before it have been written. -/
  | component {paths : List Path} {markups texts : List String} {ms : List Emission} {icon : Icon} {optimized : String}
      {after : List (Icon × String)} {e : BuildError} {es : List Exchange} {fs : List Formatting} :
      WellNamed st.naming paths → markups.length = paths.length → outcomes c markups = texts.map .ok →
      (paths.map (iconOf st.naming)).zip texts = ms.map (fun m => (m.icon, m.optimized)) ++ (icon, optimized) :: after →
      (∀ m ∈ ms, m.Renders st) → Unmade st icon optimized e es fs →
      Stopped c st session e (gathering st paths markups ++ ms.map (·.exchange st) ++ es) (ms.map (·.formatting) ++ fs)
  /-- The index, when all components have been written. -/
  | index {paths : List Path} {markups texts : List String} {ms : List Emission} (f : Fault) :
      WellNamed st.naming paths → markups.length = paths.length → outcomes c markups = texts.map .ok →
      (paths.map (iconOf st.naming)).zip texts = ms.map (fun m => (m.icon, m.optimized)) → (∀ m ∈ ms, m.Renders st) →
      Stopped c st session (.write (indexTarget st) f.message)
        (gathering st paths markups ++ ms.map (·.exchange st) ++ [indexExchange st (paths.map (identifier st.naming)) (.error f)])
        (ms.map (·.formatting))

section
variable {σ α : Type} {c : Collaborators σ} {st : Settings} {s t : Session σ} {e : Failure}

/-! ## The stages -/

/-- A call that fails as expected fails with the error of its stage. -/
theorem exec_call_eq_build_error {request : Call} {reply : α → Reply} {operation : σ → Except Fault α × σ}
    {expected : FaultKind → Bool} {error : String → BuildError}
    (h : exec (call request reply operation expected error) s = (.error e, t))
    (hexp : ∀ f, (operation s.world).1 = .error f → expected f.kind = true) :
    ∃ f, s.Adds t [⟨request, .error f⟩] [] ∧ e = .build (error f.message) := by
  obtain ⟨f, hadds, hf, rfl⟩ := exec_call_eq_error h
  exact ⟨f, hadds, if_pos (hexp f hf)⟩

/-- With collaborators that fail as they should, the output directory is not prepared for one of three reasons (`Unprepared`). -/
theorem prepare_eq_error (hc : c.Expected) (h : exec (prepare c st) s = (.error e, t)) :
    ∃ be es, e = .build be ∧ Unprepared st be es ∧ s.Adds t es [] := by
  unfold prepare at h
  rcases exec_bind_eq_error h with h₁ | ⟨_, s₁, h₁, h⟩
  · obtain ⟨f, hadds, rfl⟩ := exec_call_eq_build_error h₁ (hc.removeTree _ _)
    exact ⟨_, _, rfl, .remove f, hadds⟩
  have hadds₁ := (exec_call_eq_ok h₁).1
  rcases exec_bind_eq_error h with h₂ | ⟨_, s₂, h₂, h₃⟩
  · obtain ⟨f, hadds, rfl⟩ := exec_call_eq_build_error h₂ (hc.makeDirs _ _)
    exact ⟨_, _, rfl, .makeDirs f, hadds₁.trans hadds⟩
  have hadds₂ := (exec_call_eq_ok h₂).1
  obtain ⟨f, hadds, rfl⟩ := exec_call_eq_build_error h₃ (hc.copyStatic _ _ _)
  exact ⟨_, _, rfl, .copy f, (hadds₁.trans hadds₂).trans hadds⟩

/-- A discovery fails with the listing, or at the first path that offends. -/
theorem discover_eq_error (hc : c.Expected) (h : exec (discover c st) s = (.error e, t)) :
    (∃ f, e = .build (.enumerate st.inputDir f.message) ∧ s.Adds t [⟨.list st.inputDir st.pattern, .error f⟩] []) ∨
    ∃ before path after be, e = .build be ∧ WellNamed st.naming before ∧ Offends st.naming before path be ∧
      s.Adds t [⟨.list st.inputDir st.pattern, .ok (.files (before ++ path :: after))⟩] [] := by
  unfold discover at h
  rcases exec_bind_eq_error h with h₁ | ⟨paths, s₁, h₁, h⟩
  · obtain ⟨f, hadds, rfl⟩ := exec_call_eq_build_error h₁ (hc.listFiles _ _ _)
    exact .inl ⟨f, rfl, hadds⟩
  have hadds := (exec_call_eq_ok h₁).1
  cases hn : checkNames st.naming [] paths with
  | ok icons =>
    simp only [hn] at h
    cases h
  | error be =>
    simp only [hn] at h
    cases h
    obtain ⟨before, path, after, rfl, hw, ho⟩ := checkNames_eq_error hn
    exact .inr ⟨before, path, after, be, rfl, hw, ho, hadds⟩

/-- Reading stops at the first file that cannot be read. -/
theorem readIcons_eq_error (hc : c.Expected) {icons : List Icon} (h : exec (readIcons c icons) s = (.error e, t)) :
    ∃ before icon after markups f, icons = before ++ icon :: after ∧ markups.length = before.length ∧
      e = .build (.read icon.path f.message) ∧
      s.Adds t (List.zipWith reading (before.map (·.path)) markups ++ [⟨.read icon.path, .error f⟩]) [] := by
  induction icons generalizing s with
  | nil => cases h
  | cons icon rest ih =>
    unfold readIcons at h
    rcases exec_bind_eq_error h with h₁ | ⟨markup, s₁, h₁, h⟩
    · obtain ⟨f, hadds, rfl⟩ := exec_call_eq_build_error h₁ (hc.readText _ _)
      exact ⟨[], icon, rest, [], f, rfl, rfl, rfl, hadds⟩
    have hadds₁ := (exec_call_eq_ok h₁).1
    rcases exec_bind_eq_error h with h₂ | ⟨_, s₂, _, h₃⟩
    · obtain ⟨before, icon', after, markups, f, rfl, hlen, rfl, hadds⟩ := ih h₂
      exact ⟨icon :: before, icon', after, markup :: markups, f, rfl, by simp [hlen], rfl, hadds₁.trans hadds⟩
    · cases h₃

/-- Gathering stops at the first thing that goes wrong. -/
theorem gather_eq_error (hc : c.Expected) (h : exec (gather c st) s = (.error e, t)) :
    ∃ be es, e = .build be ∧ Ungathered st be es ∧ s.Adds t es [] := by
  unfold gather at h
  rcases exec_bind_eq_error h with h₁ | ⟨_, s₁, h₁, h⟩
  · rw [exec_note] at h₁
    cases h₁
  have hadds₁ := adds_of_note h₁
  rcases exec_bind_eq_error h with h₂ | ⟨_, s₂, h₂, h⟩
  · obtain ⟨be, es, rfl, hu, hadds⟩ := prepare_eq_error hc h₂
    exact ⟨be, es, rfl, .prepare hu, hadds₁.after hadds⟩
  have hadds₂ := hadds₁.after (prepare_eq_ok h₂)
  rcases exec_bind_eq_error h with h₃ | ⟨icons, s₃, h₃, h⟩
  · rcases discover_eq_error hc h₃ with ⟨f, rfl, hadds⟩ | ⟨before, path, after, be, rfl, hw, ho, hadds⟩
    · exact ⟨_, _, rfl, .list f, hadds₂.trans hadds⟩
    · exact ⟨be, _, rfl, .name after hw ho, hadds₂.trans hadds⟩
  obtain ⟨paths, rfl, hw, hadds₃⟩ := discover_eq_ok h₃
  have hfound := hadds₂.trans hadds₃
  rcases exec_bind_eq_error h with h₄ | ⟨markups, s₄, h₄, h⟩
  · obtain ⟨before, icon, after, markups, f, hsplit, hlen, rfl, hadds⟩ := readIcons_eq_error hc h₄
    obtain ⟨front, back, rfl, rfl, hback⟩ := List.map_eq_append_iff.mp hsplit
    obtain ⟨path, after', rfl, rfl, rfl⟩ := List.map_eq_cons_iff.mp hback
    rw [map_path_iconOf] at hadds
    refine ⟨_, _, rfl, .read f hw (by simpa using hlen), ?_⟩
    have hread := hfound.trans hadds
    rw [← List.append_assoc] at hread
    exact hread
  rcases exec_bind_eq_error h with h₅ | ⟨_, s₅, _, h⟩
  · rw [exec_note] at h₅
    cases h₅
  · cases h

/-- A formatter that fails as expected fails with the error of its stage. -/
theorem formatSource_eq_error (hc : c.Expected) {icon : Icon} {source : String}
    (h : exec (formatSource c icon source) s = (.error e, t)) :
    ∃ message, s.Adds t [] [⟨source, .error (.refused message)⟩] ∧ e = .build (.format icon.path message) := by
  rw [exec_formatSource] at h
  cases hf : (c.format source s.world).1 with
  | ok text => simp [hf] at h
  | error e' =>
    obtain ⟨message, rfl⟩ := hc.format _ _ _ hf
    simp only [hf, Prod.mk.injEq, Except.error.injEq] at h
    obtain ⟨rfl, rfl⟩ := h
    exact ⟨message, ⟨by simp, rfl, rfl, rfl⟩, rfl⟩

/-- The component of an icon cannot be made. -/
theorem emitComponent_eq_error (hc : c.Expected) {icon : Icon} {optimized : String}
    (h : exec (emitComponent c st icon optimized) s = (.error e, t)) :
    ∃ be es fs, e = .build be ∧ Unmade st icon optimized be es fs ∧ s.Adds t es fs := by
  unfold emitComponent at h
  cases hr : render icon.name st.typescript optimized with
  | error cause =>
    simp only [hr] at h
    cases h
    exact ⟨_, _, _, rfl, .parse hr, .refl _⟩
  | ok source =>
    simp only [hr] at h
    rcases exec_bind_eq_error h with h₁ | ⟨content, s₁, h₁, h⟩
    · obtain ⟨message, hadds, rfl⟩ := formatSource_eq_error hc h₁
      exact ⟨_, _, _, rfl, .format message hr, hadds⟩
    have hadds₁ := formatSource_eq_ok h₁
    rcases exec_bind_eq_error h with h₂ | ⟨_, s₂, _, h⟩
    · obtain ⟨f, hadds, rfl⟩ := exec_call_eq_build_error h₂ (hc.writeText _ _ _)
      exact ⟨_, _, _, rfl, .write content f hr, hadds₁.trans hadds⟩
    rcases exec_bind_eq_error h with h₃ | ⟨_, s₃, _, h⟩
    · rw [exec_note] at h₃
      cases h₃
    · cases h

/-- The first component that cannot be made ends the build; those before it have been written. -/
theorem emitComponents_eq_error (hc : c.Expected) {inputs : List (Icon × String)}
    (h : exec (emitComponents c st inputs) s = (.error e, t)) :
    ∃ (ms : List Emission) (icon : Icon) (optimized : String) (after : List (Icon × String)) (be : BuildError)
      (es : List Exchange) (fs : List Formatting),
      inputs = ms.map (fun m => (m.icon, m.optimized)) ++ (icon, optimized) :: after ∧ (∀ m ∈ ms, m.Renders st) ∧
      e = .build be ∧ Unmade st icon optimized be es fs ∧
      s.Adds t (ms.map (·.exchange st) ++ es) (ms.map (·.formatting) ++ fs) := by
  induction inputs generalizing s with
  | nil => cases h
  | cons input rest ih =>
    obtain ⟨icon, optimized⟩ := input
    unfold emitComponents at h
    rcases exec_bind_eq_error h with h₁ | ⟨target, s₁, h₁, hrest⟩
    · obtain ⟨be, es, fs, rfl, hu, hadds⟩ := emitComponent_eq_error hc h₁
      exact ⟨[], icon, optimized, rest, be, es, fs, rfl, by simp, rfl, hu, hadds⟩
    obtain ⟨m, rfl, rfl, -, hm, hadds₁⟩ := emitComponent_eq_ok h₁
    rcases exec_bind_eq_error hrest with h₂ | ⟨_, s₂, _, h₃⟩
    · obtain ⟨ms, icon', optimized', after, be, es, fs, rfl, hms, rfl, hu, hadds⟩ := ih h₂
      refine ⟨m :: ms, icon', optimized', after, be, es, fs, rfl, ?_, rfl, hu, hadds₁.trans hadds⟩
      simp only [List.mem_cons, forall_eq_or_imp]
      exact ⟨hm, hms⟩
    · cases h₃

/-- Publishing stops at the first component that cannot be made, or at the index. -/
theorem publish_eq_error (hc : c.Expected) {icons : List Icon} {optimized : List String}
    (h : exec (publish c st icons optimized) s = (.error e, t)) :
    (∃ (ms : List Emission) (icon : Icon) (text : String) (after : List (Icon × String)) (be : BuildError)
      (es : List Exchange) (fs : List Formatting),
      icons.zip optimized = ms.map (fun m => (m.icon, m.optimized)) ++ (icon, text) :: after ∧ (∀ m ∈ ms, m.Renders st) ∧
      e = .build be ∧ Unmade st icon text be es fs ∧
      s.Adds t (ms.map (·.exchange st) ++ es) (ms.map (·.formatting) ++ fs)) ∨
    ∃ (ms : List Emission) (f : Fault), icons.zip optimized = ms.map (fun m => (m.icon, m.optimized)) ∧
      (∀ m ∈ ms, m.Renders st) ∧ e = .build (.write (indexTarget st) f.message) ∧
      s.Adds t (ms.map (·.exchange st) ++ [indexExchange st (icons.map (·.name)) (.error f)]) (ms.map (·.formatting)) := by
  unfold publish at h
  rcases exec_bind_eq_error h with h₁ | ⟨components, s₁, h₁, hrest⟩
  · exact .inl (emitComponents_eq_error hc h₁)
  obtain ⟨ms, hms, -, hrenders, hadds₁⟩ := emitComponents_eq_ok h₁
  rcases exec_bind_eq_error hrest with h₂ | ⟨_, s₂, _, hlast⟩
  · obtain ⟨f, hadds, rfl⟩ := exec_call_eq_build_error h₂ (hc.writeText _ _ _)
    have hindex := hadds₁.trans hadds
    rw [List.append_nil] at hindex
    exact .inr ⟨ms, f, hms.symm, hrenders, rfl, hindex⟩
  rcases exec_bind_eq_error hlast with h₃ | ⟨_, s₃, _, h₄⟩
  · rw [exec_note] at h₃
    cases h₃
  · cases h₄

end

/-! ## The calls up to a failure -/

section
variable {σ : Type} {c : Collaborators σ} {st : Settings} {session : Session σ} {e : BuildError} {es : List Exchange}
  {fs : List Formatting}

/-- Where the icons cannot be gathered the files are found at most, and some of them read. -/
theorem Ungathered.calls_prefix (h : Ungathered st e es) :
    ∃ paths : List Path, es.map (·.call) <+: findingCalls st ++ paths.map .read := by
  cases h with
  | prepare hu =>
    refine ⟨[], ?_⟩
    cases hu with
    | remove | makeDirs | copy => exact ⟨_, rfl⟩
  | list f => exact ⟨[], ⟨_, rfl⟩⟩
  | @name before path after =>
    refine ⟨before ++ path :: after, ?_⟩
    rw [calls_finding]
    exact List.prefix_append _ _
  | @read before path after markups f hw hlen =>
    refine ⟨before ++ path :: after, after.map .read, ?_⟩
    rw [List.map_append, List.map_append, calls_finding, calls_reading hlen]
    simp

/-- For a component that cannot be made one call is made at most. -/
theorem Unmade.calls_prefix {icon : Icon} {optimized : String} (h : Unmade st icon optimized e es fs) :
    ∃ content, es.map (·.call) <+: [.write (componentTarget st icon.name) content] := by
  cases h with
  | parse | format => exact ⟨"", List.nil_prefix⟩
  | write content => exact ⟨content, List.prefix_refl _⟩

/-- The calls up to the component behind some others. -/
theorem prefix_plan {paths : List Path} {ms : List Emission} {name : String} {names : List String}
    (h : paths.map (identifier st.naming) = ms.map (·.icon.name) ++ name :: names) (content : String) (rest : List String) :
    findingCalls st ++ paths.map .read ++ (ms.map (·.exchange st)).map (·.call) ++ [.write (componentTarget st name) content] <+:
      plan st paths (ms.map (·.content) ++ content :: rest) := by
  have hlen : (ms.map (·.icon.name)).length = (ms.map (·.content)).length := by simp
  have hwrites : (ms.map (·.exchange st)).map (·.call) = List.zipWith (fun name content =>
      Call.write (componentTarget st name) content) (ms.map (·.icon.name)) (ms.map (·.content)) := by
    rw [List.zipWith_map, List.zipWith_self, List.map_map]
    rfl
  rw [plan, h, List.zipWith_append hlen, List.zipWith_cons_cons, hwrites]
  simp only [List.append_assoc, List.prefix_append_right_inj, List.cons_append]
  exact ⟨_, rfl⟩

/-- The names of the icons, where components were made of some and one could not be made. -/
theorem names_split {paths : List Path} {texts : List String} {ms : List Emission} {icon : Icon} {optimized : String}
    {after : List (Icon × String)} (hlen : texts.length = paths.length)
    (hzip : (paths.map (iconOf st.naming)).zip texts = ms.map (fun m => (m.icon, m.optimized)) ++ (icon, optimized) :: after) :
    paths.map (identifier st.naming) = ms.map (·.icon.name) ++ icon.name :: after.map (·.1.name) := by
  have hnames := congrArg (List.map fun x => x.1.name) hzip
  have hfst : ((paths.map (iconOf st.naming)).zip texts).map (fun x => x.1.name) = paths.map (identifier st.naming) := by
    have hzipfst := congrArg (List.map Icon.name) (List.map_fst_zip (Nat.le_of_eq (by simp [hlen]) :
      (paths.map (iconOf st.naming)).length ≤ texts.length))
    rw [← map_name_iconOf, ← hzipfst, List.map_map]
    rfl
  rw [← hfst, hnames, List.map_append, List.map_cons, List.map_map]
  rfl

/-- The calls of a build that was stopped are a prefix of those of a build that succeeds. -/
theorem Stopped.calls_prefix (h : Stopped c st session e es fs) :
    ∃ paths contents, contents.length = paths.length ∧ es.map (·.call) <+: plan st paths contents := by
  cases h with
  | gather hu =>
    obtain ⟨paths, hp⟩ := hu.calls_prefix
    refine ⟨paths, List.replicate paths.length "", by simp, hp.trans ?_⟩
    rw [plan, List.append_assoc]
    exact List.prefix_append _ _
  | @optimize paths markups i rest path markup message hw hlen =>
    refine ⟨paths, List.replicate paths.length "", by simp, ?_⟩
    rw [calls_gathering hlen, plan, List.append_assoc]
    exact List.prefix_append _ _
  | @component paths markups texts ms icon optimized after _ es fs hw hlen ho hzip hr hu =>
    have htexts : texts.length = paths.length := (length_of_outcomes ho).trans hlen
    have hnames := names_split htexts hzip
    obtain ⟨content, hcall⟩ := hu.calls_prefix
    refine ⟨paths, ms.map (·.content) ++ content :: after.map (·.2), ?_, ?_⟩
    · have hl := congrArg List.length hnames
      simp at hl ⊢
      omega
    · refine List.IsPrefix.trans ?_ (prefix_plan hnames content (after.map (·.2)))
      rw [List.map_append, List.map_append, calls_gathering hlen]
      exact (List.prefix_append_right_inj _).mpr hcall
  | @index paths markups texts ms f hw hlen ho hzip hr =>
    have htexts : texts.length = paths.length := (length_of_outcomes ho).trans hlen
    obtain ⟨hicons, -⟩ := emissions_aligned (by simpa using htexts) hzip.symm
    refine ⟨paths, ms.map (·.content), by simpa using congrArg List.length hicons, [], ?_⟩
    rw [List.append_nil, names_eq_of_icons hicons, calls_eq_plan hlen hicons]

/-- Nothing is written unless every icon was read and optimized. -/
theorem Stopped.optimized_of_write (h : Stopped c st session e es fs) {target : Path} {content : String}
    (hw : Call.write target content ∈ es.map (·.call)) : ∃ (paths : List Path) (markups texts : List String),
      markups.length = paths.length ∧ gathering st paths markups <+: es ∧ outcomes c markups = texts.map .ok := by
  cases h with
  | gather hu =>
    obtain ⟨paths, hp⟩ := hu.calls_prefix
    exact absurd (hp.subset hw) (write_not_mem_reads st paths target content)
  | @optimize paths markups i rest path markup message _ hlen =>
    rw [calls_gathering hlen] at hw
    exact absurd hw (write_not_mem_reads st paths target content)
  | @component paths markups texts ms icon optimized after _ es fs _ hlen ho =>
    refine ⟨paths, markups, texts, hlen, ?_, ho⟩
    rw [List.append_assoc]
    exact List.prefix_append _ _
  | @index paths markups texts ms f _ hlen ho =>
    refine ⟨paths, markups, texts, hlen, ?_, ho⟩
    rw [List.append_assoc]
    exact List.prefix_append _ _

end

/-- A build that fails by collaborators that fail only as expected was stopped by the first thing that went wrong: the error
is its, no call follows it, and nothing is written unless every icon was read and optimized. -/
theorem build_stops {σ : Type} (sch : Schedule.Scheduler) {c : Collaborators σ} (hc : c.Expected) (st : Settings) (world : σ)
    {e : Failure} {session : Session σ} (h : runBuildBy sch.final c st world = (.error e, session)) :
    ∃ be, e = .build be ∧ Stopped c st session be session.exchanges session.formattings ∧
      (∃ paths contents, contents.length = paths.length ∧ session.calls <+: plan st paths contents) ∧
      ∀ target content, Call.write target content ∈ session.calls → ∃ (paths : List Path) (markups texts : List String),
        markups.length = paths.length ∧ gathering st paths markups <+: session.exchanges ∧
        outcomes c markups = texts.map .ok := by
  obtain ⟨be, he, hs⟩ : ∃ be, e = .build be ∧ Stopped c st session be session.exchanges session.formattings := by
    rcases exec_bind_eq_error h with hgather | ⟨⟨icons, markups⟩, s₁, hgather, hrest⟩
    · obtain ⟨be, es, rfl, hu, hadds⟩ := gather_eq_error hc hgather
      rw [hadds.exchanges, hadds.formattings]
      exact ⟨be, rfl, .gather hu⟩
    obtain ⟨paths, rfl, hw, hlen, hadds₁⟩ := gather_eq_ok hgather
    rcases exec_bind_eq_error hrest with hoptimize | ⟨texts, s₂, hoptimize, hpublish⟩
    · obtain ⟨hex, hfm, -, -⟩ := optimizeIcons_keeps hoptimize
      obtain ⟨i, rest, icon, markup, e', hfail, hicon, hmarkup, hout, rfl⟩ := optimizeIcons_eq_error hoptimize
      obtain ⟨message, rfl⟩ := hc.optimize _ _ _ hout
      rw [List.getElem?_map, Option.map_eq_some_iff] at hicon
      obtain ⟨path, hpath, rfl⟩ := hicon
      rw [hex, hfm, hadds₁.exchanges, hadds₁.formattings]
      exact ⟨_, rfl, .optimize hw hlen hfail hpath hmarkup hout⟩
    obtain ⟨hex, hfm, -, -⟩ := optimizeIcons_keeps hoptimize
    obtain ⟨ho, -⟩ := optimizeIcons_eq_ok (by simpa using hlen) hoptimize
    rcases publish_eq_error hc hpublish with ⟨ms, icon, text, after, be, es, fs, hzip, hr, rfl, hu, hadds₂⟩ |
      ⟨ms, f, hzip, hr, rfl, hadds₂⟩
    · rw [hadds₂.exchanges, hadds₂.formattings, hex, hfm, hadds₁.exchanges, hadds₁.formattings, ← List.append_assoc]
      exact ⟨be, rfl, .component hw hlen ho hzip hr hu⟩
    · rw [hadds₂.exchanges, hadds₂.formattings, hex, hfm, hadds₁.exchanges, hadds₁.formattings, ← List.append_assoc,
        map_name_iconOf]
      exact ⟨_, rfl, .index f hw hlen ho hzip hr⟩
  exact ⟨be, he, hs, hs.calls_prefix, fun target content hmem => hs.optimized_of_write hmem⟩

/-- The component of the first icon cannot be written, and the second icon cannot be parsed: the build stops at
the first one. -/
theorem build_stops_at_first_component :
    let c := { obliging [(⟨.here, ["icons", "a.svg"]⟩, "<svg/>"), (⟨.here, ["icons", "b.svg"]⟩, "<svg>")]
        fun _ markup => ⟨0, .ok markup⟩
      with writeText := fun _ _ w => (.error ⟨.storage, "full"⟩, w) }
    let target : Path := ⟨.here, ["out", "components", "A.js"]⟩
    ∃ session be, runBuildBy Schedule.Scheduler.counting.final c twoSlots () = (.error (.build be), session) ∧
      be = .write target "full" ∧ Stopped c twoSlots session be session.exchanges session.formattings := by
  intro c target
  have hc : c.Expected := by
    constructor
    case writeText => rintro p content w f ⟨⟩; rfl
    all_goals exact nofun
  have hrun : (match (runBuildBy Schedule.Scheduler.counting.final c twoSlots ()).1 with
      | .ok _ => none
      | .error e => some e) = some (.build (.write target "full")) := by
    decide +kernel
  cases hr : runBuildBy Schedule.Scheduler.counting.final c twoSlots () with
  | mk outcome session =>
    cases outcome with
    | ok result => simp [hr] at hrun
    | error e =>
      obtain ⟨be, rfl, hs, -⟩ := build_stops Schedule.Scheduler.counting hc twoSlots () hr
      rw [hr] at hrun
      cases hrun
      exact ⟨session, _, rfl, rfl, hs⟩

end IconForge.Build
