import IconForge.Proofs.Build.Preserve

/-!
# Two runs of a build side by side

A build that is run twice, on worlds that some relation holds of, gives the same answers and keeps the same record as long as its
collaborators respect the relation (`Collaborators.Respect`); it may leave the relation for good when it makes a call that is marked
(`Marked`). What the smallest parts do side by side the stages do as well, and so does the build (`Collaborators.Respect.build`).
-/

namespace IconForge.Build

variable {σ α β : Type} {R : σ → σ → Prop} {marked : Call → Prop}

/-- Sessions that differ in their worlds only, of which a relation holds. -/
def Twins (R : σ → σ → Prop) (s s' : Session σ) : Prop := R s.world s'.world ∧ s' = { s with world := s'.world }

/-- A session in which a marked call has been made. -/
def Marked (marked : Call → Prop) (s : Session σ) : Prop := ∃ request ∈ s.calls, marked request

/-- Two ends of a part of a build: a marked call has been made, or the answers are the same and the sessions are still twins. -/
def Matches (marked : Call → Prop) (R : σ → σ → Prop) (x x' : Except Failure α × Session σ) : Prop :=
  Marked marked x.2 ∨ x'.1 = x.1 ∧ Twins R x.2 x'.2

/-- A part of a build that does the same on twins, unless it makes a marked call. -/
structure Couples (marked : Call → Prop) (R : σ → σ → Prop) (m : BuildM σ α) : Prop where
  keeps : Preserves (Marked marked) m
  ends : ∀ s s', Twins R s s' → Matches marked R (exec m s) (exec m s')

/-- An operation that answers the same in related worlds and leaves them related. -/
def Respects (R : σ → σ → Prop) (operation : σ → α × σ) : Prop :=
  ∀ w w', R w w' → (operation w').1 = (operation w).1 ∧ R (operation w).2 (operation w').2

/-- Collaborators whose operations, but for those of marked calls, respect a relation. -/
structure Collaborators.Respect (c : Collaborators σ) (marked : Call → Prop) (R : σ → σ → Prop) : Prop where
  removeTree : ∀ p, ¬marked (.remove p) → Respects R (c.removeTree p)
  makeDirs : ∀ p, ¬marked (.makeDirs p) → Respects R (c.makeDirs p)
  copyStatic : ∀ source? target, ¬marked (.copy source? target) → Respects R (c.copyStatic source? target)
  listFiles : ∀ root pattern, ¬marked (.list root pattern) → Respects R (c.listFiles root pattern)
  readText : ∀ p, ¬marked (.read p) → Respects R (c.readText p)
  writeText : ∀ p text, ¬marked (.write p text) → Respects R (c.writeText p text)
  startOptimizing : ∀ markup w w', R w w' → R (c.startOptimizing markup w) (c.startOptimizing markup w')
  closeOptimizer : ∀ w w', R w w' → R (c.closeOptimizer w) (c.closeOptimizer w')
  format : ∀ source, Respects R (c.format source)
  log : ∀ record w w', R w w' → R (c.log record w) (c.log record w')

/-! ## Sequences -/

/-- Behind two ends that match, the parts that follow match. -/
theorem Matches.bind {m : BuildM σ α} {f : α → BuildM σ β} {s s' : Session σ} (h : Matches marked R (exec m s) (exec m s'))
    (hf : ∀ a, Couples marked R (f a)) : Matches marked R (exec (m >>= f) s) (exec (m >>= f) s') := by
  rcases h with hmarked | ⟨hanswer, htwins⟩
  · exact .inl (Preserves.exec_bind hmarked fun a t _ ht => (hf a).keeps t ht)
  rcases hx : exec m s with ⟨answer, t⟩
  rcases hy : exec m s' with ⟨answer', t'⟩
  rw [hx, hy] at hanswer htwins
  obtain rfl : answer' = answer := hanswer
  cases answer' with
  | ok a =>
    rw [exec_bind_of_ok hx, exec_bind_of_ok hy]
    exact (hf a).ends t t' htwins
  | error e =>
    rw [exec_bind_of_error hx, exec_bind_of_error hy]
    exact .inr ⟨rfl, htwins⟩

/-- A call that answers the same in two worlds and leaves them related leaves twins. -/
theorem matches_call {request : Call} {reply : α → Reply} {operation : σ → Except Fault α × σ} {expected : FaultKind → Bool}
    {error : String → BuildError} {s s' : Session σ} (hsame : s' = { s with world := s'.world })
    (hanswer : (operation s'.world).1 = (operation s.world).1) (hafter : R (operation s.world).2 (operation s'.world).2) :
    Matches marked R (exec (call request reply operation expected error) s) (exec (call request reply operation expected error) s') := by
  rw [exec_call, exec_call, hanswer, hsame]
  exact .inr ⟨rfl, hafter, rfl⟩

namespace Couples

theorem pure (a : α) : Couples marked R (Pure.pure a : BuildM σ α) := ⟨Preserves.pure a, fun _ _ h => .inr ⟨rfl, h⟩⟩

theorem throw (e : Failure) : Couples marked R (MonadExcept.throw e : BuildM σ α) := ⟨Preserves.throw e, fun _ _ h => .inr ⟨rfl, h⟩⟩

theorem bind {m : BuildM σ α} {f : α → BuildM σ β} (h : Couples marked R m) (hf : ∀ a, Couples marked R (f a)) :
    Couples marked R (m >>= f) :=
  ⟨h.keeps.bind fun a => (hf a).keeps, fun s s' hs => (h.ends s s' hs).bind hf⟩

/-- A call is marked, or it does the same on twins. -/
theorem call {request : Call} {reply : α → Reply} {operation : σ → Except Fault α × σ} {expected : FaultKind → Bool}
    {error : String → BuildError} (h : ¬marked request → Respects R operation) :
    Couples marked R (call request reply operation expected error) where
  keeps := by
    refine Preserves.call fun s ⟨known, hknown, hmarked⟩ answer => ⟨known, ?_, hmarked⟩
    rw [Session.calls, List.map_append]
    exact List.mem_append_left _ hknown
  ends := by
    rintro s s' ⟨hworld, hsame⟩
    by_cases hmarked : marked request
    · refine .inl ⟨request, ?_, hmarked⟩
      rw [exec_call, Session.calls, List.map_append]
      exact List.mem_append_right _ (List.mem_singleton_self _)
    · obtain ⟨hanswer, hafter⟩ := h hmarked _ _ hworld
      exact matches_call hsame hanswer hafter

end Couples

/-! ## The stages -/

namespace Collaborators.Respect

variable {c : Collaborators σ} {st : Settings} (hc : c.Respect marked R)
include hc

theorem note (level : Int) (message : String) : Couples marked R (note c level message) where
  keeps := fun _ h => h
  ends := by
    rintro s s' ⟨hworld, hsame⟩
    rw [exec_note, exec_note, hsame]
    exact .inr ⟨rfl, hc.log _ _ _ hworld, rfl⟩

/-- Twins clear, make and copy alike, as far as these calls are not marked. -/
theorem prepare : Couples marked R (prepare c st) :=
  (Couples.call (hc.removeTree _)).bind fun _ => (Couples.call (hc.makeDirs _)).bind fun _ => Couples.call (hc.copyStatic _ _)

theorem discover : Couples marked R (discover c st) := by
  refine (Couples.call (hc.listFiles _ _)).bind fun paths => ?_
  cases checkNames st.naming [] paths with
  | ok icons => exact .pure icons
  | error e => exact .throw _

theorem readIcons (icons : List Icon) : Couples marked R (readIcons c icons) := by
  induction icons with
  | nil => exact .pure []
  | cons icon rest ih => exact (Couples.call (hc.readText _)).bind fun _ => ih.bind fun _ => .pure _

/-- Starting the children of a batch, one by one, keeps the relation. -/
theorem startAll (markups : List String) {w w' : σ} (h : R w w') :
    R (markups.foldl (fun w markup => c.startOptimizing markup w) w) (markups.foldl (fun w markup => c.startOptimizing markup w) w') := by
  induction markups generalizing w w' with
  | nil => exact h
  | cons markup rest ih => exact ih (hc.startOptimizing markup _ _ h)

/-- Twins end their optimization alike, for what the children say does not depend on the world. -/
theorem optimizeIcons (run : Nat → List Schedule.Job → Schedule.State) (icons : List Icon) (markups : List String) :
    Couples marked R (optimizeIcons run c st icons markups) where
  keeps := by
    intro s hs
    rw [exec_optimizeIcons]
    exact hs
  ends := by
    rintro s s' ⟨hworld, hsame⟩
    rw [exec_optimizeIcons, exec_optimizeIcons, hsame]
    exact .inr ⟨rfl, hc.closeOptimizer _ _ (hc.startAll _ hworld), rfl⟩

theorem formatSource (icon : Icon) (source : String) : Couples marked R (formatSource c icon source) where
  keeps := by
    intro s hs
    rw [exec_formatSource]
    exact hs
  ends := by
    rintro s s' ⟨hworld, hsame⟩
    obtain ⟨hanswer, hafter⟩ := hc.format source _ _ hworld
    rw [exec_formatSource, exec_formatSource, hanswer, hsame]
    exact .inr ⟨rfl, hafter, rfl⟩

theorem writeFile (target : Path) (content : String) : Couples marked R (writeFile c target content) :=
  Couples.call (hc.writeText target content)

theorem emitComponent (icon : Icon) (optimized : String) : Couples marked R (emitComponent c st icon optimized) := by
  unfold Build.emitComponent
  cases Component.render icon.name st.typescript optimized with
  | error cause => exact .throw _
  | ok source =>
    exact (hc.formatSource icon source).bind fun text => (hc.writeFile _ _).bind fun _ => (hc.note _ _).bind fun _ => .pure _

/-- Twins write the same components. -/
theorem emitComponents (inputs : List (Icon × String)) : Couples marked R (emitComponents c st inputs) := by
  induction inputs with
  | nil => exact .pure []
  | cons input rest ih => exact (hc.emitComponent input.1 input.2).bind fun _ => ih.bind fun _ => .pure _

/-- Twins go through the stages behind the optimization alike. -/
theorem publish (icons : List Icon) (optimized : List String) : Couples marked R (publish c st icons optimized) :=
  (hc.emitComponents _).bind fun _ => (hc.writeFile _ _).bind fun _ => (hc.note _ _).bind fun _ => .pure _

/-- Two builds do the same once their outputs have been prepared, unless they make a marked call. -/
theorem build {s s' : Session σ} (run : Nat → List Schedule.Job → Schedule.State)
    (hprepare : ∀ record, Matches marked R (exec (Build.prepare c st) { s with world := c.log record s.world })
      (exec (Build.prepare c st) { s' with world := c.log record s'.world })) :
    Matches marked R (exec (build run c st) s) (exec (build run c st) s') := by
  have hgather : Matches marked R (exec (gather c st) s) (exec (gather c st) s') := by
    unfold gather
    rw [exec_bind_of_ok (exec_note c Log.info _ s), exec_bind_of_ok (exec_note c Log.info _ s')]
    refine (hprepare _).bind fun _ => hc.discover.bind fun icons => (hc.readIcons icons).bind fun markups => ?_
    exact (hc.note _ _).bind fun _ => .pure _
  exact hgather.bind fun found => (hc.optimizeIcons run _ _).bind fun optimized => hc.publish _ _

end Collaborators.Respect

end IconForge.Build
