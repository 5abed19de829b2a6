import IconForge.Proofs.Build.Targets
import IconForge.Proofs.Build.Stages

/-!
# What a build keeps, however it ends

A part of a build preserves a property of the session when the property holds behind it wherever it held before it, whether the
part gives an answer or fails (`Preserves`). What the smallest parts preserve is preserved by the stages that are made of them.
-/

namespace IconForge.Build

/-- A part of a build that keeps a property of the session, whatever its outcome. -/
def Preserves {σ α : Type} (I : Session σ → Prop) (m : BuildM σ α) : Prop := ∀ s, I s → I (exec m s).2

namespace Preserves

variable {σ α β : Type} {I : Session σ → Prop}

theorem pure (a : α) : Preserves I (Pure.pure a : BuildM σ α) := fun _ h => h

theorem throw (e : Failure) : Preserves I (MonadExcept.throw e : BuildM σ α) := fun _ h => h

/-- What a part leaves is kept if what comes behind its answer keeps it. -/
theorem exec_bind {m : BuildM σ α} {f : α → BuildM σ β} {s : Session σ} (h : I (exec m s).2)
    (hf : ∀ a t, exec m s = (.ok a, t) → I t → I (exec (f a) t).2) : I (exec (m >>= f) s).2 := by
  cases hr : exec m s with
  | mk r u =>
    rw [hr] at h
    cases r with
    | ok a =>
      rw [exec_bind_of_ok hr]
      exact hf a u hr h
    | error e =>
      rw [exec_bind_of_error hr]
      exact h

theorem bind {m : BuildM σ α} {f : α → BuildM σ β} (h : Preserves I m) (hf : ∀ a, Preserves I (f a)) : Preserves I (m >>= f) :=
  fun s hs => exec_bind (h s hs) fun a t _ ht => hf a t ht

/-- A call preserves what holds of the session with the world that it leaves and one more exchange. -/
theorem call {request : Call} {reply : α → Reply} {operation : σ → Except Fault α × σ} {expected : FaultKind → Bool}
    {error : String → BuildError}
    (h : ∀ s : Session σ, I s → ∀ answer,
      I { s with world := (operation s.world).2, exchanges := s.exchanges ++ [⟨request, answer⟩] }) :
    Preserves I (call request reply operation expected error) := by
  intro s hs
  rw [exec_call]
  exact h s hs _

/-! ## The stages -/

section
variable {c : Collaborators σ} {st : Settings}

/-- What the reading of any source preserves, the reading of all of them preserves. -/
theorem readIcons (hread : ∀ icon, Preserves I (readIcon c icon)) (icons : List Icon) : Preserves I (readIcons c icons) := by
  induction icons with
  | nil => exact pure []
  | cons icon rest ih => exact (hread icon).bind fun _ => ih.bind fun _ => pure _

/-- The discovery preserves what its listing preserves: the names are judged without a call. -/
theorem discover (hlist : Preserves I (Build.call (.list st.inputDir st.pattern) .files (c.listFiles st.inputDir st.pattern)
    FaultKind.isStorage (.enumerate st.inputDir))) : Preserves I (discover c st) := by
  refine hlist.bind fun paths => ?_
  cases checkNames st.naming [] paths with
  | ok icons => exact pure icons
  | error e => exact throw _

/-- The stages before the optimization preserve what their smallest parts preserve. -/
theorem gather (hnote : ∀ level message, Preserves I (note c level message)) (hprepare : Preserves I (prepare c st))
    (hlist : Preserves I (Build.call (.list st.inputDir st.pattern) .files (c.listFiles st.inputDir st.pattern)
      FaultKind.isStorage (.enumerate st.inputDir)))
    (hread : ∀ icon, Preserves I (readIcon c icon)) : Preserves I (Build.gather c st) :=
  (hnote _ _).bind fun _ => hprepare.bind fun _ => (discover hlist).bind fun icons => (readIcons hread icons).bind fun _ =>
    (hnote _ _).bind fun _ => pure _

/-- Of what a component does only the write to its own target can break a property of the session. -/
theorem emitComponent (hnote : ∀ level message, Preserves I (note c level message))
    (hformat : ∀ icon source, Preserves I (formatSource c icon source)) {icon : Icon}
    (hwrite : ∀ content, Preserves I (writeFile c (componentTarget st icon.name) content)) (optimized : String) :
    Preserves I (emitComponent c st icon optimized) := by
  unfold Build.emitComponent
  cases Component.render icon.name st.typescript optimized with
  | error cause => exact throw _
  | ok source =>
    exact (hformat icon source).bind fun text => (hwrite text).bind fun _ => (hnote _ _).bind fun _ => pure _

/-- The components preserve what formatting, and the writes to their targets, preserve. -/
theorem emitComponents (hnote : ∀ level message, Preserves I (note c level message))
    (hformat : ∀ icon source, Preserves I (formatSource c icon source)) {inputs : List (Icon × String)}
    (hwrite : ∀ input ∈ inputs, ∀ content, Preserves I (writeFile c (componentTarget st input.1.name) content)) :
    Preserves I (emitComponents c st inputs) := by
  induction inputs with
  | nil => exact pure []
  | cons input rest ih =>
    refine (emitComponent hnote hformat (hwrite input List.mem_cons_self) input.2).bind fun _ => ?_
    exact (ih fun input hinput => hwrite input (List.mem_cons_of_mem _ hinput)).bind fun _ => pure _

/-- The stages behind the optimization preserve what the writes to their targets preserve. -/
theorem publish (hnote : ∀ level message, Preserves I (note c level message))
    (hformat : ∀ icon source, Preserves I (formatSource c icon source)) {icons : List Icon}
    (hwrite : ∀ icon ∈ icons, ∀ content, Preserves I (writeFile c (componentTarget st icon.name) content))
    (hindex : ∀ content, Preserves I (writeFile c (indexTarget st) content)) (optimized : List String) :
    Preserves I (publish c st icons optimized) := by
  have hcomponents : Preserves I (Build.emitComponents c st (icons.zip optimized)) :=
    emitComponents hnote hformat fun input hinput => hwrite input.1 (List.of_mem_zip hinput).1
  exact hcomponents.bind fun _ => (hindex _).bind fun _ => (hnote _ _).bind fun _ => pure _

/-- A build keeps what holds once the output has been prepared, if all that comes behind preserves it; components are written for
usable names only. -/
theorem build {s : Session σ} (hprepare : ∀ record, I (exec (prepare c st) { s with world := c.log record s.world }).2)
    (hnote : ∀ level message, Preserves I (note c level message))
    (hlist : Preserves I (Build.call (.list st.inputDir st.pattern) .files (c.listFiles st.inputDir st.pattern)
      FaultKind.isStorage (.enumerate st.inputDir)))
    (hread : ∀ icon, Preserves I (readIcon c icon)) {run : Nat → List Schedule.Job → Schedule.State}
    (hoptimize : ∀ icons markups, Preserves I (optimizeIcons run c st icons markups))
    (hformat : ∀ icon source, Preserves I (formatSource c icon source))
    (hwrite : ∀ name, Component.isUsable name = true → ∀ content, Preserves I (writeFile c (componentTarget st name) content))
    (hindex : ∀ content, Preserves I (writeFile c (indexTarget st) content)) : I (exec (build run c st) s).2 := by
  have hgather : I (exec (Build.gather c st) s).2 := by
    unfold Build.gather
    rw [exec_bind_of_ok (exec_note c Log.info _ s)]
    refine exec_bind (hprepare _) fun _ t _ ht => ?_
    have hrest := (discover hlist).bind fun icons => (readIcons hread icons).bind fun markups =>
      (hnote Log.debug ("Discovered " ++ toString icons.length ++ " icons")).bind fun _ => pure (icons, markups)
    exact hrest t ht
  refine exec_bind hgather fun ⟨icons, markups⟩ t hg ht => ?_
  obtain ⟨paths, rfl, hnamed, -, -⟩ := gather_eq_ok hg
  refine ((hoptimize _ markups).bind fun optimized => publish hnote hformat (fun icon hicon => ?_) hindex optimized) t ht
  obtain ⟨path, hpath, rfl⟩ := List.mem_map.mp hicon
  exact hwrite _ (hnamed.usable path hpath)

end

end Preserves

end IconForge.Build
