import IconForge.Build.Run

/-!
# The steps of a build, run

A part of a build is run on a session (`exec`) and gives an answer or a failure. Running a sequence of parts is read
backwards: what it gave was given by its parts, one after the other, or by the first part that failed (`exec_bind_eq_ok`,
`exec_bind_eq_error`). Most parts only add to what the session holds of the disk and of the formatter (`Session.Adds`).
-/

namespace IconForge.Build

variable {σ α β : Type}

/-- The answer or failure of a part of a build, and the session it leaves. -/
def exec (m : BuildM σ α) (s : Session σ) : Except Failure α × Session σ := m.run.run s

theorem exec_modify (f : Session σ → Session σ) (s : Session σ) : exec (modify f) s = (.ok (), f s) := rfl

/-- A part goes on where the one before it has left the session. -/
theorem exec_bind_of_ok {m : BuildM σ α} {a : α} {s t : Session σ} (h : exec m s = (.ok a, t)) (f : α → BuildM σ β) :
    exec (m >>= f) s = exec (f a) t := by
  simp only [exec, ExceptT.run, StateT.run] at h
  simp only [exec, ExceptT.run, StateT.run, bind, ExceptT.bind, ExceptT.mk, StateT.bind, h, ExceptT.bindCont]

/-- A failure ends a build. -/
theorem exec_bind_of_error {m : BuildM σ α} {e : Failure} {s t : Session σ} (h : exec m s = (.error e, t)) (f : α → BuildM σ β) :
    exec (m >>= f) s = (.error e, t) := by
  simp only [exec, ExceptT.run, StateT.run] at h
  simp only [exec, ExceptT.run, StateT.run, bind, ExceptT.bind, ExceptT.mk, StateT.bind, h, ExceptT.bindCont]
  rfl

/-- A sequence gives an answer when both parts do. -/
theorem exec_bind_eq_ok {m : BuildM σ α} {f : α → BuildM σ β} {s t : Session σ} {b : β} (h : exec (m >>= f) s = (.ok b, t)) :
    ∃ a u, exec m s = (.ok a, u) ∧ exec (f a) u = (.ok b, t) := by
  cases hm : exec m s with
  | mk r u =>
    cases r with
    | ok a => exact ⟨a, u, rfl, by rw [← exec_bind_of_ok hm, h]⟩
    | error e =>
      rw [exec_bind_of_error hm] at h
      cases h

/-- A sequence fails when its first part fails, or the other one behind it. -/
theorem exec_bind_eq_error {m : BuildM σ α} {f : α → BuildM σ β} {s t : Session σ} {e : Failure}
    (h : exec (m >>= f) s = (.error e, t)) :
    exec m s = (.error e, t) ∨ ∃ a u, exec m s = (.ok a, u) ∧ exec (f a) u = (.error e, t) := by
  cases hm : exec m s with
  | mk r u =>
    cases r with
    | ok a => exact .inr ⟨a, u, rfl, by rw [← exec_bind_of_ok hm, h]⟩
    | error e' =>
      rw [exec_bind_of_error hm] at h
      cases h
      exact .inl rfl

/-- An answer that is there is the answer. -/
theorem eq_ok_of_toOption {ε α : Type} {x : Except ε α} {a : α} (h : x.toOption = some a) : x = .ok a := by
  cases x with
  | error e => cases h
  | ok b => exact congrArg Except.ok (Option.some.inj h)

/-- The texts that the optimizer was called with, in the order of the calls. -/
def Session.optimizerCalls (s : Session σ) : List String :=
  s.history.filterMap fun
    | .started i => s.submitted[i]?
    | _ => none

/-- The places of the icons whose optimizations failed, in the order of the failures. -/
def Session.failedOptimizations (s : Session σ) : List Nat :=
  s.history.filterMap fun
    | .failed i => some i
    | _ => none

/-- What a part of a build adds to a session: exchanges with the disk, and formattings. The record of the
optimizations stays. -/
structure Session.Adds (s t : Session σ) (es : List Exchange) (fs : List Formatting) : Prop where
  exchanges : t.exchanges = s.exchanges ++ es
  formattings : t.formattings = s.formattings ++ fs
  submitted : t.submitted = s.submitted
  history : t.history = s.history

namespace Session.Adds

variable {s t u : Session σ} {es es' : List Exchange} {fs fs' : List Formatting}

theorem refl (s : Session σ) : s.Adds s [] [] := ⟨by simp, by simp, rfl, rfl⟩

/-- What two parts add they add one behind the other. -/
theorem trans (h : s.Adds t es fs) (h' : t.Adds u es' fs') : s.Adds u (es ++ es') (fs ++ fs') where
  exchanges := by rw [h'.exchanges, h.exchanges, List.append_assoc]
  formattings := by rw [h'.formattings, h.formattings, List.append_assoc]
  submitted := h'.submitted.trans h.submitted
  history := h'.history.trans h.history

/-- Behind a part that adds nothing. -/
theorem after (h : s.Adds t [] []) (h' : t.Adds u es fs) : s.Adds u es fs := by
  simpa using h.trans h'

/-- Before a part that adds nothing. -/
theorem before (h : s.Adds t es fs) (h' : t.Adds u [] []) : s.Adds u es fs := by
  simpa using h.trans h'

/-- The optimizer is called for nothing more. -/
theorem optimizerCalls (h : s.Adds t es fs) : t.optimizerCalls = s.optimizerCalls := by
  simp only [Session.optimizerCalls, h.history, h.submitted]

end Session.Adds

/-! ## The smallest parts -/

/-- Logging does not fail. -/
theorem exec_note (c : Collaborators σ) (level : Int) (message : String) (s : Session σ) :
    exec (note c level message) s =
      (.ok (), { s with world := c.log ⟨Log.loggerOf (some "orchestrator"), level, message⟩ s.world }) := rfl

/-- Logging adds nothing. -/
theorem adds_of_note {c : Collaborators σ} {level : Int} {message : String} {s t : Session σ} {r : Except Failure Unit}
    (h : exec (note c level message) s = (r, t)) : s.Adds t [] [] := by
  cases h
  exact ⟨by simp, by simp, rfl, rfl⟩

section
variable {s t : Session σ} {request : Call} {reply : α → Reply} {operation : σ → Except Fault α × σ} {expected : FaultKind → Bool}
  {error : String → BuildError}

/-- A call adds one exchange, and answers as the disk does. -/
theorem exec_call (request : Call) (reply : α → Reply) (operation : σ → Except Fault α × σ) (expected : FaultKind → Bool)
    (error : String → BuildError) (s : Session σ) :
    exec (call request reply operation expected error) s =
      (match (operation s.world).1 with
        | .ok a => .ok a
        | .error f => .error (faultFailure expected error f),
       { s with
          world := (operation s.world).2
          exchanges := s.exchanges ++ [⟨request, (operation s.world).1.map reply⟩] }) := by
  have hrun : exec (call request reply operation expected error) s =
      exec (match (operation s.world).1 with
        | .ok a => pure a
        | .error f => throw (faultFailure expected error f) : BuildM σ α)
        { s with
          world := (operation s.world).2
          exchanges := s.exchanges ++ [⟨request, (operation s.world).1.map reply⟩] } := rfl
  rw [hrun]
  cases (operation s.world).1 <;> rfl

/-- A call that gives an answer records it, and the operation gave that answer. -/
theorem exec_call_eq_ok {a : α} (h : exec (call request reply operation expected error) s = (.ok a, t)) :
    s.Adds t [⟨request, .ok (reply a)⟩] [] ∧ (operation s.world).1 = .ok a := by
  rw [exec_call] at h
  cases ho : (operation s.world).1 with
  | ok a' =>
    simp only [ho, Prod.mk.injEq, Except.ok.injEq] at h
    obtain ⟨rfl, rfl⟩ := h
    exact ⟨⟨rfl, by simp, rfl, rfl⟩, rfl⟩
  | error f => simp [ho] at h

/-- A call that fails records the fault, and ends with the failure that the call makes of it. -/
theorem exec_call_eq_error {e : Failure} (h : exec (call request reply operation expected error) s = (.error e, t)) :
    ∃ f, s.Adds t [⟨request, .error f⟩] [] ∧ (operation s.world).1 = .error f ∧ e = faultFailure expected error f := by
  rw [exec_call] at h
  cases ho : (operation s.world).1 with
  | ok a' => simp [ho] at h
  | error f =>
    simp only [ho, Prod.mk.injEq, Except.error.injEq] at h
    obtain ⟨rfl, rfl⟩ := h
    exact ⟨f, ⟨rfl, by simp, rfl, rfl⟩, rfl, rfl⟩

end

/-- Formatting adds one formatting, and answers as the formatter does. -/
theorem exec_formatSource (c : Collaborators σ) (icon : Icon) (source : String) (s : Session σ) :
    exec (formatSource c icon source) s =
      (match (c.format source s.world).1 with
        | .ok text => .ok text
        | .error e => .error (e.failure (.format icon.path)),
       { s with
          world := (c.format source s.world).2
          formattings := s.formattings ++ [⟨source, (c.format source s.world).1⟩] }) := by
  have hrun : exec (formatSource c icon source) s =
      exec (match (c.format source s.world).1 with
        | .ok text => pure text
        | .error e => throw (e.failure (.format icon.path)) : BuildM σ String)
        { s with
          world := (c.format source s.world).2
          formattings := s.formattings ++ [⟨source, (c.format source s.world).1⟩] } := rfl
  rw [hrun]
  cases (c.format source s.world).1 <;> rfl

end IconForge.Build
