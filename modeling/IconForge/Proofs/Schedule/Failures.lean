import IconForge.Proofs.Schedule.Turns

/-!
# Failures are heard in the order in which they happen

A failure that has happened has been heard or stands on the agenda, and the failures keep their order on the way (`Noted`).
Only between its happening and its being put on the agenda a failure is in hand. So when the agenda is empty the first
failure that was heard is the first one that happened.
-/

namespace IconForge.Schedule

/-- The failure that is heard at a turn. -/
def Turn.failure? : Turn → Option Nat
  | .job _ => none
  | .failure i => some i

/-- The failures that have happened are those that were heard, followed by those that are on the agenda and the one in hand;
the run is aborted as soon as one was heard. -/
structure Noted (hand : Option Nat) (st : State) : Prop where
  failures : st.failures = st.heard ++ st.agenda.filterMap Turn.failure? ++ hand.toList
  aborted : st.aborted = !st.heard.isEmpty

namespace Noted

variable {hand : Option Nat} {st : State}

theorem initial (jobs slots : Nat) : Noted none (.initial jobs slots) where
  failures := by
    have h : ((List.range jobs).map Turn.job).filterMap Turn.failure? = [] := by simp [Turn.failure?]
    simp [State.initial, State.failures, State.history, h]
  aborted := rfl

theorem drop (h : Noted hand st) (i : Nat) : Noted hand (st.drop (.job i)) where
  failures := by
    have he : (st.drop (.job i)).agenda.filterMap Turn.failure? = st.agenda.filterMap Turn.failure? :=
      filterMap_erase_of_eq_none rfl st.agenda
    rw [he]
    exact h.failures
  aborted := h.aborted

theorem enqueue (h : Noted hand st) (i : Nat) : Noted hand (st.enqueue (.job i)) where
  failures := h.failures.trans (by simp [State.enqueue, Turn.failure?])
  aborted := h.aborted

/-- Where the jobs stand does not matter. -/
theorem setPhase (h : Noted hand st) (i : Nat) (p : Phase) : Noted hand (st.setPhase i p) := ⟨h.failures, h.aborted⟩

/-- The slots and the line do not matter. -/
theorem slots (h : Noted hand st) (free : Nat) (line : List Nat) : Noted hand { st with free, line } :=
  ⟨h.failures, h.aborted⟩

theorem emit (h : Noted hand st) {e : Event} (he : ∀ i, e ≠ .failed i) : Noted hand (st.emit e) where
  failures := by
    have hf : (st.emit e).failures = st.failures := by
      unfold State.failures
      rw [State.history_emit]
      cases e with
      | failed i => exact absurd rfl (he i)
      | started | finished | cancelled => simp
    exact hf.trans h.failures
  aborted := h.aborted

theorem wakeNext (h : Noted hand st) : Noted hand st.wakeNext := by
  rcases State.wakeNext_cases st with hst | ⟨i, -, hst⟩ <;> rw [hst]
  · exact h
  · exact ((h.setPhase i .granted).enqueue i).slots (st.free - 1) st.line

theorem release (h : Noted hand st) : Noted hand st.release := (h.slots (st.free + 1) st.line).wakeNext

/-- A failure that happens is in hand. -/
theorem emit_failed (h : Noted none st) (i : Nat) : Noted (some i) (st.emit (.failed i)) where
  failures := by
    have hf : (st.emit (.failed i)).failures = st.failures ++ [i] := by simp [State.failures]
    rw [hf, h.failures, Option.toList_none, List.append_nil]
    rfl
  aborted := h.aborted

/-- The failure in hand is put on the agenda. -/
theorem enqueue_failure {i : Nat} (h : Noted (some i) st) : Noted none (st.enqueue (.failure i)) where
  failures := h.failures.trans (by simp [State.enqueue, Turn.failure?])
  aborted := h.aborted

/-- A move of a job keeps failures and notes in step. -/
theorem act (h : Noted none st) (i : Nat) (m : Move) : Noted none (st.act i m) := by
  cases m with
  | wait => exact (h.setPhase i .running).enqueue i
  | finish => exact ((h.emit (by simp)).setPhase i .done).release
  | fail => exact ((h.emit_failed i).setPhase i .done).release.enqueue_failure

theorem start (h : Noted none st) (i : Nat) (m : Move) : Noted none (st.start i m) := (h.emit (by simp)).act i m

/-- A turn of a job keeps failures and notes in step. -/
theorem jobTurn (h : Noted none st) (i : Nat) (m : Move) : Noted none (st.jobTurn i m) := by
  unfold State.jobTurn
  split
  · split
    · exact h.setPhase i .done
    · split
      · exact (h.slots (st.free - 1) st.line).start i m
      · exact (h.setPhase i .inLine).slots st.free (st.line ++ [i])
  · have hl := h.slots st.free (st.line.filter (· != i))
    simp only
    split
    · exact (hl.setPhase i .done).release
    · split
      · exact hl.wakeNext.start i m
      · exact hl.start i m
  · exact (h.setPhase i .done).slots st.free (st.line.filter (· != i))
  · split
    · exact ((h.emit (by simp)).setPhase i .done).release
    · exact h.act i m
  · exact h
  · exact h

/-- The first failure on the agenda is heard. -/
theorem failureTurn {i : Nat} (h : Noted none st) (hi : st.agenda.head? = some (.failure i)) :
    Noted none ((st.drop (.failure i)).failureTurn i) := by
  obtain ⟨rest, hrest⟩ : ∃ rest, st.agenda = .failure i :: rest := List.head?_eq_some_iff.mp hi
  have hf : st.failures = (st.heard ++ [i]) ++ rest.filterMap Turn.failure? := by
    rw [h.failures, hrest]
    simp [Turn.failure?]
  have hd : (st.drop (.failure i)).agenda = rest := by simp [State.drop, hrest]
  unfold State.failureTurn
  split
  · rename_i ha
    refine ⟨?_, ?_⟩
    · show st.failures = (st.heard ++ [i]) ++ (st.drop (.failure i)).agenda.filterMap Turn.failure? ++ []
      rw [hd, List.append_nil]
      exact hf
    · show (st.drop (.failure i)).aborted = !(st.heard ++ [i]).isEmpty
      simp [ha]
  · refine ⟨?_, ?_⟩
    · show st.failures = (st.heard ++ [i]) ++ (st.drop (.failure i)).abort.agenda.filterMap Turn.failure? ++ []
      have hj : ∀ js : List Nat, (js.map Turn.job).filterMap Turn.failure? = [] := by simp [Turn.failure?]
      simp only [State.abort, List.filterMap_append, hd, hj, List.append_nil]
      exact hf
    · show true = !(st.heard ++ [i]).isEmpty
      simp

end Noted

/-- In every state that a run gets to the failures are noted. -/
theorem Reachable.noted {slots : Nat} {jobs : List Job} {st : State} (h : Reachable slots jobs st) : Noted none st := by
  induction h with
  | initial => exact Noted.initial jobs.length slots
  | @turn st t m _ hdue _ ih =>
    cases t with
    | job i => exact (ih.drop i).jobTurn i m
    | failure i =>
      rcases hdue with hhead | ⟨-, j, hj, -⟩
      · exact ih.failureTurn hhead
      · cases hj

end IconForge.Schedule
