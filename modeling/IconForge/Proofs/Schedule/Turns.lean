import IconForge.Proofs.Schedule.Record

/-!
# The runs of a schedule

A run takes turns: the first turn of the agenda, or before it the turn of a running job, which comes whenever its work is
ready. So running jobs go on, finish and fail in any order, while first turns, slots that are handed over and failures keep
theirs. `Reachable` are the states that some run gets to, however long the jobs take; the run that counts turns is one of
them (`run_reachable`).
-/

namespace IconForge.Schedule

/-- What a job may do at a turn: it may wait as long as it likes, and at its end it fails exactly if it is a failing one. -/
def Job.Allows (j : Job) : Move → Prop
  | .wait => True
  | .finish => j.fails = false
  | .fail => j.fails = true

namespace State

/-- A turn that may come next. -/
def Due (st : State) (t : Turn) : Prop :=
  st.agenda.head? = some t ∨ t ∈ st.agenda ∧ ∃ i, t = .job i ∧ st.phase i = .running

/-- The agenda without a turn. -/
def drop (st : State) (t : Turn) : State := { st with agenda := st.agenda.erase t }

/-- A turn is taken, wherever it stands on the agenda. -/
def take (st : State) : Turn → Move → State
  | .job i, m => (st.drop (.job i)).jobTurn i m
  | .failure i, _ => (st.drop (.failure i)).failureTurn i

/-- A step takes the first turn of the agenda. -/
theorem step_eq_take {st : State} {t : Turn} {rest : List Turn} (h : st.agenda = t :: rest) (m : Move) :
    st.step m = st.take t m := by
  cases t <;> simp [step, take, drop, h]

/-- A turn that may come next is on the agenda. -/
theorem Due.mem {st : State} {t : Turn} (h : st.Due t) : t ∈ st.agenda := by
  rcases h with h | ⟨h, -⟩
  · exact List.mem_of_mem_head? h
  · exact h

end State

/-- The states that the runs of some jobs get to. -/
inductive Reachable (slots : Nat) (jobs : List Job) : State → Prop where
  | initial : Reachable slots jobs (.initial jobs.length slots)
  | turn {st : State} {t : Turn} {m : Move} : Reachable slots jobs st → st.Due t →
      (∀ i j, t = .job i → jobs[i]? = some j → j.Allows m) → Reachable slots jobs (st.take t m)

/-! ## The run that counts turns is a run -/

/-- The move of a job that counts its turns is one that it may make. -/
theorem move_allows (j : Job) (waited : Nat) : j.Allows (j.move waited) := by
  unfold Job.move
  split
  · trivial
  · split
    · assumption
    · rename_i hf
      exact Bool.eq_false_iff.mpr hf

/-- A step of the run that counts turns is a turn. -/
theorem Reachable.step {slots : Nat} {jobs : List Job} {st : State} (h : Reachable slots jobs st) (waited : List Nat) :
    Reachable slots jobs (st.step (nextMove jobs waited st)) := by
  cases ha : st.agenda with
  | nil =>
    have hst : st.step (nextMove jobs waited st) = st := by simp only [State.step, ha]
    rw [hst]
    exact h
  | cons t rest =>
    rw [State.step_eq_take ha]
    refine .turn h (.inl (by rw [ha]; rfl)) ?_
    intro i j ht hj
    subst ht
    simp only [nextMove, ha, hj, Option.getD_some]
    exact move_allows j _

/-- Every turn is a step, so a run only goes through states that can be reached. -/
theorem runTurns_reachable {slots : Nat} {jobs : List Job} (fuel : Nat) (waited : List Nat) {st : State}
    (h : Reachable slots jobs st) : Reachable slots jobs (runTurns jobs fuel waited st) := by
  induction fuel generalizing waited st with
  | zero => exact h
  | succ fuel ih =>
    simp only [runTurns]
    split
    · exact h
    · exact ih _ (h.step waited)

/-- The run that counts turns gets to a state that runs get to. -/
theorem run_reachable (slots : Nat) (jobs : List Job) : Reachable slots jobs (run slots jobs) :=
  runTurns_reachable _ _ .initial

/-! ## What the operations on a state change -/

/-- What is picked from an agenda does not depend on a turn of which nothing is picked. -/
theorem filterMap_erase_of_eq_none {pick : Turn → Option Nat} {t : Turn} (h : pick t = none) (agenda : List Turn) :
    (agenda.erase t).filterMap pick = agenda.filterMap pick := by
  induction agenda with
  | nil => rfl
  | cons t' rest ih =>
    by_cases ht : t' = t
    · subst ht
      rw [List.erase_cons_head, List.filterMap_cons_none h]
    · rw [List.erase_cons_tail (by simpa using ht)]
      simp only [List.filterMap_cons, ih]

namespace State

theorem phase_setPhase_self {st : State} {i : Nat} (h : i < st.phases.length) (p : Phase) : (st.setPhase i p).phase i = p := by
  simp [phase, setPhase, h]

/-- Setting the phase of one job leaves the others in theirs. -/
theorem phase_setPhase_of_ne (st : State) {i j : Nat} (h : j ≠ i) (p : Phase) : (st.setPhase i p).phase j = st.phase j := by
  simp [phase, setPhase, List.getElem?_set_ne (Ne.symm h)]

/-- There is nothing to do for a job that does not exist. -/
theorem phase_of_length_le {st : State} {i : Nat} (h : st.phases.length ≤ i) : st.phase i = .done := by
  simp [phase, List.getElem?_eq_none h]

/-- Only jobs that there are have anything left to do. -/
theorem lt_of_phase_ne_done {st : State} {i : Nat} (h : st.phase i ≠ .done) : i < st.phases.length :=
  Nat.lt_of_not_le fun hi => h (phase_of_length_le hi)

/-- Once the run is aborted a turn brings a job to its end, and gives back the slot that it has. -/
theorem jobTurn_of_aborted {st : State} (ha : st.aborted = true) (i : Nat) (m : Move) :
    st.jobTurn i m = match st.phase i with
      | .fresh => st.setPhase i .done
      | .granted => ({ st with line := st.line.filter (· != i) }.setPhase i .done).release
      | .leaving => { st.setPhase i .done with line := st.line.filter (· != i) }
      | .running => ((st.emit (.cancelled i)).setPhase i .done).release
      | .inLine | .done => st := by
  unfold jobTurn
  cases st.phase i <;> simp [ha]

/-- A job in line does nothing when it has its turn. -/
theorem jobTurn_of_inLine {st : State} {i : Nat} (hp : st.phase i = .inLine) (m : Move) : st.jobTurn i m = st := by
  unfold jobTurn
  simp only [hp]

/-- A job that leaves is done, and gets out of the line. -/
theorem jobTurn_of_leaving {st : State} {i : Nat} (hp : st.phase i = .leaving) (m : Move) :
    st.jobTurn i m = { st.setPhase i .done with line := st.line.filter (· != i) } := by
  unfold jobTurn
  simp only [hp]

/-- A fresh job takes a free slot when nobody waits for one, and gets in line otherwise. -/
theorem jobTurn_of_fresh {st : State} {i : Nat} (hp : st.phase i = .fresh) (ha : st.aborted = false) (m : Move) :
    st.jobTurn i m = if 0 < st.free && st.line.isEmpty then { st with free := st.free - 1 }.start i m
      else { st.setPhase i .inLine with line := st.line ++ [i] } := by
  unfold jobTurn
  simp only [hp]
  rw [if_neg (by simp [ha])]

/-- A job that has been granted a slot leaves the line and starts; it wakes the next one as long as slots are free. -/
theorem jobTurn_of_granted {st : State} {i : Nat} (hp : st.phase i = .granted) (ha : st.aborted = false) (m : Move) :
    st.jobTurn i m = (if 0 < st.free then { st with line := st.line.filter (· != i) }.wakeNext
      else { st with line := st.line.filter (· != i) }).start i m := by
  unfold jobTurn
  simp only [hp]
  rw [if_neg (by simp [ha])]

/-- A running job goes on. -/
theorem jobTurn_of_running {st : State} {i : Nat} (hp : st.phase i = .running) (ha : st.aborted = false) (m : Move) :
    st.jobTurn i m = st.act i m := by
  unfold jobTurn
  simp only [hp]
  rw [if_neg (by simp [ha])]

/-- A job that is done does nothing any more. -/
theorem jobTurn_of_done {st : State} {i : Nat} (hp : st.phase i = .done) (m : Move) : st.jobTurn i m = st := by
  unfold jobTurn
  simp only [hp]

/-- A free slot is handed to a job in line, or to nobody. -/
theorem wakeNext_cases (st : State) : st.wakeNext = st ∨ ∃ i, st.phase i = .inLine ∧
    st.wakeNext = { (st.setPhase i .granted).enqueue (.job i) with free := st.free - 1 } := by
  unfold wakeNext
  split
  · exact .inl rfl
  · rename_i i hi
    exact .inr ⟨i, by simpa using List.find?_some hi, rfl⟩

/-- Handing over a slot concerns a job in line only. -/
theorem phase_wakeNext {st : State} {i : Nat} (h : st.phase i ≠ .inLine) : st.wakeNext.phase i = st.phase i := by
  rcases wakeNext_cases st with hst | ⟨j, hj, hst⟩
  · rw [hst]
  · have hij : i ≠ j := fun hij => h (hij ▸ hj)
    rw [hst]
    exact phase_setPhase_of_ne st hij _

@[simp] theorem length_phases_wakeNext (st : State) : st.wakeNext.phases.length = st.phases.length := by
  rcases wakeNext_cases st with hst | ⟨j, -, hst⟩ <;> rw [hst]
  simp [setPhase, enqueue]

/-- Where nobody is in line, a free slot stays free. -/
theorem wakeNext_of_none_inLine {st : State} (h : ∀ i, st.phase i ≠ .inLine) : st.wakeNext = st := by
  rcases wakeNext_cases st with hst | ⟨i, hi, -⟩
  · exact hst
  · exact absurd hi (h i)

/-- Waking the next job does not depend on the events so far. -/
theorem wakeNext_emit (st : State) (e : Event) : (st.emit e).wakeNext = st.wakeNext.emit e := by
  have hfind : (st.emit e).line.find? (fun i => (st.emit e).phase i == .inLine)
      = st.line.find? (fun i => st.phase i == .inLine) := rfl
  unfold wakeNext
  rw [hfind]
  cases st.line.find? (fun i => st.phase i == .inLine) <;> rfl

/-- An abort sends off the jobs in line and touches no other. -/
theorem phase_abort (st : State) (i : Nat) :
    st.abort.phase i = if st.phase i = .inLine then .leaving else st.phase i := by
  cases hp : st.phases[i]? with
  | none => simp [phase, abort, hp]
  | some p => simp [phase, abort, hp]

/-- Handing over a slot records nothing. -/
@[simp] theorem events_wakeNext (st : State) : st.wakeNext.events = st.events := by
  rcases wakeNext_cases st with h | ⟨i, -, h⟩ <;> rw [h]
  rfl

@[simp] theorem record_wakeNext (st : State) (i : Nat) : st.wakeNext.record i = st.record i := by
  simp [record, history]

end State

end IconForge.Schedule
