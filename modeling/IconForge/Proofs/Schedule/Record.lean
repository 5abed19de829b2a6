import IconForge.Build.Schedule

/-!
# What a run has recorded

The events of a run, as a whole and job by job: which jobs are in flight, which have started, ended or been cancelled, and
what has happened to one job. The lists over all jobs are read off the records of the single jobs (`count_filterMap_record`,
`count_inFlight_record`), so a fact about one job at a time is enough to know them.
-/

namespace IconForge.Schedule

/-- The job that an event is about. -/
def Event.job : Event → Nat
  | .started i | .finished i | .failed i | .cancelled i => i

/-- The jobs in flight behind some events, the last event first: those that have started and neither ended nor been
cancelled. -/
def inFlight : List Event → List Nat
  | [] => []
  | .started i :: past => i :: inFlight past
  | .finished i :: past | .failed i :: past | .cancelled i :: past => (inFlight past).erase i

namespace State

/-- The jobs that have come to their end, in order; failing is an end, too. -/
def finished (st : State) : List Nat :=
  st.history.filterMap fun
    | .finished i | .failed i => some i
    | _ => none

/-- The jobs that have failed, in order. -/
def failures (st : State) : List Nat :=
  st.history.filterMap fun
    | .failed i => some i
    | _ => none

/-- The jobs that have been cancelled, in order. -/
def cancelled (st : State) : List Nat :=
  st.history.filterMap fun
    | .cancelled i => some i
    | _ => none

/-- What has happened to one job, in order. -/
def record (st : State) (i : Nat) : List Event := st.history.filter (·.job = i)

/-- A new event comes last. -/
@[simp] theorem history_emit (st : State) (e : Event) : (st.emit e).history = st.history ++ [e] := by
  simp [history, emit]

/-- A new event goes into the record of its own job. -/
theorem record_emit_self (st : State) (e : Event) : (st.emit e).record e.job = st.record e.job ++ [e] := by
  simp [record]

/-- A new event leaves the records of the other jobs alone. -/
theorem record_emit_of_ne (st : State) {e : Event} {i : Nat} (h : i ≠ e.job) : (st.emit e).record i = st.record i := by
  simp [record, Ne.symm h]

/-- A job that an event is about has that event in its record. -/
theorem mem_record {st : State} {e : Event} (h : e ∈ st.history) : e ∈ st.record e.job := by
  simp [record, h]

end State

/-! ## From the records of the jobs to the lists of all jobs -/

/-- How often a job is picked from some events depends on its own events only. -/
theorem count_filterMap_record {pick : Event → Option Nat} (h : ∀ e i, pick e = some i → e.job = i) (es : List Event) (i : Nat) :
    (es.filterMap pick).count i = ((es.filter (·.job = i)).filterMap pick).count i := by
  induction es with
  | nil => rfl
  | cons e es ih =>
    by_cases he : e.job = i
    · simp only [List.filter_cons, he, decide_true, if_true, List.filterMap_cons]
      cases pick e with
      | none => exact ih
      | some j => simp only [List.count_cons, ih]
    · simp only [List.filter_cons, he, decide_false, Bool.false_eq_true, if_false, List.filterMap_cons]
      cases hp : pick e with
      | none => exact ih
      | some j =>
        have hj : j ≠ i := fun hji => he ((h e j hp).trans hji)
        simp only [List.count_cons_of_ne hj, ih]

/-- How often a job is in flight depends on its own events only. -/
theorem count_inFlight_record (es : List Event) (i : Nat) :
    (inFlight es).count i = (inFlight (es.filter (·.job = i))).count i := by
  induction es with
  | nil => rfl
  | cons e es ih =>
    cases e with
    | started j =>
      by_cases hj : j = i <;> simp [inFlight, Event.job, hj, ih]
    | finished j =>
      by_cases hj : j = i <;> simp [inFlight, Event.job, hj, ih, List.count_erase]
    | failed j =>
      by_cases hj : j = i <;> simp [inFlight, Event.job, hj, ih, List.count_erase]
    | cancelled j =>
      by_cases hj : j = i <;> simp [inFlight, Event.job, hj, ih, List.count_erase]

namespace State

variable (st : State) (i : Nat)

/-- How often a job has been started is told by its record. -/
theorem count_started : st.started.count i = ((st.record i).filterMap fun
    | .started j => some j
    | _ => none).count i :=
  count_filterMap_record (by rintro (_ | _ | _ | _) j h <;> simp_all [Event.job]) st.history i

/-- How often a job has ended is told by its record. -/
theorem count_finished : st.finished.count i = ((st.record i).filterMap fun
    | .finished j | .failed j => some j
    | _ => none).count i :=
  count_filterMap_record (by rintro (_ | _ | _ | _) j h <;> simp_all [Event.job]) st.history i

/-- How often a job has been cancelled is told by its record. -/
theorem count_cancelled : st.cancelled.count i = ((st.record i).filterMap fun
    | .cancelled j => some j
    | _ => none).count i :=
  count_filterMap_record (by rintro (_ | _ | _ | _) j h <;> simp_all [Event.job]) st.history i

/-- Whether a job is in flight is told by its record. -/
theorem count_inFlight : (inFlight st.events).count i = (inFlight (st.record i).reverse).count i := by
  rw [count_inFlight_record, record, history, List.filter_reverse, List.reverse_reverse]

end State

end IconForge.Schedule
