import IconForge.Proofs.Schedule.Budget
import IconForge.Proofs.Schedule.Failures
import IconForge.Proofs.Schedule.Order

/-!
# Runs that have ended

A run has ended when its agenda is empty. Then every job is done with (`Reachable.phase_eq_done`), so nothing is in flight,
and the records of the jobs say the rest: whoever started was finished or cancelled, and where nothing failed everything was
finished. A scheduler takes every run to such an end (`Scheduler`).
-/

namespace IconForge.Schedule

/-- Nothing is recorded of a job that does not exist. -/
theorem Sound.record_eq_nil {jobs : List Job} {hand : Option Nat} {st : State} {i : Nat} (h : Sound jobs hand st)
    (hi : jobs.length ≤ i) : st.record i = [] := by
  rw [State.record, List.filter_eq_nil_iff]
  intro e he
  have hlt := h.known e he
  simp only [decide_eq_true_eq]
  omega

/-- A job that does not run is not in flight. -/
theorem Fits.inFlight_eq_nil {jobs : List Job} {aborted : Bool} {i : Nat} {p : Phase} {es : List Event}
    (h : Fits jobs aborted i p es) (hr : p ≠ .running) : inFlight es.reverse = [] := by
  cases h with
  | running => exact absurd rfl hr
  | unstarted | finished | failed | cancelled | skipped => simp [inFlight]

/-- Where nobody runs nothing is in flight. -/
theorem Sound.inFlight_eq_nil {jobs : List Job} {st : State} (h : Sound jobs none st) (hp : ∀ i, st.phase i ≠ .running) :
    inFlight st.events = [] := by
  rw [List.eq_nil_iff_forall_not_mem]
  intro i hmem
  have hc := List.count_pos_iff.mpr hmem
  rw [st.count_inFlight i] at hc
  by_cases hi : i < jobs.length
  · rw [(h.record i hi (by simp)).inFlight_eq_nil (hp i)] at hc
    simp at hc
  · rw [h.record_eq_nil (Nat.le_of_not_lt hi)] at hc
    simp [inFlight] at hc

namespace Reachable

variable {slots : Nat} {jobs : List Job} {st : State} {i : Nat}

/-- At the end whoever is not done is in line. -/
theorem phase_eq_inLine (h : Reachable slots jobs st) (ha : st.agenda = []) (hi : st.phase i ≠ .done) :
    st.phase i = .inLine := by
  by_contra hl
  have hdue := h.sound.due i (by simp) ⟨hl, hi⟩
  rw [ha] at hdue
  exact absurd hdue (by simp)

/-- At the end nothing is in flight. -/
theorem inFlight_eq_nil (h : Reachable slots jobs st) (ha : st.agenda = []) : inFlight st.events = [] := by
  refine h.sound.inFlight_eq_nil fun i hi => ?_
  have hl := h.phase_eq_inLine ha (i := i) (by simp [hi])
  simp [hi] at hl

/-- At the end nobody is left in line: a free slot would have been handed over. -/
theorem phase_eq_done (h : Reachable slots jobs st) (hslots : 0 < slots) (ha : st.agenda = []) (i : Nat) :
    st.phase i = .done := by
  by_contra hne
  have hl := h.phase_eq_inLine ha hne
  cases h.ordered with
  | halted hh => exact hh.quiet i hl
  | @live k g w hlay hb =>
    have hp := hlay.pending
    rw [State.pending, ha, List.filterMap_nil, eq_comm, List.append_eq_nil_iff, List.range'_eq_nil_iff,
      List.range'_eq_nil_iff] at hp
    have hbal := hlay.balance
    rw [h.inFlight_eq_nil ha, List.length_nil] at hbal
    have hw : w = 0 := by
      by_contra hw
      have hg := hb (Nat.pos_of_ne_zero hw) (by omega)
      omega
    have hlt : i < jobs.length := h.sound.lt_of_phase_ne_done hne
    rcases hlay.past i (by omega) (by simp) with hr | hd
    · simp [hr] at hl
    · exact hne hd

/-- What is recorded at the end of a job. -/
theorem fits_done (h : Reachable slots jobs st) (hslots : 0 < slots) (ha : st.agenda = []) (hi : i < jobs.length) :
    Fits jobs st.aborted i .done (st.record i) := by
  have hfit := h.sound.record i hi (by simp)
  rwa [h.phase_eq_done hslots ha] at hfit

/-- The jobs that have started are the first ones. -/
theorem started_prefix (h : Reachable slots jobs st) : st.started <+: List.range jobs.length := by
  cases h.ordered with
  | halted hh => exact hh.started
  | @live k g w hlay _ =>
    have hk : k ≤ jobs.length := by have := hlay.total; omega
    rw [hlay.started, ← Nat.min_eq_left hk, ← List.take_range]
    exact List.take_prefix k _

/-- No job is started twice. -/
theorem started_nodup (h : Reachable slots jobs st) : st.started.Nodup :=
  List.nodup_range.sublist h.started_prefix.sublist

/-- At no moment of a run more jobs were in flight than there are slots. -/
theorem bounded (h : Reachable slots jobs st) {past : List Event} (hp : past <:+ st.events) :
    (inFlight past).length ≤ slots := by
  cases h.ordered with
  | halted hh => exact hh.bounded past hp
  | live hlay _ => exact hlay.bounded past hp

/-- At the end every job that has started is exactly one of finished and cancelled. -/
theorem finished_append_cancelled (h : Reachable slots jobs st) (hslots : 0 < slots) (ha : st.agenda = []) :
    (st.finished ++ st.cancelled).Perm st.started := by
  rw [List.perm_iff_count]
  intro i
  rw [List.count_append, st.count_finished, st.count_cancelled, st.count_started]
  by_cases hi : i < jobs.length
  · have hfit := h.fits_done hslots ha hi
    generalize hp : Phase.done = p, st.record i = es at hfit
    cases hfit with
    | unstarted _ hd => exact absurd hp.symm hd
    | running => cases hp
    | finished | failed | cancelled => simp
    | skipped => simp
  · rw [h.sound.record_eq_nil (Nat.le_of_not_lt hi)]
    rfl

/-- At the end every failure has been heard. -/
theorem heard_eq_failures (h : Reachable slots jobs st) (ha : st.agenda = []) : st.heard = st.failures := by
  have hf := h.noted.failures
  rw [ha] at hf
  simpa using hf.symm

/-- Whatever has failed is a failing job. -/
theorem fails_of_mem_failures (h : Reachable slots jobs st) (hslots : 0 < slots) (ha : st.agenda = [])
    (hi : i ∈ st.failures) : ∃ j, jobs[i]? = some j ∧ j.fails = true := by
  have he : Event.failed i ∈ st.history := by
    obtain ⟨e, he, hpick⟩ := List.mem_filterMap.mp hi
    cases e with
    | failed j =>
      cases hpick
      exact he
    | started | finished | cancelled => simp at hpick
  have hr : Event.failed i ∈ st.record i := State.mem_record he
  have hlt : i < jobs.length := h.sound.known _ he
  have hfit := h.fits_done hslots ha hlt
  generalize hes : st.record i = es at hfit hr
  cases hfit with
  | failed hj hf => exact ⟨_, hj, hf⟩
  | unstarted | finished | cancelled | skipped => simp at hr

/-- Where nothing has failed, every job has started and finished, and is none that fails. -/
theorem fits_of_failures_eq_nil (h : Reachable slots jobs st) (hslots : 0 < slots) (ha : st.agenda = [])
    (hf : st.failures = []) (hi : i < jobs.length) :
    st.record i = [.started i, .finished i] ∧ ∃ j, jobs[i]? = some j ∧ j.fails = false := by
  have hab : st.aborted = false := by rw [h.noted.aborted, h.heard_eq_failures ha, hf]; rfl
  have hfit := h.fits_done hslots ha hi
  rw [hab] at hfit
  generalize hes : st.record i = es at hfit
  cases hfit with
  | unstarted _ hd => exact absurd rfl hd
  | finished hj hn => exact ⟨rfl, _, hj, hn⟩
  | failed =>
    have hmem : Event.failed i ∈ st.history := List.mem_of_mem_filter (p := fun e => decide (e.job = i)) (by
      show Event.failed i ∈ st.record i
      simp [hes])
    have hfm : i ∈ st.failures := List.mem_filterMap.mpr ⟨_, hmem, rfl⟩
    rw [hf] at hfm
    exact absurd hfm (by simp)
  | cancelled hc | skipped hc => cases hc

/-- Where nothing has failed all jobs have started, in order. -/
theorem started_eq_range (h : Reachable slots jobs st) (hslots : 0 < slots) (ha : st.agenda = []) (hf : st.failures = []) :
    st.started = List.range jobs.length := by
  refine h.started_prefix.eq_of_length_le ?_
  have hsub : List.range jobs.length ⊆ st.started := by
    intro i hi
    have hr := (h.fits_of_failures_eq_nil hslots ha hf (List.mem_range.mp hi)).1
    refine List.count_pos_iff.mp ?_
    rw [st.count_started, hr]
    simp
  exact List.Nodup.length_le_of_subset List.nodup_range hsub

/-- Where nothing has failed all jobs have finished. -/
theorem finished_perm_range (h : Reachable slots jobs st) (hslots : 0 < slots) (ha : st.agenda = []) (hf : st.failures = []) :
    st.finished.Perm (List.range jobs.length) := by
  have hc : st.cancelled = [] := by
    rw [List.eq_nil_iff_forall_not_mem]
    intro i hi
    have hcount := List.count_pos_iff.mpr hi
    rw [st.count_cancelled] at hcount
    by_cases hlt : i < jobs.length
    · rw [(h.fits_of_failures_eq_nil hslots ha hf hlt).1] at hcount
      simp at hcount
    · rw [h.sound.record_eq_nil (Nat.le_of_not_lt hlt)] at hcount
      simp at hcount
  have hperm := h.finished_append_cancelled hslots ha
  rwa [hc, List.append_nil, h.started_eq_range hslots ha hf] at hperm

end Reachable

/-- A scheduler takes the run of any jobs to its end, in some order of turns. -/
structure Scheduler where
  final : Nat → List Job → State
  reachable : ∀ slots jobs, Reachable slots jobs (final slots jobs)
  ended : ∀ slots jobs, (final slots jobs).agenda = []

/-- The scheduler that counts turns. -/
def Scheduler.counting : Scheduler := ⟨run, run_reachable, run_agenda⟩

/-- Every run that has ended is that of some scheduler. -/
theorem Scheduler.exists_final {slots : Nat} {jobs : List Job} {st : State} (h : Reachable slots jobs st) (ha : st.agenda = []) :
    ∃ sch : Scheduler, sch.final slots jobs = st := by
  refine ⟨⟨fun k js => if k = slots ∧ js = jobs then st else run k js, fun k js => ?_, fun k js => ?_⟩, if_pos ⟨rfl, rfl⟩⟩
  · split
    · rename_i hk
      rw [hk.1, hk.2]
      exact h
    · exact run_reachable k js
  · split
    · exact ha
    · exact run_agenda k js

end IconForge.Schedule
