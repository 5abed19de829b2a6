import IconForge.Proofs.Schedule.Turns

/-!
# The records of the jobs are in order

In every state that a run gets to, what is recorded of a job fits where the job stands (`Fits`), and a job that has something
to do is on the agenda. During its turn a job is in hand: it is off the agenda, and nothing is said about it. Every operation
of a turn keeps `Sound` or brings the job in hand back, so a turn keeps it (`Sound.jobTurn`, `Sound.failureTurn`).
-/

namespace IconForge.Schedule

/-- What is recorded of a job that stands somewhere, in a run that is aborted or not. -/
inductive Fits (jobs : List Job) (aborted : Bool) (i : Nat) : Phase → List Event → Prop where
  | unstarted {p : Phase} : p ≠ .running → p ≠ .done → (p = .leaving → aborted = true) → Fits jobs aborted i p []
  | running : Fits jobs aborted i .running [.started i]
  | finished {j : Job} : jobs[i]? = some j → j.fails = false → Fits jobs aborted i .done [.started i, .finished i]
  | failed {j : Job} : jobs[i]? = some j → j.fails = true → Fits jobs aborted i .done [.started i, .failed i]
  | cancelled : aborted = true → Fits jobs aborted i .done [.started i, .cancelled i]
  | skipped : aborted = true → Fits jobs aborted i .done []

/-- What fits goes on fitting when the run is aborted. -/
theorem Fits.abort {jobs : List Job} {aborted : Bool} {i : Nat} {p : Phase} {es : List Event} (h : Fits jobs aborted i p es) :
    Fits jobs true i p es := by
  cases h with
  | unstarted hr hd => exact .unstarted hr hd (fun _ => rfl)
  | running => exact .running
  | finished hj hf => exact .finished hj hf
  | failed hj hf => exact .failed hj hf
  | cancelled => exact .cancelled rfl
  | skipped => exact .skipped rfl

/-- Nothing is recorded of a job that neither runs nor is done. -/
theorem Fits.eq_nil {jobs : List Job} {aborted : Bool} {i : Nat} {p : Phase} {es : List Event} (h : Fits jobs aborted i p es)
    (hr : p ≠ .running) (hd : p ≠ .done) : es = [] := by
  cases h with
  | unstarted => rfl
  | running => exact absurd rfl hr
  | finished => exact absurd rfl hd
  | failed => exact absurd rfl hd
  | cancelled => exact absurd rfl hd
  | skipped => rfl

/-- A job leaves only an aborted run. -/
theorem Fits.aborted_of_leaving {jobs : List Job} {aborted : Bool} {i : Nat} {es : List Event}
    (h : Fits jobs aborted i .leaving es) : aborted = true := by
  cases h with
  | unstarted _ _ hl => exact hl rfl

/-- A running job has started. -/
theorem Fits.eq_started {jobs : List Job} {aborted : Bool} {i : Nat} {es : List Event} (h : Fits jobs aborted i .running es) :
    es = [.started i] := by
  cases h with
  | unstarted hr => exact absurd rfl hr
  | running => rfl

/-- A job in this phase has a turn to come: it neither waits for a slot nor is done. -/
def Phase.IsActive (p : Phase) : Prop := p ≠ .inLine ∧ p ≠ .done

/-- Every job but the one in hand has a record that fits, and a turn on the agenda when it is active. -/
structure Sound (jobs : List Job) (hand : Option Nat) (st : State) : Prop where
  size : st.phases.length = jobs.length
  record : ∀ i < jobs.length, hand ≠ some i → Fits jobs st.aborted i (st.phase i) (st.record i)
  known : ∀ e ∈ st.history, e.job < jobs.length
  due : ∀ i, hand ≠ some i → (st.phase i).IsActive → .job i ∈ st.agenda

namespace Sound

variable {jobs : List Job} {hand : Option Nat} {st : State} {i : Nat}

/-- At first every job is fresh and has its turn before it. -/
theorem initial (jobs : List Job) (slots : Nat) : Sound jobs none (.initial jobs.length slots) where
  size := by simp [State.initial]
  record i hi _ := by
    have hp : (State.initial jobs.length slots).phase i = .fresh := by simp [State.phase, State.initial, hi]
    rw [hp]
    exact .unstarted (by decide) (by decide) (fun h => by cases h)
  known e he := by simp [State.history, State.initial] at he
  due i _ ha := by
    have hi : i < jobs.length := by simpa [State.initial] using State.lt_of_phase_ne_done ha.2
    simp [State.initial, hi]

/-- Only jobs that there are have anything left to do. -/
theorem lt_of_phase_ne_done (h : Sound jobs hand st) (hi : st.phase i ≠ .done) : i < jobs.length :=
  h.size ▸ State.lt_of_phase_ne_done hi

/-- A running job is in flight. -/
theorem mem_inFlight (h : Sound jobs hand st) (hne : hand ≠ some i) (hp : st.phase i = .running) : i ∈ inFlight st.events := by
  have hfit := h.record i (h.lt_of_phase_ne_done (by simp [hp])) hne
  rw [hp] at hfit
  have hc := st.count_inFlight i
  rw [hfit.eq_started] at hc
  exact List.count_pos_iff.mp (by simp [hc, inFlight])

/-! ## Taking a job in hand and bringing it back -/

/-- A job whose turn is taken is in hand. -/
theorem drop (h : Sound jobs none st) (i : Nat) : Sound jobs (some i) (st.drop (.job i)) where
  size := h.size
  record j hj _ := h.record j hj (by simp)
  known := h.known
  due j hj ha := by
    have hne : Turn.job j ≠ .job i := fun he => hj (by cases he; rfl)
    exact (List.mem_erase_of_ne hne).mpr (h.due j (by simp) ha)

/-- When a failure is heard nobody is in hand. -/
theorem drop_failure (h : Sound jobs none st) (i : Nat) : Sound jobs none (st.drop (.failure i)) where
  size := h.size
  record := h.record
  known := h.known
  due j hj ha := (List.mem_erase_of_ne (by simp)).mpr (h.due j hj ha)

/-- A job comes back when its record fits the phase it is put in. -/
theorem setPhase (h : Sound jobs (some i) st) (hi : i < jobs.length) {p : Phase} (hp : Fits jobs st.aborted i p (st.record i))
    (hd : p.IsActive → .job i ∈ st.agenda) : Sound jobs none (st.setPhase i p) where
  size := by simp [State.setPhase, h.size]
  record j hj _ := by
    by_cases hji : j = i
    · subst hji
      rw [State.phase_setPhase_self (h.size ▸ hi)]
      exact hp
    · rw [State.phase_setPhase_of_ne st hji]
      exact h.record j hj (by simpa using Ne.symm hji)
  known := h.known
  due j _ ha := by
    by_cases hji : j = i
    · subst hji
      rw [State.phase_setPhase_self (h.size ▸ hi)] at ha
      exact hd ha
    · rw [State.phase_setPhase_of_ne st hji] at ha
      exact h.due j (by simpa using Ne.symm hji) ha

/-- A job with nothing to do comes back as it is. -/
theorem idle (h : Sound jobs (some i) st) (hi : i < jobs.length → Fits jobs st.aborted i (st.phase i) (st.record i))
    (ha : ¬(st.phase i).IsActive) : Sound jobs none st where
  size := h.size
  record j hj _ := by
    by_cases hji : j = i
    · subst hji
      exact hi hj
    · exact h.record j hj (by simpa using Ne.symm hji)
  known := h.known
  due j _ hj := by
    by_cases hji : j = i
    · subst hji
      exact absurd hj ha
    · exact h.due j (by simpa using Ne.symm hji) hj

/-! ## Operations that keep the job in hand -/

theorem emit {e : Event} (h : Sound jobs (some e.job) st) (he : e.job < jobs.length) : Sound jobs (some e.job) (st.emit e) where
  size := h.size
  record j hj hne := by
    rw [State.record_emit_of_ne st (by simpa using Ne.symm hne)]
    exact h.record j hj hne
  known e' he' := by
    rw [State.history_emit, List.mem_append, List.mem_singleton] at he'
    rcases he' with he' | rfl
    · exact h.known e' he'
    · exact he
  due := h.due

theorem enqueue (h : Sound jobs hand st) (t : Turn) : Sound jobs hand (st.enqueue t) where
  size := h.size
  record := h.record
  known := h.known
  due j hj ha := List.mem_append_left _ (h.due j hj ha)

/-- The slots and the line do not matter. -/
theorem slots (h : Sound jobs hand st) (free : Nat) (line : List Nat) : Sound jobs hand { st with free, line } :=
  ⟨h.size, h.record, h.known, h.due⟩

theorem wakeNext (h : Sound jobs hand st) : Sound jobs hand st.wakeNext := by
  rcases State.wakeNext_cases st with hst | ⟨i, hi, hst⟩
  · rw [hst]
    exact h
  · have hlt : i < st.phases.length := State.lt_of_phase_ne_done (by simp [hi])
    rw [hst]
    refine ⟨by simp [State.setPhase, State.enqueue, h.size], ?_, h.known, ?_⟩
    · intro j hj hne
      have hfit := h.record j hj hne
      show Fits jobs st.aborted j ((st.setPhase i .granted).phase j) (st.record j)
      by_cases hji : j = i
      · subst hji
        rw [hi] at hfit
        rw [State.phase_setPhase_self hlt, hfit.eq_nil (by decide) (by decide)]
        exact .unstarted (by decide) (by decide) (fun h => by cases h)
      · rw [State.phase_setPhase_of_ne st hji]
        exact hfit
    · intro j hne ha
      show Turn.job j ∈ st.agenda ++ [.job i]
      by_cases hji : j = i
      · subst hji
        simp
      · refine List.mem_append_left _ (h.due j hne ?_)
        rwa [← State.phase_setPhase_of_ne st hji .granted]

theorem release (h : Sound jobs hand st) : Sound jobs hand st.release :=
  (h.slots (st.free + 1) st.line).wakeNext

/-! ## Turns -/

/-- A running job does what it may do. -/
theorem act (h : Sound jobs (some i) st) {j : Job} (hj : jobs[i]? = some j) (hr : st.record i = [.started i]) {m : Move}
    (hm : j.Allows m) : Sound jobs none (st.act i m) := by
  have hi : i < jobs.length := (List.getElem?_eq_some_iff.mp hj).1
  cases m with
  | wait =>
    refine (h.enqueue (.job i)).setPhase hi ?_ (fun _ => by simp [State.enqueue])
    show Fits jobs st.aborted i .running (st.record i)
    rw [hr]
    exact .running
  | finish =>
    refine ((h.emit (e := .finished i) hi).setPhase hi ?_ (fun ha => absurd rfl ha.2)).release
    rw [State.record_emit_self st (.finished i), Event.job, hr]
    exact .finished hj hm
  | fail =>
    refine (((h.emit (e := .failed i) hi).setPhase hi ?_ (fun ha => absurd rfl ha.2)).release).enqueue _
    rw [State.record_emit_self st (.failed i), Event.job, hr]
    exact .failed hj hm

/-- A job that holds a slot starts. -/
theorem start (h : Sound jobs (some i) st) {j : Job} (hj : jobs[i]? = some j) (hr : st.record i = []) {m : Move}
    (hm : j.Allows m) : Sound jobs none (st.start i m) := by
  have hi : i < jobs.length := (List.getElem?_eq_some_iff.mp hj).1
  refine (h.emit (e := .started i) hi).act hj ?_ hm
  rw [State.record_emit_self st (.started i), Event.job, hr]
  rfl

/-- A job leaves an aborted run unstarted. -/
theorem skip (h : Sound jobs (some i) st) (hi : i < jobs.length) (hr : st.record i = []) (ha : st.aborted = true) :
    Sound jobs none (st.setPhase i .done) := by
  refine h.setPhase hi ?_ (fun hd => absurd rfl hd.2)
  rw [hr]
  exact .skipped ha

/-- A job of a sound run has its turn. -/
theorem jobTurn (h : Sound jobs none st) {m : Move} (hm : ∀ j, jobs[i]? = some j → j.Allows m) :
    Sound jobs none ((st.drop (.job i)).jobTurn i m) := by
  have hd := h.drop i
  by_cases hi : i < jobs.length
  · obtain ⟨j, hj⟩ : ∃ j, jobs[i]? = some j := ⟨_, List.getElem?_eq_getElem hi⟩
    have hfit : Fits jobs st.aborted i (st.phase i) ((st.drop (.job i)).record i) := h.record i hi (by simp)
    generalize hst : st.drop (.job i) = st' at hd hfit
    have hph : st'.phase i = st.phase i := hst ▸ rfl
    have hab : st'.aborted = st.aborted := hst ▸ rfl
    rw [← hph, ← hab] at hfit
    unfold State.jobTurn
    cases hp : st'.phase i with
    | fresh =>
      rw [hp] at hfit
      have hr := hfit.eq_nil (by decide) (by decide)
      simp only
      split
      · rename_i ha
        exact hd.skip hi hr ha
      · split
        · exact (hd.slots (st'.free - 1) st'.line).start hj hr (hm j hj)
        · refine (hd.setPhase hi ?_ (fun ha => absurd rfl ha.1)).slots st'.free (st'.line ++ [i])
          rw [hr]
          exact .unstarted (by decide) (by decide) (fun h => by cases h)
    | inLine => exact hd.idle (fun _ => hfit) (by rw [hp]; exact fun ha => ha.1 rfl)
    | granted =>
      rw [hp] at hfit
      have hr := hfit.eq_nil (by decide) (by decide)
      have hl := hd.slots st'.free (st'.line.filter (· != i))
      simp only
      split
      · rename_i ha
        exact (hl.skip hi hr ha).release
      · split
        · refine hl.wakeNext.start hj ?_ (hm j hj)
          rw [State.record_wakeNext]
          exact hr
        · exact hl.start hj hr (hm j hj)
    | leaving =>
      rw [hp] at hfit
      exact (hd.skip hi (hfit.eq_nil (by decide) (by decide)) hfit.aborted_of_leaving).slots st'.free
        (st'.line.filter (· != i))
    | running =>
      rw [hp] at hfit
      have hr := hfit.eq_started
      simp only
      split
      · rename_i ha
        refine ((hd.emit (e := .cancelled i) hi).setPhase hi ?_ (fun hd' => absurd rfl hd'.2)).release
        rw [State.record_emit_self st' (.cancelled i), Event.job, hr]
        exact .cancelled ha
      · exact hd.act hj hr (hm j hj)
    | done => exact hd.idle (fun _ => hfit) (by rw [hp]; exact fun ha => ha.2 rfl)
  · have hp : (st.drop (.job i)).phase i = .done :=
      State.phase_of_length_le (Nat.le_of_not_lt (by rw [hd.size]; exact hi))
    rw [State.jobTurn_of_done hp]
    exact hd.idle (fun hlt => absurd hlt hi) (by rw [hp]; exact fun ha => ha.2 rfl)

/-- The jobs in line leave a run that is aborted. -/
theorem abort (h : Sound jobs none st) : Sound jobs none st.abort where
  size := by simp [State.abort, h.size]
  record i hi hne := by
    have hfit : Fits jobs true i (st.phase i) (st.record i) := (h.record i hi hne).abort
    show Fits jobs true i (st.abort.phase i) (st.record i)
    rw [State.phase_abort]
    split
    · rename_i hp
      rw [hp] at hfit
      rw [hfit.eq_nil (by decide) (by decide)]
      exact .unstarted (by decide) (by decide) (fun _ => rfl)
    · exact hfit
  known := h.known
  due i hne ha := by
    show Turn.job i ∈ st.agenda ++ _
    rw [State.phase_abort] at ha
    by_cases hp : st.phase i = .inLine
    · have hi : i < st.phases.length := State.lt_of_phase_ne_done (by simp [hp])
      exact List.mem_append_right _ (List.mem_map.mpr ⟨i, by simp [hp, hi], rfl⟩)
    · rw [if_neg hp] at ha
      exact List.mem_append_left _ (h.due i hne ha)

/-- A failure is heard. -/
theorem failureTurn (h : Sound jobs none st) (i : Nat) : Sound jobs none ((st.drop (.failure i)).failureTurn i) := by
  have hd := h.drop_failure i
  unfold State.failureTurn
  split
  · exact ⟨hd.size, hd.record, hd.known, hd.due⟩
  · exact ⟨hd.abort.size, hd.abort.record, hd.abort.known, hd.abort.due⟩

end Sound

/-- Every state that a run gets to is sound. -/
theorem Reachable.sound {slots : Nat} {jobs : List Job} {st : State} (h : Reachable slots jobs st) : Sound jobs none st := by
  induction h with
  | initial => exact Sound.initial jobs slots
  | @turn st t m _ _ hm ih =>
    cases t with
    | job i => exact ih.jobTurn (fun j hj => hm i j rfl hj)
    | failure i => exact ih.failureTurn i

end IconForge.Schedule
