import IconForge.Proofs.Schedule.Sound

/-!
# A run that counts turns comes to its end

Every turn is paid for. A job owes the turns that it will still put on the agenda: one when it is handed a slot or leaves,
one for every turn that it waits, and one for its failure. The turns on the agenda and those that are owed together are the
credit of a run, and every step lowers it (`credit_step`). The budget of a run covers its credit at first, so the run ends
with an empty agenda (`run_agenda`).
-/

namespace IconForge.Schedule

/-- The turns that a job in some phase will put on the agenda at most, when it waits some turns more. -/
def Phase.owes (turns : Nat) : Phase → Nat
  | .fresh | .inLine => turns + 2
  | .granted | .running => turns + 1
  | .leaving | .done => 0

/-- The turns that a job waits more than it has waited already. -/
def turnsLeft (jobs : List Job) (waited : List Nat) (i : Nat) : Nat := (jobs[i]?.getD ⟨0, false⟩).turns - waited[i]?.getD 0

/-- The turns that the run will put on the agenda at most. -/
def State.debt (jobs : List Job) (waited : List Nat) (s : State) : Nat :=
  ((List.range jobs.length).map fun i => (s.phase i).owes (turnsLeft jobs waited i)).foldr (· + ·) 0

/-- The turns that a run can take at most. -/
def State.credit (jobs : List Job) (waited : List Nat) (s : State) : Nat := s.agenda.length + s.debt jobs waited

/-- A sum whose terms get smaller where a test holds gets smaller as often as it holds. -/
theorem foldr_add_countP_le {l : List Nat} {f g : Nat → Nat} {p : Nat → Bool}
    (h : ∀ j ∈ l, f j + (if p j then 1 else 0) ≤ g j) : (l.map f).foldr (· + ·) 0 + l.countP p ≤ (l.map g).foldr (· + ·) 0 := by
  induction l with
  | nil => simp
  | cons j l ih =>
    have hj := h j (by simp)
    have hl := ih fun k hk => h k (by simp [hk])
    simp only [List.map_cons, List.foldr_cons, List.countP_cons]
    omega

namespace State

variable {jobs : List Job} {waited waited' : List Nat} {s s' : State} {i : Nat}

/-! ## What the operations on a state do to the debt -/

/-- Nobody owes more than before. -/
theorem debt_le (h : ∀ j, (s'.phase j).owes (turnsLeft jobs waited' j) ≤ (s.phase j).owes (turnsLeft jobs waited j)) :
    s'.debt jobs waited' ≤ s.debt jobs waited := by
  have hs := foldr_add_countP_le (l := List.range jobs.length) (p := fun _ => false) (fun j _ => by simpa using h j)
  simpa [debt] using hs

/-- One job owes less than before, and nobody more. -/
theorem debt_lt (hi : i < jobs.length)
    (h : ∀ j ≠ i, (s'.phase j).owes (turnsLeft jobs waited' j) ≤ (s.phase j).owes (turnsLeft jobs waited j))
    (hd : (s'.phase i).owes (turnsLeft jobs waited' i) + 1 ≤ (s.phase i).owes (turnsLeft jobs waited i)) :
    s'.debt jobs waited' + 1 ≤ s.debt jobs waited := by
  have hs := foldr_add_countP_le (l := List.range jobs.length) (p := fun j => j == i)
    (f := fun j => (s'.phase j).owes (turnsLeft jobs waited' j))
    (g := fun j => (s.phase j).owes (turnsLeft jobs waited j)) (fun j _ => by
      by_cases hj : j = i
      · subst hj
        simpa using hd
      · simpa [hj] using h j hj)
  have hc : (List.range jobs.length).count i = 1 := by rw [List.count_range, if_pos hi]
  rw [List.count] at hc
  rw [hc] at hs
  exact hs

/-- Waiting lowers what a job owes. -/
theorem owes_mono (p : Phase) {a b : Nat} (h : a ≤ b) : p.owes a ≤ p.owes b := by
  cases p <;> simp only [Phase.owes] <;> omega

/-- A job that is put in a phase where it owes nothing. -/
theorem debt_setPhase_done (hsize : s.phases.length = jobs.length) (hi : i < jobs.length) :
    (s.setPhase i .done).debt jobs waited ≤ s.debt jobs waited := by
  refine debt_le fun j => ?_
  by_cases hj : j = i
  · subst hj
    simp [phase_setPhase_self (hsize ▸ hi), Phase.owes]
  · exact Nat.le_of_eq (by rw [phase_setPhase_of_ne s hj])

/-- The turn that a job gets with a slot is one that it owed. -/
theorem credit_wakeNext (hsize : s.phases.length = jobs.length) :
    s.wakeNext.credit jobs waited ≤ s.credit jobs waited := by
  rcases wakeNext_cases s with hst | ⟨i, hi, hst⟩
  · exact Nat.le_of_eq (by rw [hst])
  · have hlt : i < s.phases.length := lt_of_phase_ne_done (by simp [hi])
    have hd : (s.setPhase i .granted).debt jobs waited + 1 ≤ s.debt jobs waited := by
      refine debt_lt (hsize ▸ hlt) (fun j hj => Nat.le_of_eq (by rw [phase_setPhase_of_ne s hj])) ?_
      rw [phase_setPhase_self hlt, hi]
      exact Nat.le_refl _
    rw [hst]
    show (s.agenda ++ [Turn.job i]).length + (s.setPhase i .granted).debt jobs waited ≤ s.credit jobs waited
    simp only [credit, List.length_append, List.length_singleton]
    omega

/-- A job that owes something is done with, and its slot is handed on. -/
theorem credit_release (hsize : s.phases.length = jobs.length) (hi : i < jobs.length)
    (howes : 0 < (s.phase i).owes (turnsLeft jobs waited i)) :
    (s.setPhase i .done).release.credit jobs waited + 1 ≤ s.credit jobs waited := by
  have hw : (s.setPhase i .done).release.credit jobs waited
      ≤ { s.setPhase i .done with free := s.free + 1 }.credit jobs waited :=
    credit_wakeNext (by simpa [setPhase] using hsize)
  have hd : (s.setPhase i .done).debt jobs waited + 1 ≤ s.debt jobs waited := by
    refine debt_lt hi (fun j hj => Nat.le_of_eq (by rw [phase_setPhase_of_ne s hj])) ?_
    rw [phase_setPhase_self (hsize ▸ hi)]
    exact Nat.succ_le_of_lt howes
  refine Nat.le_trans (Nat.succ_le_succ hw) ?_
  show s.agenda.length + (s.setPhase i .done).debt jobs waited + 1 ≤ s.agenda.length + s.debt jobs waited
  omega

/-- The jobs in line pay for the turns in which they leave. -/
theorem credit_abort (hsize : s.phases.length = jobs.length) : s.abort.credit jobs waited ≤ s.credit jobs waited := by
  have hs := foldr_add_countP_le (l := List.range jobs.length) (p := fun j => s.phase j == .inLine)
    (f := fun j => (s.abort.phase j).owes (turnsLeft jobs waited j))
    (g := fun j => (s.phase j).owes (turnsLeft jobs waited j)) (fun j _ => by
      rw [phase_abort]
      by_cases hj : s.phase j = .inLine
      · simp [hj, Phase.owes]
      · simp [hj])
  rw [List.countP_eq_length_filter] at hs
  show (s.agenda ++ ((List.range s.phases.length).filter fun i => s.phase i == .inLine).map Turn.job).length + _ ≤ _
  rw [List.length_append, List.length_map, hsize]
  simp only [credit, debt] at hs ⊢
  omega

/-! ## Waiting -/

/-- A turn that a job has waited is one that it has not left. -/
theorem turnsLeft_modify (hi : i < waited.length) :
    turnsLeft jobs (waited.modify i (· + 1)) i = turnsLeft jobs waited i - 1 := by
  simp only [turnsLeft, List.getElem?_modify, if_true, List.getElem?_eq_getElem hi, Option.map_eq_map, Option.map_some,
    Option.getD_some]
  omega

/-- A wait of one job takes no turn from the others. -/
theorem turnsLeft_modify_of_ne {j : Nat} (h : j ≠ i) :
    turnsLeft jobs (waited.modify i (· + 1)) j = turnsLeft jobs waited j := by
  simp only [turnsLeft, List.getElem?_modify, if_neg (Ne.symm h), Option.map_eq_map, Option.map_id_fun', id_eq]

/-- Having waited costs nothing. -/
theorem credit_modify (hi : i < waited.length) (s : State) :
    s.credit jobs (waited.modify i (· + 1)) ≤ s.credit jobs waited := by
  refine Nat.add_le_add_left (debt_le fun j => owes_mono _ ?_) _
  by_cases hj : j = i
  · subst hj
    rw [turnsLeft_modify hi]
    omega
  · exact Nat.le_of_eq (turnsLeft_modify_of_ne hj)

/-! ## Turns -/

/-- The turns that a job has waited behind a turn in which it moved. -/
def waitedAfter (waited : List Nat) (i : Nat) (m : Move) (after : State) : List Nat :=
  if m = .wait ∧ after.phase i = .running then waited.modify i (· + 1) else waited

/-- A running job pays for what it does. -/
theorem credit_act (hsize : s.phases.length = jobs.length) (hwaited : waited.length = jobs.length) (hi : i < jobs.length)
    (howes : turnsLeft jobs waited i + 1 ≤ (s.phase i).owes (turnsLeft jobs waited i)) {m : Move}
    (hm : m = .wait → 0 < turnsLeft jobs waited i) :
    (s.act i m).credit jobs (waitedAfter waited i m (s.act i m)) ≤ s.credit jobs waited := by
  have hlt : i < s.phases.length := hsize ▸ hi
  cases m with
  | wait =>
    have hrun : (s.act i .wait).phase i = .running := phase_setPhase_self hlt _
    rw [waitedAfter, if_pos ⟨rfl, hrun⟩]
    have hd : (s.setPhase i .running).debt jobs (waited.modify i (· + 1)) + 1 ≤ s.debt jobs waited := by
      refine debt_lt hi (fun j hj => ?_) ?_
      · exact Nat.le_of_eq (by rw [phase_setPhase_of_ne s hj, turnsLeft_modify_of_ne hj])
      · have hpos := hm rfl
        rw [phase_setPhase_self hlt, turnsLeft_modify (hwaited ▸ hi)]
        show turnsLeft jobs waited i - 1 + 1 + 1 ≤ _
        omega
    show (s.agenda ++ [Turn.job i]).length + (s.setPhase i .running).debt jobs _ ≤ s.credit jobs waited
    simp only [credit, List.length_append, List.length_singleton]
    omega
  | finish =>
    rw [waitedAfter, if_neg (by simp)]
    exact Nat.le_of_succ_le (credit_release (s := s.emit (.finished i)) hsize hi (Nat.lt_of_lt_of_le (Nat.succ_pos _) howes))
  | fail =>
    rw [waitedAfter, if_neg (by simp)]
    have hr := credit_release (s := s.emit (.failed i)) hsize hi (Nat.lt_of_lt_of_le (Nat.succ_pos _) howes)
    have he : (s.act i .fail).credit jobs waited = ((s.emit (.failed i)).setPhase i .done).release.credit jobs waited + 1 := by
      show (((s.emit (.failed i)).setPhase i .done).release.agenda ++ [Turn.failure i]).length + _ = _
      rw [List.length_append, List.length_singleton, Nat.add_right_comm]
      rfl
    rw [he]
    exact hr

/-- Once the run is aborted no turn of a job costs anything: the job only gives back what it has. -/
theorem credit_jobTurn_of_aborted (hsize : s.phases.length = jobs.length) (hi : i < jobs.length) (ha : s.aborted = true) (m : Move) :
    (s.jobTurn i m).credit jobs waited ≤ s.credit jobs waited := by
  -- What a job with a slot owes pays for the turn of the one that gets the slot next.
  have howes {p : Phase} (hp : s.phase i = p) (hslot : p = .granted ∨ p = .running) :
      0 < (s.phase i).owes (turnsLeft jobs waited i) := by
    rcases hslot with rfl | rfl <;> simp [hp, Phase.owes]
  rw [jobTurn_of_aborted ha]
  cases hp : s.phase i with
  | fresh => exact Nat.add_le_add_left (debt_setPhase_done hsize hi) _
  | inLine => exact Nat.le_refl _
  | granted =>
    exact Nat.le_of_succ_le (credit_release (s := { s with line := s.line.filter (· != i) }) hsize hi (howes hp (.inl rfl)))
  | leaving => exact Nat.add_le_add_left (debt_setPhase_done hsize hi) _
  | running => exact Nat.le_of_succ_le (credit_release (s := s.emit (.cancelled i)) hsize hi (howes hp (.inr rfl)))
  | done => exact Nat.le_refl _

/-- Getting in line costs nothing. -/
theorem credit_getInLine (hlt : i < s.phases.length) (hp : s.phase i = .fresh) (line : List Nat) :
    { s.setPhase i .inLine with line }.credit jobs waited ≤ s.credit jobs waited := by
  refine Nat.add_le_add_left (debt_le fun j => ?_) _
  show ((s.setPhase i .inLine).phase j).owes _ ≤ _
  by_cases hj : j = i
  · subst hj
    rw [phase_setPhase_self hlt, hp]
    exact Nat.le_refl _
  · exact Nat.le_of_eq (by rw [phase_setPhase_of_ne s hj])

/-- A job pays for its turn. -/
theorem credit_jobTurn (hsize : s.phases.length = jobs.length) (hwaited : waited.length = jobs.length) {m : Move}
    (hm : m = .wait → 0 < turnsLeft jobs waited i) :
    (s.jobTurn i m).credit jobs (waitedAfter waited i m (s.jobTurn i m)) ≤ s.credit jobs waited := by
  by_cases hi : i < jobs.length
  case neg =>
    have hp : s.phase i = .done := phase_of_length_le (hsize ▸ Nat.le_of_not_lt hi)
    exact Nat.le_of_eq (by rw [jobTurn_of_done hp, waitedAfter, if_neg (by simp [hp])])
  -- A turn in which the job does not move is paid for whether or not it counts as waited.
  have hrest (h : (s.jobTurn i m).credit jobs waited ≤ s.credit jobs waited) :
      (s.jobTurn i m).credit jobs (waitedAfter waited i m (s.jobTurn i m)) ≤ s.credit jobs waited := by
    unfold waitedAfter
    split
    · exact Nat.le_trans (credit_modify (hwaited ▸ hi) _) h
    · exact h
  by_cases ha : s.aborted = true
  · exact hrest (credit_jobTurn_of_aborted hsize hi ha m)
  have ha' : s.aborted = false := by simpa using ha
  cases hp : s.phase i with
  | fresh =>
    rw [jobTurn_of_fresh hp ha'] at hrest ⊢
    split
    · exact credit_act (s := { s with free := s.free - 1 }.emit (.started i)) hsize hwaited hi
        (by show _ ≤ (s.phase i).owes _; rw [hp]; exact Nat.le_succ _) hm
    · rename_i hc
      rw [if_neg hc] at hrest
      exact hrest (credit_getInLine (hsize ▸ hi) hp _)
  | inLine => exact hrest (Nat.le_of_eq (by rw [jobTurn_of_inLine hp]))
  | granted =>
    have howes : turnsLeft jobs waited i + 1 ≤ (s.phase i).owes (turnsLeft jobs waited i) := by
      rw [hp]
      exact Nat.le_refl _
    rw [jobTurn_of_granted hp ha']
    split
    · have hw : { s with line := s.line.filter (· != i) }.wakeNext.credit jobs waited
          ≤ { s with line := s.line.filter (· != i) }.credit jobs waited := credit_wakeNext hsize
      have hph : { s with line := s.line.filter (· != i) }.wakeNext.phase i = s.phase i :=
        phase_wakeNext (by show s.phase i ≠ _; simp [hp])
      refine Nat.le_trans (credit_act (s := { s with line := s.line.filter (· != i) }.wakeNext.emit (.started i))
        ?_ hwaited hi ?_ hm) hw
      · show (State.phases (wakeNext _)).length = _
        rw [length_phases_wakeNext]
        exact hsize
      · show _ ≤ (State.phase (wakeNext _) i).owes _
        rw [hph]
        exact howes
    · exact credit_act (s := { s with line := s.line.filter (· != i) }.emit (.started i)) hsize hwaited hi howes hm
  | leaving =>
    refine hrest ?_
    rw [jobTurn_of_leaving hp]
    exact Nat.add_le_add_left (debt_setPhase_done hsize hi) _
  | running =>
    rw [jobTurn_of_running hp ha']
    exact credit_act hsize hwaited hi (by rw [hp]; exact Nat.le_refl _) hm
  | done => exact hrest (Nat.le_of_eq (by rw [jobTurn_of_done hp]))

/-- Hearing a failure costs nothing but its turn. -/
theorem credit_failureTurn (hsize : s.phases.length = jobs.length) :
    (s.failureTurn i).credit jobs waited ≤ s.credit jobs waited := by
  unfold failureTurn
  split
  · exact Nat.le_refl _
  · exact credit_abort hsize

/-- A job that counts its turns waits only while it has some left. -/
theorem turnsLeft_pos_of_wait {rest : List Turn} (ha : s.agenda = .job i :: rest) (hm : nextMove jobs waited s = .wait) :
    0 < turnsLeft jobs waited i := by
  simp only [nextMove, ha, Job.move] at hm
  split at hm
  · rename_i hlt
    exact Nat.sub_pos_of_lt hlt
  · split at hm <;> cases hm

/-- Every step lowers the credit of a run. -/
theorem credit_step (hsize : s.phases.length = jobs.length) (hwaited : waited.length = jobs.length) (hne : s.agenda ≠ []) :
    (s.step (nextMove jobs waited s)).credit jobs (countWait waited s (nextMove jobs waited s)) + 1
      ≤ s.credit jobs waited := by
  obtain ⟨t, rest, ha⟩ := List.exists_cons_of_ne_nil hne
  have hdrop : { s with agenda := rest }.credit jobs waited + 1 = s.credit jobs waited := by
    show rest.length + _ + 1 = s.agenda.length + _
    rw [ha, List.length_cons, Nat.add_right_comm]
    rfl
  rw [← hdrop]
  refine Nat.succ_le_succ ?_
  cases t with
  | job i =>
    have hstep : s.step (nextMove jobs waited s) = { s with agenda := rest }.jobTurn i (nextMove jobs waited s) := by
      simp only [step, ha]
    have hcount : countWait waited s (nextMove jobs waited s)
        = waitedAfter waited i (nextMove jobs waited s) (s.step (nextMove jobs waited s)) := by
      unfold countWait waitedAfter
      simp only [ha]
      cases nextMove jobs waited s <;> simp
    rw [hcount, hstep]
    exact credit_jobTurn (s := { s with agenda := rest }) hsize hwaited (turnsLeft_pos_of_wait ha)
  | failure i =>
    have hstep : s.step (nextMove jobs waited s) = { s with agenda := rest }.failureTurn i := by
      simp only [step, ha]
    have hcount : countWait waited s (nextMove jobs waited s) = waited := by
      unfold countWait
      simp only [ha]
    rw [hcount, hstep]
    exact credit_failureTurn (s := { s with agenda := rest }) hsize

end State

/-! ## Runs -/

/-- Each job keeps its count of waits. -/
theorem length_countWait (waited : List Nat) (s : State) (m : Move) : (countWait waited s m).length = waited.length := by
  unfold countWait
  split
  · split
    · exact List.length_modify ..
    · rfl
  · rfl

/-- A run that takes as many turns as its credit covers ends with an empty agenda. -/
theorem runTurns_agenda {slots : Nat} {jobs : List Job} (fuel : Nat) (waited : List Nat) {s : State}
    (h : Reachable slots jobs s) (hwaited : waited.length = jobs.length) (hfuel : s.credit jobs waited ≤ fuel) :
    (runTurns jobs fuel waited s).agenda = [] := by
  induction fuel generalizing waited s with
  | zero =>
    have hlen : s.agenda.length = 0 := Nat.eq_zero_of_le_zero (Nat.le_trans (Nat.le_add_right _ _) hfuel)
    exact List.eq_nil_of_length_eq_zero hlen
  | succ fuel ih =>
    simp only [runTurns]
    split
    · rename_i he
      simpa using he
    · rename_i he
      have hne : s.agenda ≠ [] := by simpa using he
      have hstep := State.credit_step h.sound.size hwaited hne
      refine ih _ (h.step waited) ?_ ?_
      · rw [length_countWait]
        exact hwaited
      · omega

/-- The budget covers the first turns and everything that the jobs owe. -/
theorem credit_initial (jobs : List Job) (slots : Nat) :
    (State.initial jobs.length slots).credit jobs (jobs.map fun _ => 0) ≤ budget jobs := by
  have howes : (State.initial jobs.length slots).debt jobs (jobs.map fun _ => 0) =
      (jobs.map fun j => j.turns + 2).foldr (· + ·) 0 := by
    unfold State.debt
    congr 1
    refine List.ext_getElem (by simp) fun i hi hi' => ?_
    have hlt : i < jobs.length := by simpa using hi
    simp [State.phase, State.initial, turnsLeft, Phase.owes, hlt]
  have hsum : ∀ l : List Job, l.length + (l.map fun j => j.turns + 2).foldr (· + ·) 0
      ≤ (l.map fun j => j.turns + 4).foldr (· + ·) 0 := by
    intro l
    induction l with
    | nil => exact Nat.le_refl _
    | cons j l ih =>
      simp only [List.length_cons, List.map_cons, List.foldr_cons]
      omega
  rw [State.credit, howes]
  simpa [State.initial, budget] using hsum jobs

/-- A run takes all its turns. -/
theorem run_agenda (slots : Nat) (jobs : List Job) : (run slots jobs).agenda = [] :=
  runTurns_agenda _ _ .initial (by simp) (credit_initial jobs slots)

end IconForge.Schedule
