import IconForge.Proofs.Schedule.Failures
import IconForge.Proofs.Schedule.Layout
import Mathlib.Data.List.Basic

/-!
# Every run keeps its order

The turns of a run, one kind after the other: a fresh job starts or gets in line, a job that has been handed a slot starts, a
running job goes on, and the first failure that is heard aborts the run. Each keeps the layout of the run, and an aborted run
stays halted. So every state that a run gets to is ordered (`Reachable.ordered`).
-/

namespace IconForge.Schedule

namespace Layout

variable {slots n k g w i : Nat} {st : State}

/-- The first job on the agenda that has not started is the first one of those that are fresh or, without one, of those that
have been handed a slot. -/
theorem pending_head (h : Layout slots n none k g w st) {rest : List Turn} (ha : st.agenda = .job i :: rest) (hi : k ≤ i) :
    List.range' (k + g + w) (n - (k + g + w)) ++ List.range' k g = i :: rest.filterMap (Turn.from? k) := by
  have hp : st.agenda.filterMap (Turn.from? k) = _ := h.pending
  have ht : Turn.from? k (.job i) = some i := by simp [Turn.from?, hi]
  rw [← hp, ha, List.filterMap_cons_some ht]

/-- A fresh job whose turn comes is the first fresh one. -/
theorem fresh_head (h : Layout slots n none k g w st) {rest : List Turn} (ha : st.agenda = .job i :: rest)
    (hp : st.phase i = .fresh) :
    i = k + g + w ∧ i < n ∧ rest.filterMap (Turn.from? k) = List.range' (i + 1) (n - (i + 1)) ++ List.range' k g := by
  have hin : i < n := h.size ▸ State.lt_of_phase_ne_done (by simp [hp])
  have hki : k ≤ i := Nat.le_of_not_lt fun hlt => by
    have := h.past i hlt (by simp)
    simp [hp] at this
  have hge : k + g + w ≤ i := Nat.le_of_not_lt fun hlt => by
    by_cases hg : i < k + g
    · have := h.granted i hki hg
      simp [hp] at this
    · have := h.inLine i (by omega) hlt
      simp [hp] at this
  have hhead := h.pending_head ha hki
  obtain ⟨f, hf⟩ : ∃ f, n - (k + g + w) = f + 1 := ⟨n - (k + g + w) - 1, by omega⟩
  rw [hf, List.range'_succ, List.cons_append, List.cons.injEq] at hhead
  refine ⟨hhead.1.symm, hin, ?_⟩
  rw [← hhead.2, hhead.1]
  congr 2
  omega

/-- A job that has been handed a slot and whose turn comes is the first one of its kind, and no job is fresh any more. -/
theorem granted_head (h : Layout slots n none k g w st) {rest : List Turn} (ha : st.agenda = .job i :: rest)
    (hp : st.phase i = .granted) :
    i = k ∧ n = k + g + w ∧ ∃ g', g = g' + 1 ∧ rest.filterMap (Turn.from? k) = List.range' (k + 1) g' := by
  have hin : i < n := h.size ▸ State.lt_of_phase_ne_done (by simp [hp])
  have hki : k ≤ i := Nat.le_of_not_lt fun hlt => by
    have := h.past i hlt (by simp)
    simp [hp] at this
  have hig : i < k + g := Nat.lt_of_not_le fun hle => by
    by_cases hw : i < k + g + w
    · have := h.inLine i hle hw
      simp [hp] at this
    · have := h.fresh i (by omega) hin
      simp [hp] at this
  have hhead := h.pending_head ha hki
  have hn : n = k + g + w := by
    by_cases hlt : k + g + w < n
    · obtain ⟨f, hf⟩ : ∃ f, n - (k + g + w) = f + 1 := ⟨n - (k + g + w) - 1, by omega⟩
      rw [hf, List.range'_succ, List.cons_append, List.cons.injEq] at hhead
      have := hhead.1
      omega
    · have := h.total
      omega
  obtain ⟨g', hg⟩ : ∃ g', g = g' + 1 := ⟨g - 1, by omega⟩
  rw [hn, Nat.sub_self, List.range'_zero, List.nil_append, hg, List.range'_succ, List.cons.injEq] at hhead
  exact ⟨hhead.1.symm, hn, g', hg, hhead.2.symm⟩

/-- The turns of the jobs behind one that has just started. -/
theorem filterMap_from_succ {rest : List Turn} (hk : k ∉ rest.filterMap (Turn.from? k)) :
    rest.filterMap (Turn.from? (k + 1)) = rest.filterMap (Turn.from? k) := by
  refine List.filterMap_congr fun t ht => ?_
  cases t with
  | failure j => rfl
  | job j =>
    have hne : j ≠ k := by
      intro hj
      subst hj
      exact hk (List.mem_filterMap.mpr ⟨_, ht, by simp [Turn.from?]⟩)
    simp only [Turn.from?]
    split <;> split <;> first | rfl | omega

/-- A fresh job gets in line. -/
theorem getInLine (h : Layout slots n none k g w st) {rest : List Turn} (ha : st.agenda = .job i :: rest)
    (hp : st.phase i = .fresh) :
    Layout slots n none k g (w + 1) { (st.drop (.job i)).setPhase i .inLine with line := st.line ++ [i] } := by
  obtain ⟨hi, hin, hrest⟩ := h.fresh_head ha hp
  have hlt : i < st.phases.length := h.size ▸ hin
  have hsame : ∀ j, j ≠ i → (st.setPhase i .inLine).phase j = st.phase j := fun j hj =>
    State.phase_setPhase_of_ne st hj _
  refine ⟨by simp [State.setPhase, State.drop, h.size], by omega, h.live, h.started, by simp, ?_, ?_, ?_, ?_, ?_, ?_,
    h.balance, h.bounded⟩
  · intro j hj hne
    show (st.setPhase i .inLine).phase j = _ ∨ (st.setPhase i .inLine).phase j = _
    rw [hsame j (by omega)]
    exact h.past j hj hne
  · intro j hkj hjg
    exact (hsame j (by omega)).trans (h.granted j hkj hjg)
  · intro j hj hjw
    by_cases hji : j = i
    · subst hji
      exact State.phase_setPhase_self hlt _
    · exact (hsame j hji).trans (h.inLine j hj (by omega))
  · intro j hj hjn
    exact (hsame j (by omega)).trans (h.fresh j (by omega) hjn)
  · show st.line ++ [i] = List.range' k (g + (w + 1))
    rw [h.line, ← Nat.add_assoc, List.range'_1_concat, hi, Nat.add_assoc]
  · show (st.agenda.erase (.job i)).filterMap (Turn.from? k) = _
    rw [ha, List.erase_cons_head, hrest, hi]
    rfl

/-- A fresh job starts where a slot is free and nobody is in line. -/
theorem startFresh (h : Layout slots n none k 0 0 st) {rest : List Turn} (ha : st.agenda = .job i :: rest)
    (hp : st.phase i = .fresh) (hfree : 0 < st.free) :
    Layout slots n (some i) (k + 1) 0 0 ({ st.drop (.job i) with free := st.free - 1 }.emit (.started i)) := by
  obtain ⟨hi, hin, hrest⟩ := h.fresh_head ha hp
  simp only [Nat.add_zero, List.range'_zero, List.append_nil] at hi hrest
  have hb := h.balance
  have hlen : st.free - 1 + (inFlight (.started i :: st.events)).length + 0 = slots := by
    simp only [inFlight, List.length_cons]
    omega
  refine ⟨h.size, by omega, h.live, ?_, ?_, ?_, by omega, by omega, ?_, h.line, ?_, hlen, ?_⟩
  · have hs : st.started = List.range k := h.started
    rw [List.range_succ, ← hs, ← hi]
    simp [State.started, State.history, State.emit, State.drop]
  · intro j hj
    cases hj
    omega
  · intro j hj hne
    exact h.past j (by have : j ≠ i := fun hji => hne (by rw [hji]); omega) (by simp)
  · intro j hj hjn
    exact h.fresh j (by omega) hjn
  · show (st.agenda.erase (.job i)).filterMap (Turn.from? (k + 1)) = _
    have hk : k ∉ rest.filterMap (Turn.from? k) := by
      rw [hrest, List.mem_range'_1]
      omega
    rw [ha, List.erase_cons_head, filterMap_from_succ hk, hrest, hi]
    simp
  · refine bounded_cons h.bounded ?_
    show (inFlight (.started i :: st.events)).length ≤ slots
    omega

/-- A job that has been handed a slot starts. -/
theorem startGranted (h : Layout slots n none k g w st) {rest : List Turn} (ha : st.agenda = .job i :: rest)
    (hp : st.phase i = .granted) :
    ∃ g', Layout slots n (some i) (k + 1) g' w
      ({ st.drop (.job i) with line := st.line.filter (· != i) }.emit (.started i)) := by
  obtain ⟨hi, hn, g', hg, hrest⟩ := h.granted_head ha hp
  have hb := h.balance
  have hlen : st.free + (inFlight (.started i :: st.events)).length + g' = slots := by
    simp only [inFlight, List.length_cons]
    omega
  refine ⟨g', h.size, by omega, h.live, ?_, ?_, ?_, ?_, ?_, by omega, ?_, ?_, hlen, ?_⟩
  · have hs : st.started = List.range k := h.started
    rw [List.range_succ, ← hs, ← hi]
    simp [State.started, State.history, State.emit, State.drop]
  · intro j hj
    cases hj
    omega
  · intro j hj hne
    exact h.past j (by have : j ≠ i := fun hji => hne (by rw [hji]); omega) (by simp)
  · intro j hj hjg
    exact h.granted j (by omega) (by omega)
  · intro j hj hjw
    exact h.inLine j (by omega) (by omega)
  · show st.line.filter (· != i) = _
    have hsucc : g + w = g' + w + 1 := by omega
    rw [h.line, hi, hsucc, List.range'_succ, List.filter_cons_of_neg (by simp)]
    refine List.filter_eq_self.mpr fun j hj => ?_
    have := (List.mem_range'_1.mp hj).1
    simp only [bne_iff_ne]
    omega
  · show (st.agenda.erase (.job i)).filterMap (Turn.from? (k + 1)) = _
    have hk : k ∉ rest.filterMap (Turn.from? k) := by
      rw [hrest, List.mem_range'_1]
      omega
    have hnone : n - (k + 1 + g' + w) = 0 := by omega
    rw [ha, List.erase_cons_head, filterMap_from_succ hk, hrest, hnone, List.range'_zero, List.nil_append]
  · refine bounded_cons h.bounded ?_
    show (inFlight (.started i :: st.events)).length ≤ slots
    omega

/-- A job with a turn to come that has not started is fresh or has been handed a slot. -/
theorem phase_of_mem (h : Layout slots n none k g w st) (hmem : .job i ∈ st.agenda) (hi : k ≤ i) :
    st.phase i = .fresh ∨ st.phase i = .granted := by
  have hp : i ∈ st.pending k := List.mem_filterMap.mpr ⟨_, hmem, by simp [Turn.from?, hi]⟩
  rw [h.pending, List.mem_append, List.mem_range'_1, List.mem_range'_1] at hp
  rcases hp with hp | hp
  · exact .inl (h.fresh i hp.1 (by omega))
  · exact .inr (h.granted i hp.1 hp.2)

/-- A job of a run that has not been aborted has its turn. -/
theorem jobTurn {jobs : List Job} (h : Layout slots n none k g w st) (hb : Busy g w st) (hs : Sound jobs none st)
    (hdue : st.Due (.job i)) (m : Move) :
    ∃ k' g' w', Layout slots n none k' g' w' ((st.drop (.job i)).jobTurn i m) ∧
      Busy g' w' ((st.drop (.job i)).jobTurn i m) := by
  have hab : (st.drop (.job i)).aborted = false := h.live
  -- A job that is not running has its turn at the head of the agenda only.
  have hhead : st.phase i ≠ .running → ∃ rest, st.agenda = .job i :: rest := by
    intro hp
    rcases hdue with hd | ⟨-, j, hj, hr⟩
    · exact List.head?_eq_some_iff.mp hd
    · cases hj
      exact absurd hr hp
  by_cases hik : i < k
  · rcases h.past i hik (by simp) with hp | hp
    · have hp' : (st.drop (.job i)).phase i = .running := hp
      rw [State.jobTurn_of_running hp' hab]
      exact ⟨k, (h.drop_past hik).act hb (hs.mem_inFlight (by simp) hp) m⟩
    · have hp' : (st.drop (.job i)).phase i = .done := hp
      rw [State.jobTurn_of_done hp']
      exact ⟨k, g, w, (h.drop_past hik).back (.inr hp'), hb⟩
  · rcases h.phase_of_mem hdue.mem (Nat.le_of_not_lt hik) with hp | hp
    · have hp' : (st.drop (.job i)).phase i = .fresh := hp
      obtain ⟨rest, ha⟩ := hhead (by simp [hp])
      have hline := h.line
      rw [State.jobTurn_of_fresh hp' hab]
      split
      · rename_i hc
        rw [Bool.and_eq_true, decide_eq_true_iff, List.isEmpty_iff] at hc
        have hgw : g + w = 0 := by simpa [hline] using (congrArg List.length hc.2 : st.line.length = _)
        obtain ⟨rfl, rfl⟩ : g = 0 ∧ w = 0 := by omega
        exact ⟨k + 1, (h.startFresh ha hp hc.1).act (fun hw => absurd hw (Nat.lt_irrefl 0)) (by simp [State.emit, inFlight]) m⟩
      · rename_i hc
        refine ⟨k, g, w + 1, h.getInLine ha hp, fun _ hfree => ?_⟩
        have hfree' : 0 < st.free := hfree
        have hne : ¬(st.line = []) := fun hnil => hc (by simp [State.drop, hfree', hnil])
        by_cases hw : 0 < w
        · exact hb hw hfree'
        · refine Nat.pos_of_ne_zero fun hg => hne ?_
          have hw0 : w = 0 := by omega
          rw [hline, hg, hw0]
          rfl
    · have hp' : (st.drop (.job i)).phase i = .granted := hp
      obtain ⟨rest, ha⟩ := hhead (by simp [hp])
      obtain ⟨g', hl⟩ := h.startGranted ha hp
      rw [State.jobTurn_of_granted hp' hab]
      split
      · rename_i hfree
        -- The slot that is free besides is handed on before the job starts, which makes no difference.
        obtain ⟨g'', w'', hl', hb'⟩ := hl.wakeNext hfree
        have hmem : i ∈ inFlight
            ({ st.drop (.job i) with line := st.line.filter (· != i) }.emit (.started i)).wakeNext.events := by
          simp [State.emit, inFlight]
        have hact := hl'.act hb' hmem m
        rw [State.wakeNext_emit] at hact
        exact ⟨k + 1, hact⟩
      · rename_i hfree
        exact ⟨k + 1, hl.act (fun _ hf => absurd hf hfree) (by simp [State.emit, inFlight]) m⟩

/-- The first failure that is heard halts the run. -/
theorem abort (h : Layout slots n none k g w st) : Halted slots n st.abort where
  aborted := rfl
  started := by
    have hk : k ≤ n := by have := h.total; omega
    have hs : st.abort.started = List.range k := h.started
    rw [hs, ← Nat.min_eq_left hk, ← List.take_range]
    exact List.take_prefix k _
  quiet i := by
    rw [State.phase_abort]
    split
    · simp
    · assumption
  bounded := h.bounded

end Layout

/-! ## Runs that have been aborted -/

namespace Halted

variable {slots n : Nat} {st : State}

theorem drop (h : Halted slots n st) (t : Turn) : Halted slots n (st.drop t) := ⟨h.aborted, h.started, h.quiet, h.bounded⟩

/-- A halted schedule stays so whatever happens to its slots and its line. -/
theorem slots_line (h : Halted slots n st) (free : Nat) (line : List Nat) : Halted slots n { st with free, line } :=
  ⟨h.aborted, h.started, h.quiet, h.bounded⟩

/-- A job that is done is not in line. -/
theorem setPhase_done (h : Halted slots n st) (i : Nat) : Halted slots n (st.setPhase i .done) where
  aborted := h.aborted
  started := h.started
  quiet j := by
    by_cases hji : j = i
    · subst hji
      by_cases hj : j < st.phases.length
      · simp [State.phase_setPhase_self hj]
      · rw [State.phase_of_length_le (by simpa [State.setPhase] using hj)]
        decide
    · rw [State.phase_setPhase_of_ne st hji]
      exact h.quiet j
  bounded := h.bounded

theorem release (h : Halted slots n st) : Halted slots n st.release := by
  have hq := h.slots_line (st.free + 1) st.line
  unfold State.release
  rw [State.wakeNext_of_none_inLine hq.quiet]
  exact hq

/-- A job that is cancelled is not in flight any more. -/
theorem emit_cancelled (h : Halted slots n st) (i : Nat) : Halted slots n (st.emit (.cancelled i)) where
  aborted := h.aborted
  started := by
    have hs : (st.emit (.cancelled i)).started = st.started := by simp [State.started]
    rw [hs]
    exact h.started
  quiet := h.quiet
  bounded := bounded_cons h.bounded (Nat.le_trans List.erase_sublist.length_le (h.bounded _ (List.suffix_refl _)))

/-- Whoever has its turn in an aborted run is done with it. -/
theorem jobTurn (h : Halted slots n st) (i : Nat) (m : Move) : Halted slots n (st.jobTurn i m) := by
  rw [State.jobTurn_of_aborted h.aborted]
  cases st.phase i with
  | fresh => exact h.setPhase_done i
  | inLine => exact h
  | granted => exact ((h.slots_line st.free (st.line.filter (· != i))).setPhase_done i).release
  | leaving => exact (h.setPhase_done i).slots_line st.free (st.line.filter (· != i))
  | running => exact ((h.emit_cancelled i).setPhase_done i).release
  | done => exact h

end Halted

/-- A run is laid out or halted. -/
inductive Ordered (slots n : Nat) (st : State) : Prop where
  | live {k g w : Nat} : Layout slots n none k g w st → Busy g w st → Ordered slots n st
  | halted : Halted slots n st → Ordered slots n st

/-- A failure is heard. -/
theorem Ordered.failureTurn {slots n : Nat} {st : State} (h : Ordered slots n st) (i : Nat) :
    Ordered slots n ((st.drop (.failure i)).failureTurn i) := by
  unfold State.failureTurn
  cases h with
  | live hl hb =>
    have hab : (st.drop (.failure i)).aborted = false := hl.live
    have ha := hl.abort
    rw [if_neg (by simp [hab])]
    exact .halted ⟨rfl, ha.started, ha.quiet, ha.bounded⟩
  | halted hh =>
    have hd := hh.drop (.failure i)
    rw [if_pos hd.aborted]
    exact .halted ⟨hd.aborted, hd.started, hd.quiet, hd.bounded⟩

/-- Every state that a run gets to is ordered. -/
theorem Reachable.ordered {slots : Nat} {jobs : List Job} {st : State} (h : Reachable slots jobs st) :
    Ordered slots jobs.length st := by
  induction h with
  | initial => exact .live (Layout.initial slots jobs.length) (fun hw => absurd hw (Nat.lt_irrefl 0))
  | @turn st t m hr hdue _ ih =>
    cases t with
    | failure i => exact ih.failureTurn i
    | job i =>
      cases ih with
      | live hl hb =>
        obtain ⟨k', g', w', hl', hb'⟩ := hl.jobTurn hb hr.sound hdue m
        exact .live hl' hb'
      | halted hh => exact .halted ((hh.drop _).jobTurn i m)

end IconForge.Schedule
