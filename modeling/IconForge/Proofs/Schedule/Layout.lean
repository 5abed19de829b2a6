import IconForge.Proofs.Schedule.Sound

/-!
# Jobs start in order, and never more than the slots allow

Until a run is aborted its jobs lie in one row: those that have started, those that have been handed a slot, those in line,
and those that are fresh (`Layout`). Every turn of the agenda moves one border of the row, so jobs start in their order, and
a slot is free, held by a job in flight, or handed over. Once a run is aborted no job starts any more (`Halted`).
-/

namespace IconForge.Schedule

/-- The job of a turn, if it is one from some job on. -/
def Turn.from? (k : Nat) : Turn → Option Nat
  | .job i => if k ≤ i then some i else none
  | .failure _ => none

/-- The turns on the agenda of the jobs from one on. -/
def State.pending (st : State) (k : Nat) : List Nat := st.agenda.filterMap (Turn.from? k)

/-- The layout of a run that has not been aborted: the first `k` jobs have started, the next `g` have been handed a slot, the
next `w` are in line, and the others are fresh. Nothing is said of the phase of a job in hand, which has started. -/
structure Layout (slots n : Nat) (hand : Option Nat) (k g w : Nat) (st : State) : Prop where
  size : st.phases.length = n
  total : k + g + w ≤ n
  live : st.aborted = false
  started : st.started = List.range k
  inHand : ∀ i, hand = some i → i < k
  past : ∀ i < k, hand ≠ some i → st.phase i = .running ∨ st.phase i = .done
  granted : ∀ i, k ≤ i → i < k + g → st.phase i = .granted
  inLine : ∀ i, k + g ≤ i → i < k + g + w → st.phase i = .inLine
  fresh : ∀ i, k + g + w ≤ i → i < n → st.phase i = .fresh
  line : st.line = List.range' k (g + w)
  /-- The fresh jobs have their turns first, then those that have been handed a slot. -/
  pending : st.pending k = List.range' (k + g + w) (n - (k + g + w)) ++ List.range' k g
  /-- A slot is free, held or handed over. -/
  balance : st.free + (inFlight st.events).length + g = slots
  bounded : ∀ past, past <:+ st.events → (inFlight past).length ≤ slots

/-- No slot lies idle: where jobs are in line and a slot is free, one has been handed over, whose job passes the free one on. -/
def Busy (g w : Nat) (st : State) : Prop := 0 < w → 0 < st.free → 0 < g

/-- A run that has been aborted: nobody is in line, and the jobs that have started are the first ones. -/
structure Halted (slots n : Nat) (st : State) : Prop where
  aborted : st.aborted = true
  started : st.started <+: List.range n
  quiet : ∀ i, st.phase i ≠ .inLine
  bounded : ∀ past, past <:+ st.events → (inFlight past).length ≤ slots

/-- Recording an event that keeps the bound keeps it at every moment. -/
theorem bounded_cons {slots : Nat} {e : Event} {es : List Event} (h : ∀ past, past <:+ es → (inFlight past).length ≤ slots)
    (he : (inFlight (e :: es)).length ≤ slots) : ∀ past, past <:+ e :: es → (inFlight past).length ≤ slots := by
  intro past hp
  rcases List.suffix_cons_iff.mp hp with rfl | hp
  · exact he
  · exact h past hp

namespace Layout

variable {slots n k g w i : Nat} {hand : Option Nat} {st : State}

/-- At the beginning all jobs are to come, and all slots are free. -/
theorem initial (slots n : Nat) : Layout slots n none 0 0 0 (.initial n slots) where
  size := by simp [State.initial]
  total := by omega
  live := rfl
  started := rfl
  inHand := by simp
  past := by simp
  granted := by omega
  inLine := by omega
  fresh i _ hi := by simp [State.phase, State.initial, hi]
  line := rfl
  pending := by
    have hc : Turn.from? 0 ∘ Turn.job = some := funext fun i => by simp [Turn.from?]
    show ((List.range n).map Turn.job).filterMap (Turn.from? 0) = _
    rw [List.filterMap_map, hc, List.filterMap_some, List.range_eq_range']
    simp
  balance := by simp [State.initial, inFlight]
  bounded past hp := by
    have h : past = [] := List.suffix_nil.mp hp
    simp [h, inFlight]

/-! ## Handing over a slot -/

/-- The first job in line is the one behind those that have been handed a slot. -/
theorem find_inLine (h : Layout slots n hand k g (w + 1) st) :
    st.line.find? (fun i => st.phase i == .inLine) = some (k + g) := by
  have hsplit : List.range' k (g + (w + 1)) = List.range' k g ++ (k + g) :: List.range' (k + g + 1) w := by
    rw [← List.range'_append_1, List.range'_succ]
  have hnone : (List.range' k g).find? (fun i => st.phase i == .inLine) = none := by
    rw [List.find?_eq_none]
    intro j hj
    obtain ⟨hkj, hjg⟩ := List.mem_range'_1.mp hj
    simp [h.granted j hkj hjg]
  have hat : st.phase (k + g) = .inLine := h.inLine (k + g) (Nat.le_refl _) (by omega)
  rw [h.line, hsplit, List.find?_append, hnone, Option.none_or, List.find?_cons_of_pos (by simp [hat])]

/-- The border between those that have been handed a slot and those in line moves by one. -/
theorem grant (h : Layout slots n hand k g (w + 1) st) (hfree : 0 < st.free) :
    Layout slots n hand k (g + 1) w { (st.setPhase (k + g) .granted).enqueue (.job (k + g)) with free := st.free - 1 } where
  size := by simp [State.setPhase, State.enqueue, h.size]
  total := by have := h.total; omega
  live := h.live
  started := h.started
  inHand := h.inHand
  past j hj hne := by
    have hp : (st.setPhase (k + g) .granted).phase j = st.phase j := State.phase_setPhase_of_ne st (by omega) _
    exact hp ▸ h.past j hj hne
  granted j hkj hjg := by
    show (st.setPhase (k + g) .granted).phase j = .granted
    by_cases hj : j = k + g
    · subst hj
      have := h.total
      exact State.phase_setPhase_self (by rw [h.size]; omega) _
    · rw [State.phase_setPhase_of_ne st hj]
      exact h.granted j hkj (by omega)
  inLine j hj hjw := by
    show (st.setPhase (k + g) .granted).phase j = .inLine
    rw [State.phase_setPhase_of_ne st (by omega)]
    exact h.inLine j (by omega) (by omega)
  fresh j hj hjn := by
    show (st.setPhase (k + g) .granted).phase j = .fresh
    rw [State.phase_setPhase_of_ne st (by omega)]
    exact h.fresh j (by omega) hjn
  line := by
    show st.line = _
    rw [h.line]
    congr 1
    omega
  pending := by
    have ht : Turn.from? k (.job (k + g)) = some (k + g) := by simp [Turn.from?]
    show (st.agenda ++ [Turn.job (k + g)]).filterMap (Turn.from? k) = _
    have hp : st.agenda.filterMap (Turn.from? k) = _ := h.pending
    rw [List.filterMap_append, hp, List.filterMap_cons_some ht, List.filterMap_nil, List.append_assoc,
      ← List.range'_1_concat]
    congr 2 <;> omega
  balance := by
    have := h.balance
    show st.free - 1 + (inFlight st.events).length + (g + 1) = slots
    omega
  bounded := h.bounded

/-- A free slot is handed to the first job in line, if there is one. -/
theorem wakeNext (h : Layout slots n hand k g w st) (hfree : 0 < st.free) :
    ∃ g' w', Layout slots n hand k g' w' st.wakeNext ∧ Busy g' w' st.wakeNext := by
  cases w with
  | zero =>
    have hnone : st.line.find? (fun i => st.phase i == .inLine) = none := by
      rw [h.line, List.find?_eq_none]
      intro j hj
      obtain ⟨hkj, hjg⟩ := List.mem_range'_1.mp hj
      simp [h.granted j hkj (by omega)]
    have hst : st.wakeNext = st := by simp only [State.wakeNext, hnone]
    rw [hst]
    exact ⟨g, 0, h, fun hw => absurd hw (Nat.lt_irrefl 0)⟩
  | succ w =>
    have hst : st.wakeNext = { (st.setPhase (k + g) .granted).enqueue (.job (k + g)) with free := st.free - 1 } := by
      simp only [State.wakeNext, h.find_inLine]
    rw [hst]
    exact ⟨g + 1, w, h.grant hfree, fun _ _ => Nat.succ_pos g⟩

/-! ## A job in hand -/

/-- The turn of a job that has started is taken. -/
theorem drop_past (h : Layout slots n none k g w st) (hi : i < k) : Layout slots n (some i) k g w (st.drop (.job i)) where
  size := h.size
  total := h.total
  live := h.live
  started := h.started
  inHand j hj := by
    cases hj
    exact hi
  past j hj _ := h.past j hj (by simp)
  granted := h.granted
  inLine := h.inLine
  fresh := h.fresh
  line := h.line
  pending := by
    have ht : Turn.from? k (.job i) = none := by simp [Turn.from?, hi]
    exact (filterMap_erase_of_eq_none ht st.agenda).trans h.pending
  balance := h.balance
  bounded := h.bounded

/-- A job in hand that is running or done comes back. -/
theorem back (h : Layout slots n (some i) k g w st) (hp : st.phase i = .running ∨ st.phase i = .done) :
    Layout slots n none k g w st where
  size := h.size
  total := h.total
  live := h.live
  started := h.started
  inHand := by simp
  past j hj _ := by
    by_cases hji : j = i
    · exact hji ▸ hp
    · exact h.past j hj (by simpa using Ne.symm hji)
  granted := h.granted
  inLine := h.inLine
  fresh := h.fresh
  line := h.line
  pending := h.pending
  balance := h.balance
  bounded := h.bounded

/-- The phase of a job in hand does not matter. -/
theorem setPhase (h : Layout slots n (some i) k g w st) (p : Phase) : Layout slots n (some i) k g w (st.setPhase i p) := by
  have hi : i < k := h.inHand i rfl
  have hsame : ∀ j, j ≠ i → (st.setPhase i p).phase j = st.phase j := fun j hj => State.phase_setPhase_of_ne st hj p
  refine ⟨by simp [State.setPhase, h.size], h.total, h.live, h.started, h.inHand, ?_, ?_, ?_, ?_, h.line, h.pending,
    h.balance, h.bounded⟩
  · intro j hj hne
    rw [hsame j (by simpa using Ne.symm hne)]
    exact h.past j hj hne
  · intro j hkj hjg
    rw [hsame j (by omega)]
    exact h.granted j hkj hjg
  · intro j hj hjw
    rw [hsame j (by omega)]
    exact h.inLine j hj hjw
  · intro j hj hjn
    rw [hsame j (by omega)]
    exact h.fresh j hj hjn

/-- A turn is put on the agenda that is not the turn of a job that has not started. -/
theorem enqueue (h : Layout slots n hand k g w st) {t : Turn} (ht : Turn.from? k t = none) :
    Layout slots n hand k g w (st.enqueue t) where
  size := h.size
  total := h.total
  live := h.live
  started := h.started
  inHand := h.inHand
  past := h.past
  granted := h.granted
  inLine := h.inLine
  fresh := h.fresh
  line := h.line
  pending := by
    show (st.agenda ++ [t]).filterMap (Turn.from? k) = _
    rw [List.filterMap_append, List.filterMap_cons_none ht, List.filterMap_nil, List.append_nil]
    exact h.pending
  balance := h.balance
  bounded := h.bounded

/-- A job in flight ends and gives back its slot. -/
theorem emit_end (h : Layout slots n hand k g w st) {e : Event} (he : inFlight (e :: st.events) = (inFlight st.events).erase i)
    (hs : (st.emit e).started = st.started) (hi : i ∈ inFlight st.events) :
    Layout slots n hand k g w { st.emit e with free := st.free + 1 } where
  size := h.size
  total := h.total
  live := h.live
  started := hs.trans h.started
  inHand := h.inHand
  past := h.past
  granted := h.granted
  inLine := h.inLine
  fresh := h.fresh
  line := h.line
  pending := h.pending
  balance := by
    have hb := h.balance
    have hl := List.length_erase_of_mem hi
    have hpos := List.length_pos_of_mem hi
    show st.free + 1 + (inFlight (e :: st.events)).length + g = slots
    rw [he, hl]
    omega
  bounded := by
    refine bounded_cons h.bounded ?_
    rw [he]
    exact Nat.le_trans (List.erase_sublist.length_le) (h.bounded _ (List.suffix_refl _))

/-- A job in hand ends; its slot goes to the next job in line. -/
theorem finish (h : Layout slots n (some i) k g w st) {e : Event}
    (he : inFlight (e :: st.events) = (inFlight st.events).erase i) (hs : (st.emit e).started = st.started)
    (hi : i ∈ inFlight st.events) :
    ∃ g' w', Layout slots n none k g' w' ((st.emit e).setPhase i .done).release ∧
      Busy g' w' ((st.emit e).setPhase i .done).release := by
  have hl := (h.emit_end he hs hi).setPhase .done
  have hlt : i < st.phases.length := by
    have hik := h.inHand i rfl
    have ht := h.total
    rw [h.size]
    omega
  exact (hl.back (.inr (State.phase_setPhase_self hlt _))).wakeNext (Nat.succ_pos _)

/-- A running job does what a move says. -/
theorem act (h : Layout slots n (some i) k g w st) (hb : Busy g w st) (hi : i ∈ inFlight st.events) (m : Move) :
    ∃ g' w', Layout slots n none k g' w' (st.act i m) ∧ Busy g' w' (st.act i m) := by
  have hik : i < k := h.inHand i rfl
  cases m with
  | wait =>
    have hlt : i < st.phases.length := by
      have ht := h.total
      rw [h.size]
      omega
    refine ⟨g, w, ?_, hb⟩
    exact ((h.setPhase .running).back (.inl (State.phase_setPhase_self hlt _))).enqueue (by simp [Turn.from?, hik])
  | finish => exact h.finish rfl (by simp [State.started]) hi
  | fail =>
    obtain ⟨g', w', hl, hb'⟩ := h.finish (e := .failed i) rfl (by simp [State.started]) hi
    exact ⟨g', w', hl.enqueue rfl, hb'⟩

end Layout

end IconForge.Schedule
