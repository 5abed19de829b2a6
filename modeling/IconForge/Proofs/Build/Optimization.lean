import IconForge.Build.Run
import IconForge.Proofs.Schedule.End

/-!
# What the optimizations come to

The results of a build are settled when the run of its optimizations has ended. Where nothing failed they are those of all
icons, in the order of the icons and not in that of the events; otherwise the failure that happened first is all
that is left.
-/

namespace IconForge.Build

open Schedule

/-- The job of an attempt without a text is one that fails. -/
theorem fails_job_iff (a : Attempt) : a.job.fails = true ↔ ∃ e, a.outcome = .error e := by
  unfold Attempt.job
  cases a.outcome <;> simp [Except.toBool]

/-- The job of an attempt with a text is one that does not fail. -/
theorem fails_job_eq_false_iff (a : Attempt) : a.job.fails = false ↔ ∃ text, a.outcome = .ok text := by
  unfold Attempt.job
  cases a.outcome <;> simp [Except.toBool]

theorem length_jobsOf (attempts : List (Icon × Attempt)) : (jobsOf attempts).length = attempts.length := List.length_map _

/-- The jobs that exist are those of the attempts. -/
theorem getElem?_jobsOf {attempts : List (Icon × Attempt)} {i : Nat} {j : Job} (h : (jobsOf attempts)[i]? = some j) :
    ∃ icon a, attempts[i]? = some (icon, a) ∧ a.job = j := by
  rw [jobsOf, List.getElem?_map, Option.map_eq_some_iff] at h
  obtain ⟨⟨icon, a⟩, ha, rfl⟩ := h
  exact ⟨icon, a, ha, rfl⟩

/-! ## Results -/

/-- All results are there exactly if every attempt has one. -/
theorem results_eq_ok_iff {attempts : List (Icon × Attempt)} {texts : List String} :
    results attempts = .ok texts ↔ attempts.map (fun a => a.2.outcome) = texts.map .ok := by
  induction attempts generalizing texts with
  | nil => cases texts <;> simp [results]
  | cons first rest ih =>
    obtain ⟨icon, a⟩ := first
    cases ha : a.outcome with
    | error e => cases texts <;> simp [results, ha]
    | ok text =>
      cases texts with
      | nil => cases hr : results rest <;> simp [results, ha, hr, Except.map]
      | cons t ts =>
        rw [List.map_cons, List.map_cons, List.cons.injEq, ← ih]
        cases hr : results rest <;> simp [results, ha, hr, Except.map]

section
variable {slots : Nat} {attempts : List (Icon × Attempt)} {st : State}

/-- Where nothing has failed every attempt has a text. -/
theorem texts_of_failures_eq_nil (h : Reachable slots (jobsOf attempts) st) (hslots : 0 < slots) (ha : st.agenda = [])
    (hf : st.failures = []) : ∃ texts : List String, attempts.map (fun a => a.2.outcome) = texts.map .ok := by
  refine ⟨attempts.map fun a => a.2.outcome.toOption.getD "", ?_⟩
  rw [List.map_map]
  refine List.map_congr_left fun x hx => ?_
  obtain ⟨i, hi, rfl⟩ := List.mem_iff_getElem.mp hx
  have hlt : i < (jobsOf attempts).length := by simpa [jobsOf] using hi
  obtain ⟨-, j, hj, hn⟩ := h.fits_of_failures_eq_nil hslots ha hf hlt
  obtain ⟨icon, a, hget, rfl⟩ := getElem?_jobsOf hj
  obtain ⟨text, ht⟩ := (fails_job_eq_false_iff a).mp hn
  rw [List.getElem?_eq_getElem hi, Option.some.injEq] at hget
  simp [hget, ht, Except.toOption]

/-- Where nothing has failed the results are those of all attempts, in their order. -/
theorem settle_of_failures_eq_nil (h : Reachable slots (jobsOf attempts) st) (ha : st.agenda = []) (hf : st.failures = [])
    {texts : List String} (ht : attempts.map (fun a => a.2.outcome) = texts.map .ok) : settle attempts st = .ok texts := by
  have hheard : st.heard = [] := (h.heard_eq_failures ha).trans hf
  simp only [settle, hheard, List.head?_nil, Option.bind_none]
  exact results_eq_ok_iff.mpr ht

/-- The failure that happened first is that of an attempt without a text, and it is what is left. -/
theorem settle_of_failures_eq_cons {i : Nat} {rest : List Nat} (h : Reachable slots (jobsOf attempts) st) (hslots : 0 < slots)
    (ha : st.agenda = []) (hf : st.failures = i :: rest) : ∃ icon a e, attempts[i]? = some (icon, a) ∧ a.outcome = .error e ∧
      settle attempts st = .error (e.failure (.optimize icon.path)) := by
  obtain ⟨j, hj, hfails⟩ := h.fails_of_mem_failures hslots ha (i := i) (by simp [hf])
  obtain ⟨icon, a, hget, rfl⟩ := getElem?_jobsOf hj
  obtain ⟨e, he⟩ := (fails_job_iff a).mp hfails
  have hheard : st.heard = i :: rest := (h.heard_eq_failures ha).trans hf
  refine ⟨icon, a, e, hget, he, ?_⟩
  simp only [settle, hheard, List.head?_cons, Option.bind_some, hget, results, he]

/-- A run that has ended with results is one in which nothing has failed. -/
theorem failures_eq_nil_of_settle {texts : List String} (h : Reachable slots (jobsOf attempts) st) (hslots : 0 < slots)
    (ha : st.agenda = []) (hs : settle attempts st = .ok texts) :
    st.failures = [] ∧ attempts.map (fun a => a.2.outcome) = texts.map .ok := by
  cases hf : st.failures with
  | nil =>
    obtain ⟨texts', ht⟩ := texts_of_failures_eq_nil h hslots ha hf
    rw [settle_of_failures_eq_nil h ha hf ht, Except.ok.injEq] at hs
    exact ⟨rfl, hs ▸ ht⟩
  | cons i rest =>
    obtain ⟨_, _, _, _, _, hsettle⟩ := settle_of_failures_eq_cons h hslots ha hf
    exact nomatch hs.symm.trans hsettle

/-- The error of a run that has ended is that of the optimization that was the first to fail. -/
theorem failures_eq_cons_of_settle {e : Failure} (h : Reachable slots (jobsOf attempts) st) (hslots : 0 < slots)
    (ha : st.agenda = []) (hs : settle attempts st = .error e) :
    ∃ i rest icon a e', st.failures = i :: rest ∧ attempts[i]? = some (icon, a) ∧ a.outcome = .error e' ∧
      e = e'.failure (.optimize icon.path) := by
  cases hf : st.failures with
  | nil =>
    obtain ⟨texts, ht⟩ := texts_of_failures_eq_nil h hslots ha hf
    exact nomatch hs.symm.trans (settle_of_failures_eq_nil h ha hf ht)
  | cons i rest =>
    obtain ⟨icon, a, e', hget, he, hsettle⟩ := settle_of_failures_eq_cons h hslots ha hf
    exact ⟨i, rest, icon, a, e', rfl, hget, he, Except.error.inj (hs.symm.trans hsettle)⟩

end

/-- What is left at the end of a run of optimizations. -/
structure Settled (attempts : List (Icon × Attempt)) (st : State) : Prop where
  idle : inFlight st.events = []
  done : ∀ i, st.phase i = .done
  once : st.started.Nodup
  /-- Every optimization that has started is exactly one of finished and cancelled. -/
  parted : (st.finished ++ st.cancelled).Perm st.started
  /-- Without a failure everything has finished, and the results come in the order of the icons. -/
  success : st.failures = [] → st.finished.Perm (List.range attempts.length) ∧
    ∃ texts : List String, attempts.map (fun a => a.2.outcome) = texts.map .ok ∧ settle attempts st = .ok texts
  /-- With a failure the one that happened first is all that is left. -/
  failure : ∀ i rest, st.failures = i :: rest → ∃ icon a e, attempts[i]? = some (icon, a) ∧ a.outcome = .error e ∧
    settle attempts st = .error (e.failure (.optimize icon.path))

/-- However long the optimizations take and in whatever order they end: at no moment more of them are in flight than there
are slots, they start in the order of the icons, and every run that has ended is settled. The run that counts turns is one
that ends. -/
theorem bounded_optimization {slots : Nat} (hslots : 0 < slots) (attempts : List (Icon × Attempt)) :
    (∀ st, Reachable slots (jobsOf attempts) st →
      (∀ past, past <:+ st.events → (inFlight past).length ≤ slots) ∧ st.started <+: List.range attempts.length ∧
      (st.agenda = [] → Settled attempts st)) ∧
    Reachable slots (jobsOf attempts) (run slots (jobsOf attempts)) ∧ (run slots (jobsOf attempts)).agenda = [] := by
  have hlen := length_jobsOf attempts
  refine ⟨fun st h => ⟨fun past hp => h.bounded hp, hlen ▸ h.started_prefix, fun ha => ?_⟩, run_reachable _ _, run_agenda _ _⟩
  refine ⟨h.inFlight_eq_nil ha, h.phase_eq_done hslots ha, h.started_nodup, h.finished_append_cancelled hslots ha, ?_, ?_⟩
  · intro hf
    obtain ⟨texts, ht⟩ := texts_of_failures_eq_nil h hslots ha hf
    exact ⟨hlen ▸ h.finished_perm_range hslots ha hf, texts, ht, settle_of_failures_eq_nil h ha hf ht⟩
  · intro i rest hf
    exact settle_of_failures_eq_cons h hslots ha hf

/-- Two slots, and the second of three optimizations fails while the first one is still waiting. -/
theorem bounded_optimization_with_failure :
    let trio : List (Icon × Attempt) :=
      [(⟨⟨.here, ["a.svg"]⟩, "a"⟩, ⟨3, .ok "A"⟩), (⟨⟨.here, ["b.svg"]⟩, "b"⟩, ⟨1, .error (.refused "no")⟩),
       (⟨⟨.here, ["c.svg"]⟩, "c"⟩, ⟨0, .ok "C"⟩)]
    let st := run 2 (jobsOf trio)
    0 < 2 ∧ Reachable 2 (jobsOf trio) st ∧ st.agenda = [] ∧ Settled trio st ∧ st.failures = [1] ∧ st.cancelled = [0] := by
  intro trio st
  obtain ⟨hall, hr, ha⟩ := bounded_optimization (show 0 < 2 by decide) trio
  exact ⟨by decide, hr, ha, (hall st hr).2.2 ha, by decide, by decide⟩

end IconForge.Build
