import IconForge.Proofs.Text.Trim
import IconForge.Proofs.Text.Utf8
import IconForge.Tool.Svgo

/-!
# What the optimizer's child comes to

A child optimizes (`Optimized`), fails (`Failed`), or ends well with bytes that are no text (`Garbled`). The optimizer gives a text, refuses
or does what is not expected of it in these three cases, and in no others (`outcome_eq_ok_iff`, `outcome_refused_iff`,
`outcome_unexpected_iff`).
-/

namespace IconForge.Tool

open Text Build

/-- The child ends with 0, and what it writes is a text with the optimized one between blanks. -/
inductive Optimized : ChildRun → String → Prop where
  | intro {out s : String} (stderr : List UInt8) : IsCore out.toList s.toList → s ≠ "" → Optimized (.ended 0 (Utf8.encode out) stderr) s

/-- There is no child, it ends with another code, or it writes nothing but blanks. -/
inductive Failed : ChildRun → Prop where
  | missing : Failed .missing
  | code {code : Int} (stdout stderr : List UInt8) : code ≠ 0 → Failed (.ended code stdout stderr)
  | blank {out : String} (stderr : List UInt8) : (∀ c ∈ out.toList, isBlank c = true) → Failed (.ended 0 (Utf8.encode out) stderr)

/-- The child ends with 0, and what it writes is no text. -/
inductive Garbled : ChildRun → Prop where
  | intro {stdout : List UInt8} (stderr : List UInt8) : (∀ text, stdout ≠ Utf8.encode text) → Garbled (.ended 0 stdout stderr)

variable {executable s out : String} {run : ChildRun} {stdout stderr : List UInt8}

/-- Nothing is left of a text that holds nothing but blanks. -/
theorem trimmed_eq_empty_iff {text : String} : trimmed text = "" ↔ ∀ c ∈ text.toList, isBlank c = true := by
  rw [trimmed_eq_iff]
  constructor
  · rintro ⟨⟨front, back, heq, hfront, hback⟩, -, -⟩ c hc
    rw [heq, String.toList_empty, List.append_nil, List.mem_append] at hc
    exact hc.elim (hfront c) (hback c)
  · intro hblank
    exact ⟨⟨text.toList, [], by simp, hblank, by simp⟩, by simp, by simp⟩

/-- The end of a child that ends with 0 and writes a text. -/
theorem outcome_of_text (executable out : String) (stderr : List UInt8) :
    Svgo.outcome executable (.ended 0 (Utf8.encode out) stderr) =
      if trimmed out = "" then .error (.refused "svgo returned no output") else .ok (trimmed out) := by
  rw [Svgo.outcome, if_neg (not_not_intro rfl), decodeOutput, Utf8.decode_eq_ok_iff.mpr rfl]

/-- The end of a child that ends with 0 and writes no text. -/
theorem outcome_of_garbled (executable : String) (stderr : List UInt8) (h : ∀ text, stdout ≠ Utf8.encode text) :
    ∃ f, Svgo.outcome executable (.ended 0 stdout stderr) = .error (.unexpected f) := by
  obtain ⟨f, hf⟩ := Utf8.exists_error_iff.mpr h
  exact ⟨_, by rw [Svgo.outcome, if_neg (not_not_intro rfl), decodeOutput, hf]⟩

/-- The end of a child that ends with another code. -/
theorem outcome_of_code {code : Int} (executable : String) (stdout stderr : List UInt8) (h : code ≠ 0) :
    ∃ message, Svgo.outcome executable (.ended code stdout stderr) = .error (.refused message) :=
  ⟨_, by rw [Svgo.outcome, if_pos h]⟩

/-- A child optimizes, fails or writes no text. -/
theorem optimized_or_failed_or_garbled (run : ChildRun) : (∃ s, Optimized run s) ∨ Failed run ∨ Garbled run := by
  cases run with
  | missing => exact .inr (.inl .missing)
  | ended code stdout stderr =>
    by_cases hcode : code = 0
    · subst hcode
      by_cases htext : ∃ out, stdout = Utf8.encode out
      · obtain ⟨out, rfl⟩ := htext
        by_cases hblank : trimmed out = ""
        · exact .inr (.inl (.blank stderr (trimmed_eq_empty_iff.mp hblank)))
        · exact .inl ⟨trimmed out, .intro stderr (trimmed_eq_iff.mp rfl) hblank⟩
      · exact .inr (.inr (.intro stderr (not_exists.mp htext)))
    · exact .inr (.inl (.code stdout stderr hcode))

/-- A child that has optimized gives its output. -/
theorem Optimized.outcome_eq (h : Optimized run s) : Svgo.outcome executable run = .ok s := by
  obtain ⟨stderr, hcore, hne⟩ := h
  rw [outcome_of_text, trimmed_eq_iff.mpr hcore, if_neg hne]

/-- A child that has failed is refused with a message. -/
theorem Failed.outcome_eq (executable : String) (h : Failed run) : ∃ message, Svgo.outcome executable run = .error (.refused message) := by
  cases h with
  | missing => exact ⟨_, rfl⟩
  | code stdout stderr hcode => exact outcome_of_code executable stdout stderr hcode
  | blank stderr hblank => exact ⟨_, by rw [outcome_of_text, if_pos (trimmed_eq_empty_iff.mpr hblank)]⟩

/-- A child whose output is no text ends in an unforeseen exception. -/
theorem Garbled.outcome_eq (executable : String) (h : Garbled run) : ∃ f, Svgo.outcome executable run = .error (.unexpected f) := by
  obtain ⟨stderr, hgarbled⟩ := h
  exact outcome_of_garbled executable stderr hgarbled

/-- The optimizer gives what its child has optimized. -/
theorem outcome_eq_ok_iff : Svgo.outcome executable run = .ok s ↔ Optimized run s := by
  refine ⟨fun h => ?_, Optimized.outcome_eq⟩
  rcases optimized_or_failed_or_garbled run with ⟨s', hopt⟩ | hfailed | hgarbled
  · rw [hopt.outcome_eq, Except.ok.injEq] at h
    exact h ▸ hopt
  · obtain ⟨message, herror⟩ := hfailed.outcome_eq executable
    cases herror.symm.trans h
  · obtain ⟨f, herror⟩ := hgarbled.outcome_eq executable
    cases herror.symm.trans h

/-- The optimizer refuses when its child fails. -/
theorem outcome_refused_iff : (∃ message, Svgo.outcome executable run = .error (.refused message)) ↔ Failed run := by
  refine ⟨fun ⟨message, h⟩ => ?_, Failed.outcome_eq executable⟩
  rcases optimized_or_failed_or_garbled run with ⟨s, hopt⟩ | hfailed | hgarbled
  · cases hopt.outcome_eq.symm.trans h
  · exact hfailed
  · obtain ⟨f, herror⟩ := hgarbled.outcome_eq executable
    cases herror.symm.trans h

/-- What is not expected of the optimizer happens when its child writes no text. -/
theorem outcome_unexpected_iff : (∃ f, Svgo.outcome executable run = .error (.unexpected f)) ↔ Garbled run := by
  refine ⟨fun ⟨f, h⟩ => ?_, Garbled.outcome_eq executable⟩
  rcases optimized_or_failed_or_garbled run with ⟨s, hopt⟩ | hfailed | hgarbled
  · cases hopt.outcome_eq.symm.trans h
  · obtain ⟨message, herror⟩ := hfailed.outcome_eq executable
    cases herror.symm.trans h
  · exact hgarbled

end IconForge.Tool
