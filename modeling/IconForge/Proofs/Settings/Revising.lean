import IconForge.Proofs.Path.Written
import IconForge.Proofs.Settings.Defaults
import IconForge.Settings.Revision

/-!
# Settings after any number of calls

Whether a call is refused depends on its keywords only, and a refused call changes nothing (`call_cases`). After any calls, each field has
the value that was brought for it last by a call that was not refused (`value_after`, `after_calls`). The objects of a run have different
numbers (`number_after`), and their paths are always ones that texts write (`isWritten_after`).
-/

namespace IconForge

open Component SettingsFile

/-- A field of settings, with the type of its values. -/
inductive Setting : Type → Type where
  | inputDir : Setting Path
  | outputDir : Setting Path
  | typescript : Setting Bool
  | pattern : Setting String
  | naming : Setting String
  | concurrency : Setting Int
  | staticDir : Setting (Option Path)
  | optimizer : Setting OptimizerSettings
  | formatter : Setting FormatterSettings

/-- A known naming and at least one slot. -/
structure SettingsDraft.IsSound (d : SettingsDraft) : Prop where
  naming : d.naming ∈ ["preserve", "pascal"]
  concurrency : 1 ≤ d.concurrency

/-- A draft whose paths are all ones that texts write. -/
structure SettingsDraft.IsWritten (d : SettingsDraft) : Prop where
  inputDir : d.inputDir.IsWritten
  outputDir : d.outputDir.IsWritten
  staticDir : ∀ p ∈ d.staticDir?, p.IsWritten

variable {α : Type} {r : Revision} {k : Keywords}

namespace Setting

/-- The value of a field. -/
def value : Setting α → SettingsDraft → α
  | .inputDir, d => d.inputDir
  | .outputDir, d => d.outputDir
  | .typescript, d => d.typescript
  | .pattern, d => d.pattern
  | .naming, d => d.naming
  | .concurrency, d => d.concurrency
  | .staticDir, d => d.staticDir?
  | .optimizer, d => d.optimizer
  | .formatter, d => d.formatter

/-- The value that keywords bring for a field. For a directory it is the path that their text writes. -/
def given : Setting α → Keywords → Option α
  | .inputDir, k => k.inputDir.join.map Path.ofString
  | .outputDir, k => k.outputDir.join.map Path.ofString
  | .typescript, k => k.typescript.join
  | .pattern, k => k.pattern.join
  | .naming, k => k.naming.join
  | .concurrency, k => k.concurrency.join
  | .staticDir, k => k.staticDir.join.map fun text => some (Path.ofString text)
  | .optimizer, k => k.optimizer.join
  | .formatter, k => k.formatter.join

/-- An override puts the values that are brought in the place of those that were there. -/
theorem value_onDraft (f : Setting α) (k : Keywords) (d : SettingsDraft) :
    f.value (k.override.onDraft d) = (f.given k).getD (f.value d) := by
  cases f with
  | staticDir =>
    simp only [value, given, Override.onDraft, Keywords.override]
    cases k.staticDir.join <;> rfl
  | _ => rfl

end Setting

namespace Keywords

/-- Keywords that bring no value. -/
def IsIdle (k : Keywords) : Prop := ∀ (α : Type) (f : Setting α), f.given k = none

/-- Keywords whose naming is known, if they bring one, and whose slots are at least one, if they bring any. -/
structure IsSound (k : Keywords) : Prop where
  naming : ∀ word ∈ Setting.naming.given k, word ∈ ["preserve", "pascal"]
  concurrency : ∀ slots ∈ Setting.concurrency.given k, 1 ≤ slots

/-- Nothing is overridden exactly when no keyword says anything. -/
theorem isEmpty_override_iff : k.override.isEmpty = true ↔ k.IsIdle := by
  simp only [Override.isEmpty, decide_eq_true_eq, override, Override.mk.injEq, Option.map_eq_none_iff]
  constructor
  · intro h α f
    cases f <;> simp [Setting.given, h]
  · intro h
    exact ⟨Option.map_eq_none_iff.mp (h _ .inputDir), Option.map_eq_none_iff.mp (h _ .outputDir), h _ .typescript, h _ .pattern,
      h _ .naming, h _ .concurrency, Option.map_eq_none_iff.mp (h _ .staticDir), h _ .optimizer, h _ .formatter⟩

/-- Keywords that say nothing are sound. -/
theorem IsIdle.isSound (h : k.IsIdle) : k.IsSound where
  naming word hword := by
    rw [h _ .naming] at hword
    cases hword
  concurrency slots hslots := by
    rw [h _ .concurrency] at hslots
    cases hslots

end Keywords

/-! ## The check -/

/-- Settings have passed the check. -/
theorem Settings.isSound_draft (s : Settings) : s.draft.IsSound where
  naming := by
    cases hnaming : s.naming <;> simp [Settings.draft, hnaming, Naming.toString]
  concurrency := by
    have := s.concurrency_pos
    simp only [Settings.draft]
    omega

/-- The check tells whether a draft is sound, and changes nothing in it. -/
theorem SettingsDraft.check_cases (d : SettingsDraft) :
    (d.IsSound ∧ ∃ s, s.draft = d ∧ d.check = .ok s) ∨ (¬d.IsSound ∧ ∃ e, d.check = .error e) := by
  cases hcheck : d.check with
  | ok s =>
    have hdraft := draft_of_check hcheck
    exact .inl ⟨hdraft ▸ s.isSound_draft, s, hdraft, rfl⟩
  | error e =>
    refine .inr ⟨fun h => ?_, e, rfl⟩
    have hnaming : ∃ naming : Naming, d.naming = naming.toString := by
      rcases List.mem_pair.mp h.naming with hword | hword
      · exact ⟨.preserve, hword⟩
      · exact ⟨.pascal, hword⟩
    obtain ⟨naming, hnaming⟩ := hnaming
    have hslots := h.concurrency
    obtain ⟨s, hs⟩ := exists_check_eq_ok hnaming (show 0 < d.concurrency.toNat by omega)
    rw [hs] at hcheck
    cases hcheck

/-- What replaces fields of settings is sound exactly if the replaced settings are. -/
theorem isSound_onDraft_iff (k : Keywords) (s : Settings) : (k.override.onDraft s.draft).IsSound ↔ k.IsSound := by
  have hnaming := Setting.naming.value_onDraft k s.draft
  have hslots := Setting.concurrency.value_onDraft k s.draft
  simp only [Setting.value] at hnaming hslots
  constructor
  · rintro ⟨h, h'⟩
    refine ⟨fun word hword => ?_, fun slots hgiven => ?_⟩
    · rwa [hnaming, Option.mem_def.mp hword] at h
    · rwa [hslots, Option.mem_def.mp hgiven] at h'
  · rintro ⟨h, h'⟩
    constructor
    · rw [hnaming]
      cases hword : Setting.naming.given k with
      | none => exact s.isSound_draft.naming
      | some word => exact h word hword
    · rw [hslots]
      cases hgiven : Setting.concurrency.given k with
      | none => exact s.isSound_draft.concurrency
      | some slots => exact h' slots hgiven

namespace Revision

/-! ## One call -/

/-- All that a call can do: it is refused for its keywords, it brings nothing, or it makes the next object. -/
theorem call_cases (r : Revision) (k : Keywords) :
    (¬k.IsSound ∧ ∃ e, r.call k = .error e) ∨ (k.IsIdle ∧ r.call k = .ok r) ∨
      (k.IsSound ∧ ¬k.IsIdle ∧ ∃ s, s.draft = k.override.onDraft r.settings.draft ∧ r.call k = .ok ⟨s, r.number + 1⟩) := by
  by_cases hidle : k.IsIdle
  · exact .inr (.inl ⟨hidle, by rw [call, if_pos (Keywords.isEmpty_override_iff.mpr hidle)]⟩)
  · have hempty : ¬k.override.isEmpty = true := mt Keywords.isEmpty_override_iff.mp hidle
    have hcall : r.call k = (k.override.onDraft r.settings.draft).check.map fun s => ⟨s, r.number + 1⟩ := by
      rw [call, if_neg hempty, Override.apply, if_neg hempty]
    rw [hcall]
    rcases (k.override.onDraft r.settings.draft).check_cases with ⟨hsound, s, hs, hcheck⟩ | ⟨hsound, e, hcheck⟩
    · exact .inr (.inr ⟨(isSound_onDraft_iff k _).mp hsound, hidle, s, hs, by rw [hcheck]; rfl⟩)
    · exact .inl ⟨mt (isSound_onDraft_iff k _).mpr hsound, e, by rw [hcheck]; rfl⟩

/-- Whether a call is refused is up to its keywords alone, and a refused call changes nothing. -/
theorem answered_or_refused (r : Revision) (k : Keywords) :
    (k.IsSound ∧ (r.call k).isOk = true) ∨ (¬k.IsSound ∧ (r.call k).isOk = false ∧ r.take k = r) := by
  rcases r.call_cases k with ⟨hsound, e, hcall⟩ | ⟨hidle, hcall⟩ | ⟨hsound, -, s, -, hcall⟩
  · exact .inr ⟨hsound, by rw [hcall]; rfl, by rw [take, hcall]⟩
  · exact .inl ⟨hidle.isSound, by rw [hcall]; rfl⟩
  · exact .inl ⟨hsound, by rw [hcall]; rfl⟩

/-- A call that brings no value is the only one that answers with the object in force. -/
theorem call_eq_self_iff : r.call k = .ok r ↔ k.IsIdle := by
  rcases r.call_cases k with ⟨hsound, e, hcall⟩ | ⟨hidle, hcall⟩ | ⟨-, hidle, s, -, hcall⟩
  · rw [hcall]
    exact ⟨nofun, fun hidle => absurd hidle.isSound hsound⟩
  · exact ⟨fun _ => hidle, fun _ => hcall⟩
  · rw [hcall]
    refine ⟨fun h => ?_, fun h => absurd h hidle⟩
    have hnumber := congrArg Revision.number (Except.ok.inj h)
    exact absurd hnumber (Nat.succ_ne_self _)

/-- A field after a call: the value that the call brings, unless it is refused or brings none. -/
theorem value_take (f : Setting α) (r : Revision) (k : Keywords) :
    f.value (r.take k).settings.draft =
      if (r.call k).isOk then (f.given k).getD (f.value r.settings.draft) else f.value r.settings.draft := by
  rcases r.call_cases k with ⟨-, e, hcall⟩ | ⟨hidle, hcall⟩ | ⟨-, -, s, hs, hcall⟩
  · rw [take, hcall]
    rfl
  · rw [take, hcall, hidle _ f]
    rfl
  · simp only [take, hcall, hs, f.value_onDraft, Except.isOk, Except.toBool, if_true]

/-- A call leaves the object in force, or makes one with the next number. -/
theorem take_cases (r : Revision) (k : Keywords) : r.take k = r ∨ (r.take k).number = r.number + 1 := by
  unfold take
  rcases r.call_cases k with ⟨-, e, hcall⟩ | ⟨-, hcall⟩ | ⟨-, -, s, -, hcall⟩ <;> simp [hcall]

/-- What holds of a field and of every value that a call brings for it holds of the field after the call. -/
theorem value_take_induction {P : α → Prop} (f : Setting α) (hold : P (f.value r.settings.draft)) (hgiven : ∀ x ∈ f.given k, P x) :
    P (f.value (r.take k).settings.draft) := by
  rw [value_take]
  split
  · cases hx : f.given k with
    | none => exact hold
    | some x => exact hgiven x hx
  · exact hold

/-- The paths that a call brings are read from texts. -/
theorem isWritten_take (h : r.settings.draft.IsWritten) (k : Keywords) : (r.take k).settings.draft.IsWritten := by
  have hdirectory : ∀ {keyword : Option (Option String)}, ∀ p ∈ keyword.join.map Path.ofString, p.IsWritten := by
    intro keyword p hp
    obtain ⟨text, -, rfl⟩ := Option.map_eq_some_iff.mp hp
    exact Path.isWritten_ofString text
  have hstatic : ∀ p? ∈ Setting.staticDir.given k, ∀ p ∈ p?, p.IsWritten := by
    intro p? hp
    obtain ⟨text, -, rfl⟩ := Option.map_eq_some_iff.mp hp
    rintro p ⟨⟩
    exact Path.isWritten_ofString text
  exact ⟨value_take_induction .inputDir h.inputDir hdirectory, value_take_induction .outputDir h.outputDir hdirectory,
    value_take_induction (P := fun p? => ∀ p ∈ p?, p.IsWritten) .staticDir h.staticDir hstatic⟩

/-! ## Any number of calls -/

/-- The calls that are not refused. -/
def accepted (r : Revision) : List Keywords → List Keywords
  | [] => []
  | k :: rest => if (r.call k).isOk then k :: (r.take k).accepted rest else (r.take k).accepted rest

theorem after_cons (r : Revision) (k : Keywords) (rest : List Keywords) : r.after (k :: rest) = (r.take k).after rest := rfl

/-- After any calls, a field has the value that was brought for it last, or still the one that it had. -/
theorem value_after (f : Setting α) (r : Revision) (calls : List Keywords) :
    f.value (r.after calls).settings.draft = (((r.accepted calls).filterMap f.given).getLast?).getD (f.value r.settings.draft) := by
  induction calls generalizing r with
  | nil => rfl
  | cons k rest ih =>
    rw [after_cons, ih, value_take, accepted]
    split
    · cases hgiven : f.given k with
      | none => rw [List.filterMap_cons_none hgiven, Option.getD_none]
      | some x =>
        rw [List.filterMap_cons_some hgiven, List.getLast?_cons]
        rfl
    · rfl

/-- Numbers only grow, so an object of a run that has the number of an earlier one is that one. -/
theorem number_after (r : Revision) (calls : List Keywords) :
    r.number ≤ (r.after calls).number ∧ ((r.after calls).number = r.number → r.after calls = r) := by
  induction calls generalizing r with
  | nil => exact ⟨Nat.le_refl _, fun _ => rfl⟩
  | cons k rest ih =>
    rw [after_cons]
    rcases r.take_cases k with htake | htake
    · rw [htake]
      exact ih r
    · have hle := (ih (r.take k)).1
      exact ⟨by omega, fun h => by omega⟩

/-- Whatever calls there have been, the paths of the settings are ones that texts write: to read them anew from their written forms, as is
done for each call, does not change them (`Path.ofString_toString`). -/
theorem isWritten_after (h : r.settings.draft.IsWritten) (calls : List Keywords) : (r.after calls).settings.draft.IsWritten := by
  induction calls generalizing r with
  | nil => exact h
  | cons k rest ih =>
    rw [after_cons]
    exact ih (isWritten_take h k)

/-- Whatever calls there have been: the settings in force have a known naming and at least one slot, and their paths are ones that texts
write if those at the start are; each field has the value of the last call that brought one and was not refused; an object that has the
number of the first one is that one. The next call is refused exactly if it brings an unknown naming or less than one slot, and then changes
nothing; and it answers with the object in force exactly if it brings no value. -/
theorem after_calls (r : Revision) (calls : List Keywords) :
    (r.after calls).settings.draft.naming ∈ ["preserve", "pascal"] ∧ 1 ≤ (r.after calls).settings.draft.concurrency ∧
    (r.settings.draft.IsWritten → (r.after calls).settings.draft.IsWritten) ∧
    (∀ (α : Type) (f : Setting α), f.value (r.after calls).settings.draft =
      (((r.accepted calls).filterMap f.given).getLast?).getD (f.value r.settings.draft)) ∧
    ((r.after calls).number = r.number → r.after calls = r) ∧
    ∀ k : Keywords,
      ((k.IsSound ∧ ((r.after calls).call k).isOk = true) ∨
        (¬k.IsSound ∧ ((r.after calls).call k).isOk = false ∧ (r.after calls).take k = r.after calls)) ∧
      ((r.after calls).call k = .ok (r.after calls) ↔ ∀ (α : Type) (f : Setting α), f.given k = none) := by
  have hsound := (r.after calls).settings.isSound_draft
  exact ⟨hsound.naming, hsound.concurrency, fun h => isWritten_after h calls, fun _ f => value_after f r calls,
    (number_after r calls).2, fun k => ⟨answered_or_refused _ k, call_eq_self_iff⟩⟩

/-- A refused call, one that brings nothing, and one whose values are empty or false, which count all the same. -/
theorem after_calls_mixed :
    let plain : Settings := ⟨Path.ofString "icons", Path.ofString "out", true, "*.svg", .preserve, 8, by decide, none, {}, {}⟩
    let calls : List Keywords := [{ naming := some (some "pascal"), outputDir := some (some "dist//./x") },
      { pattern := some (some "**"), concurrency := some (some 0) }, { pattern := some none, naming := some none },
      { pattern := some (some ""), typescript := some (some false) }]
    let r := Revision.after ⟨plain, 0⟩ calls
    r.settings.draft.IsWritten ∧ r.settings.draft.naming = "pascal" ∧ r.settings.draft.outputDir = ⟨.here, ["dist", "x"]⟩ ∧
      r.settings.draft.pattern = "" ∧ r.settings.draft.typescript = false ∧ r.settings.draft.concurrency = 8 ∧
      r.take { typescript := some (some true), naming := some (some "snake") } = r := by
  intro plain calls r
  obtain ⟨-, -, hwritten, hvalue, -, hnext⟩ := after_calls ⟨plain, 0⟩ calls
  refine ⟨hwritten ⟨by decide, by decide, nofun⟩, hvalue _ .naming, hvalue _ .outputDir, hvalue _ .pattern, hvalue _ .typescript,
    hvalue _ .concurrency, ?_⟩
  rcases (hnext { typescript := some (some true), naming := some (some "snake") }).1 with ⟨hsound, -⟩ | ⟨-, -, hsame⟩
  · exact absurd (hsound.naming "snake" rfl) (by decide)
  · exact hsame

end Revision

end IconForge
