import IconForge.Tool.Bench
import Mathlib.Data.List.Induction

/-!
# The settings file of an optimizer

However an optimizer is used, it has at most one settings file, with the text that it tells (`Sound`), and it has one exactly if a child
has been started since it was closed last (`files_ne_nil_iff`). Two children are told of the same file unless the optimizer has been closed
between them (`config_eq_iff`).
-/

namespace IconForge.Tool.Bench

variable {place : Nat → String} {s : Svgo} {b : Bench} {u : Use} {us : List Use} {child child' : Child}

/-- An optimizer that is run like another one. If it has a settings file, that is the one that was made last, with the text for it. -/
structure Sound (place : Nat → String) (s : Svgo) (b : Bench) : Prop where
  executable : b.svgo.executable = s.executable
  plugins : b.svgo.plugins = s.plugins
  files : b.files = if b.svgo.isOpen then [(b.config place, s.configSource)] else []
  created : b.svgo.isOpen = true → 0 < b.svgo.created

/-- The child that an optimizer starts for a text, when it is told of a settings file with the text for that optimizer. -/
def childOf (s : Svgo) (config markup : String) : Child :=
  { arguments := s.arguments config, input := markup, config, settings? := some s.configSource }

/-- The uses since an optimizer was closed last, the latest one first. -/
def sinceClose (us : List Use) : List Use := us.reverse.takeWhile (· != .close)

/-- Closing forgets the uses so far, and any other use is remembered. -/
theorem sinceClose_concat (us : List Use) (u : Use) : sinceClose (us ++ [u]) = if u = .close then [] else u :: sinceClose us := by
  rw [sinceClose, List.reverse_append, List.reverse_singleton, List.singleton_append, List.takeWhile_cons]
  by_cases h : u = .close <;> simp [h, sinceClose]

/-- A bench is used in two parts as it is in one. -/
theorem after_append (place : Nat → String) (b : Bench) (us vs : List Use) :
    b.after place (us ++ vs) = (b.after place us).after place vs := List.foldl_append

/-! ## One use -/

/-- An optimizer is open once it has a settings file. -/
theorem isOpen_opened (s : Svgo) : s.opened.isOpen = true := by
  unfold Svgo.opened
  split
  · assumption
  · rfl

theorem opened_opened (s : Svgo) : s.opened.opened = s.opened := by
  rw [Svgo.opened, if_pos (isOpen_opened s)]

theorem svgo_ready (place : Nat → String) (b : Bench) : (b.ready place).svgo = b.svgo.opened := by
  unfold ready Svgo.opened
  split <;> rfl

/-- A bench that is ready need not be made ready again. -/
theorem ready_ready (place : Nat → String) (b : Bench) : (b.ready place).ready place = b.ready place := by
  have hopen : (b.ready place).svgo.isOpen = true := by rw [svgo_ready, isOpen_opened]
  rw [ready, if_pos hopen]

theorem svgo_close (place : Nat → String) (b : Bench) : (b.close place).svgo = b.svgo.closed := by
  unfold close
  split
  · rfl
  · rename_i h
    rw [Bool.not_eq_true] at h
    rw [Svgo.closed, ← h]

theorem sound_new (place : Nat → String) (executable? : Option String) (plugins : List String) :
    Sound place (Svgo.new executable? plugins) (new executable? plugins) := ⟨rfl, rfl, rfl, nofun⟩

namespace Sound

variable (h : Sound place s b)
include h

/-- The settings file holds what the optimizer would write. -/
theorem configSource_eq : b.svgo.configSource = s.configSource := by
  have hsettings : b.svgo.settings = s.settings := by simp only [Svgo.settings, h.plugins]
  unfold Svgo.configSource
  rw [hsettings]

theorem ready : Sound place s (b.ready place) := by
  by_cases hopen : b.svgo.isOpen = true
  · rw [Bench.ready, if_pos hopen]
    exact h
  · have hfiles := h.files
    rw [if_neg hopen] at hfiles
    rw [Bench.ready, if_neg hopen, hfiles, h.configSource_eq, Svgo.opened, if_neg hopen]
    exact ⟨h.executable, h.plugins, rfl, fun _ => Nat.succ_pos _⟩

theorem close : Sound place s (b.close place) := by
  have hfiles := h.files
  by_cases hopen : b.svgo.isOpen = true
  · rw [if_pos hopen] at hfiles
    rw [Bench.close, if_pos hopen, hfiles]
    exact ⟨h.executable, h.plugins, by simp [Svgo.closed], nofun⟩
  · rw [Bench.close, if_neg hopen]
    exact h

/-- Every use keeps an optimizer sound. -/
theorem use (u : Use) : Sound place s (b.use place u).2 := by
  cases u with
  | configSource => exact h
  | close => exact h.close
  | optimize markup course => exact h.ready

/-- However it is used, an optimizer stays sound. -/
theorem after (us : List Use) : Sound place s (b.after place us) := by
  induction us generalizing b with
  | nil => exact h
  | cons u rest ih => exact ih (h.use u)

/-- What a child is told of is there when it is started. -/
theorem child_eq (markup : String) : (b.ready place).child place markup = childOf s ((b.ready place).config place) markup := by
  have hfiles := h.ready.files
  rw [svgo_ready, isOpen_opened, if_pos rfl] at hfiles
  simp [Bench.child, childOf, hfiles, Svgo.arguments, h.ready.executable]

/-- The child that a use starts. -/
theorem of_child (hc : (b.use place u).1.child? = some child) : ∃ markup course, u = .optimize markup course ∧
    child = childOf s ((b.ready place).config place) markup := by
  cases u with
  | configSource => cases hc
  | close => cases hc
  | optimize markup course =>
    cases hc
    exact ⟨markup, course, rfl, h.child_eq markup⟩

/-- There is one settings file at the most. -/
theorem length_files_le : b.files.length ≤ 1 := by
  rw [h.files]
  split <;> simp

/-- There is a settings file exactly as long as the optimizer is open. -/
theorem files_ne_nil_iff : b.files ≠ [] ↔ b.svgo.isOpen = true := by
  rw [h.files]
  split <;> simp [*]

end Sound

/-! ## Closing -/

/-- An optimizer that was closed at first is open exactly if a child has been started since it was closed last. -/
theorem isOpen_after_iff (h : b.svgo.isOpen = false) (us : List Use) :
    (b.after place us).svgo.isOpen = true ↔ ∃ markup course, .optimize markup course ∈ sinceClose us := by
  induction us using List.reverseRecOn with
  | nil => simp [after, h, sinceClose]
  | append_singleton us u ih =>
    rw [after_append, sinceClose_concat]
    cases u with
    | configSource => simpa [after, use] using ih
    | close => simp [after, use, svgo_close, Svgo.closed]
    | optimize markup course =>
      have hopen : ((b.after place us).ready place).svgo.isOpen = true := by rw [svgo_ready, isOpen_opened]
      exact ⟨fun _ => ⟨markup, course, List.mem_cons_self⟩, fun _ => hopen⟩

/-- How many settings files an optimizer will have made when it has started one more child. -/
def generation (b : Bench) : Nat := b.svgo.opened.created

theorem generation_of_isOpen (h : b.svgo.isOpen = true) : b.generation = b.svgo.created := by
  rw [generation, Svgo.opened, if_pos h]

/-- Only closing an open optimizer makes a new settings file necessary. -/
theorem generation_use (place : Nat → String) (b : Bench) (u : Use) :
    (b.use place u).2.generation = if u = .close ∧ b.svgo.isOpen = true then b.generation + 1 else b.generation := by
  cases u with
  | configSource => simp [use]
  | close =>
    by_cases hopen : b.svgo.isOpen = true <;> simp [use, generation, svgo_close, Svgo.opened, Svgo.closed, hopen]
  | optimize markup course =>
    rw [use, generation, svgo_ready, opened_opened]
    simp [generation]

/-- Settings files are only ever added to the count. -/
theorem generation_le_after (place : Nat → String) (b : Bench) (us : List Use) : b.generation ≤ (b.after place us).generation := by
  induction us generalizing b with
  | nil => exact Nat.le_refl _
  | cons u rest ih =>
    refine Nat.le_trans ?_ (ih (b.use place u).2)
    rw [generation_use]
    split <;> omega

/-- An open optimizer stays with its settings file exactly until it is closed. -/
theorem generation_after_iff (h : b.svgo.isOpen = true) (us : List Use) :
    (b.after place us).generation = b.generation ↔ .close ∉ us := by
  induction us generalizing b with
  | nil => simp [after]
  | cons u rest ih =>
    have hstep : b.after place (u :: rest) = (b.use place u).2.after place rest := rfl
    rw [hstep]
    by_cases hu : u = .close
    · have hle := generation_le_after place (b.use place u).2 rest
      rw [generation_use, if_pos ⟨hu, h⟩] at hle
      exact ⟨fun heq => by omega, fun hnever => absurd (hu ▸ List.mem_cons_self) hnever⟩
    · have hsame : (b.use place u).2.generation = b.generation := by rw [generation_use, if_neg (fun hclose => hu hclose.1)]
      have hopen : (b.use place u).2.svgo.isOpen = true := by
        cases u with
        | configSource => exact h
        | close => exact absurd rfl hu
        | optimize markup course => rw [use, svgo_ready, isOpen_opened]
      rw [← hsame, ih hopen, List.mem_cons, not_or]
      exact ⟨fun hrest => ⟨fun heq => hu heq.symm, hrest⟩, And.right⟩

/-- Two children are told of the same settings file exactly if the optimizer has not been closed between them. -/
theorem Sound.config_eq_iff (hplace : Function.Injective place) (h : Sound place s b) {first second : Use} (between : List Use)
    (hfirst : (b.use place first).1.child? = some child)
    (hsecond : (((b.use place first).2.after place between).use place second).1.child? = some child') :
    child.config = child'.config ↔ .close ∉ between := by
  have hafter : Sound place s ((b.use place first).2.after place between) := (h.use first).after between
  obtain ⟨markup, course, rfl, rfl⟩ := h.of_child hfirst
  obtain ⟨markup', course', rfl, rfl⟩ := hafter.of_child hsecond
  have hopen : (b.ready place).svgo.isOpen = true := by rw [svgo_ready, isOpen_opened]
  have hmade := h.ready.created hopen
  have hmade' := hafter.ready.created (by rw [svgo_ready, isOpen_opened])
  have hsame := @generation_after_iff place _ hopen between
  rw [generation_of_isOpen hopen] at hsame
  rw [svgo_ready, ← generation] at hmade'
  rw [← hsame, childOf, childOf, config, config, hplace.eq_iff, svgo_ready place (Bench.after _ _ _), ← generation]
  change _ ↔ (Bench.after place (b.use place (.optimize markup course)).2 between).generation = _
  omega

end IconForge.Tool.Bench
