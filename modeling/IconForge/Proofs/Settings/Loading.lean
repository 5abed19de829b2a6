import IconForge.CommandLine.Run
import IconForge.Proofs.Text.Utf8
import IconForge.Proofs.Traverse
import IconForge.Workspace.Readers
import Mathlib.Tactic.ByContra

/-!
# How loading settings ends

Loading settings gives settings, is refused, or ends with a fault that it does not expect (`Escaped`). The last happens exactly for a
file that is no text, for a text at which the reader fails otherwise than by telling that it is no document, and for an entry that cannot
be taken as a directory or as a text (`Faulty`); whatever else a file holds gives settings or a refusal, and the command line tells a
refusal as an invalid configuration (`loading_ends`). All this holds for any reader.
-/

namespace IconForge.SettingsFile

open Text Yaml Component

variable {α β : Type}

/-- The loading ends with a fault that is not expected. -/
def Escaped (x : Loading α) : Prop := ∃ f, x = .error (.unexpected f)

instance : (x : Loading α) → Decidable (Escaped x)
  | .ok _ => isFalse nofun
  | .error (.refused _) => isFalse nofun
  | .error (.unexpected f) => isTrue ⟨f, rfl⟩

/-- The refusal that the loading ends with, if it does. -/
def refusal? : Loading α → Option SettingsError
  | .error (.refused e) => some e
  | _ => none

/-- A step that is not refused, whatever else becomes of it. -/
def Unrefused (x : Loading α) : Prop := ∀ e, x ≠ .error (.refused e)

/-! ## Steps -/

theorem not_escaped_ok (a : α) : ¬Escaped (.ok a : Loading α) := nofun

/-- A refusal is an error of the settings, and nothing escapes with it. -/
theorem not_escaped_refused (e : SettingsError) : ¬Escaped (.error (.refused e) : Loading α) := nofun

/-- The refusal of a loading is its error, if it has one of the settings. -/
theorem refusal?_eq_some_iff {x : Loading α} {e : SettingsError} : refusal? x = some e ↔ x = .error (.refused e) := by
  match x with
  | .ok _ => simp [refusal?]
  | .error (.refused _) => simp [refusal?]
  | .error (.unexpected _) => simp [refusal?]

/-- A sequence escapes when its first step does, or the other one behind it. -/
theorem escaped_bind_iff {x : Loading α} {f : α → Loading β} : Escaped (x >>= f) ↔ Escaped x ∨ ∃ a, x = .ok a ∧ Escaped (f a) := by
  cases x with
  | error e => simp [Escaped, bind, Except.bind]
  | ok a => simp [Escaped, bind, Except.bind]

/-- A sequence escapes when its second step does, whatever the first one gives, if that is not refused. -/
theorem escaped_bind_of_forall {x : Loading α} {f : α → Loading β} (hx : Unrefused x) (hf : ∀ a, x = .ok a → Escaped (f a)) :
    Escaped (x >>= f) := by
  cases hx' : x with
  | error e =>
    cases e with
    | refused e => exact absurd hx' (hx e)
    | unexpected f => exact ⟨f, rfl⟩
  | ok a => exact hf a hx'

/-- From an attempt escapes what it fails with. -/
theorem escaped_attempt_iff {r : Except Fault α} : Escaped (attempt r) ↔ ∃ f, r = .error f := by
  cases r <;> simp [Escaped, attempt, Except.mapError]

/-- An attempt succeeds with what it attempts. -/
theorem attempt_eq_ok_iff {r : Except Fault α} {a : α} : attempt r = .ok a ↔ r = .ok a := by
  cases r <;> simp [attempt, Except.mapError]

/-- An attempt is never refused: its faults are no errors of the settings. -/
theorem unrefused_attempt (r : Except Fault α) : Unrefused (attempt r) := by
  cases r <;> exact nofun

/-- What comes behind a step that only computes has no fault of its own. -/
theorem error_of_bind_pure {ε : Type} {x : Except ε α} {g : α → β} {e : ε} (h : (x >>= fun a => pure (g a)) = .error e) :
    ∃ e, x = .error e := by
  cases x with
  | error e => exact ⟨e, rfl⟩
  | ok a => cases h

/-! ## Entries -/

/-- A whole number with more digits than are written out. -/
inductive Endless : Datum → Prop where
  | intro {n : Int} : Nat.pow 10 wholeLimit ≤ n.natAbs → Endless (.scalar (.whole n))

/-- An entry that names a directory: a text that is not blank. -/
def Names (found? : Option Datum) (written : String) : Prop := found? = some (.scalar (.text written)) ∧ allBlank written = false

/-- An entry that names a directory below a home that is not known. -/
def Homeless (homes : Homes) (found? : Option Datum) : Prop :=
  ∃ written user rest, Names found? written ∧ (Path.ofString written).isAbsolute = false ∧
    (Path.ofString written).parts = String.ofList ('~' :: user) :: rest ∧ homes.find? (String.ofList user) = none

/-- A directory is given, or the entry names one. -/
def Told (given? : Option Path) (found? : Option Datum) : Prop := given?.isSome = true ∨ ∃ written, Names found? written

/-- The number of slots is left out, or it is a whole number. -/
def Counted (found? : Option Datum) : Prop := found? = none ∨ ∃ n, found? = some (.scalar (.whole n))

/-- An entry is there that is endless. -/
def EndlessAt (found? : Option Datum) : Prop := ∃ d, found? = some d ∧ Endless d

/-- A list of which an item is endless. -/
def EndlessIn (c : Content) (found? : Option Datum) : Prop :=
  ∃ document items, c = some document ∧ found? = some (.list items) ∧ ∃ id ∈ items, Endless (document.get id)

/-- A value cannot be told as a text exactly when it is an endless number. -/
theorem textOf?_error_iff {d : Datum} : (∃ f, textOf? d = .error f) ↔ Endless d := by
  constructor
  · rintro ⟨f, hf⟩
    unfold textOf? at hf
    split at hf
    · cases hf
    · cases hf
    · rename_i n
      unfold wholeText at hf
      split at hf
      · exact .intro ‹_›
      · cases hf
    · cases hf
    · cases hf
  · rintro ⟨hlong⟩
    exact ⟨_, by rw [textOf?, wholeText, if_pos hlong]; rfl⟩

/-- A text with a default escapes exactly for an endless number. -/
theorem escaped_textOr_iff {default : String} {found? : Option Datum} : Escaped (textOr default found?) ↔ EndlessAt found? := by
  cases found? with
  | none => simp [textOr, EndlessAt, Escaped, pure, Except.pure]
  | some d =>
    rw [textOr, escaped_bind_iff, escaped_attempt_iff, textOf?_error_iff]
    constructor
    · rintro (hendless | ⟨s?, -, hrest⟩)
      · exact ⟨d, rfl, hendless⟩
      · cases s? <;> exact absurd hrest (not_escaped_ok _)
    · rintro ⟨d', hd, hendless⟩
      obtain rfl := Option.some.inj hd
      exact .inl hendless

/-- A text with a default is never refused. -/
theorem unrefused_textOr (default : String) (found? : Option Datum) : Unrefused (textOr default found?) := by
  rintro e h
  cases found? with
  | none => cases h
  | some d =>
    rw [textOr] at h
    cases ht : textOf? d with
    | error f =>
      rw [ht] at h
      cases h
    | ok s? =>
      rw [ht] at h
      cases s? <;> cases h

/-- Texts cannot be told exactly when an endless number is among them. -/
theorem textsOf_error_iff {c : Content} {found? : Option Datum} : (∃ f, textsOf c found? = .error f) ↔ EndlessIn c found? := by
  constructor
  · rintro ⟨f, hf⟩
    unfold textsOf at hf
    split at hf
    · cases hf
    · cases hf
    · rename_i items
      have hitems := mapM_error_iff.mp (error_of_bind_pure hf)
      obtain ⟨id, hid, f', hf'⟩ := hitems
      cases c with
      | none => cases hf'
      | some document => exact ⟨document, items, rfl, rfl, id, hid, textOf?_error_iff.mp ⟨f', hf'⟩⟩
    · cases hf
  · rintro ⟨document, items, rfl, rfl, id, hid, hendless⟩
    have hitems : ∃ x ∈ items, ∃ f, textOf? (document.get x) = .error f := ⟨id, hid, textOf?_error_iff.mpr hendless⟩
    obtain ⟨f, hf⟩ := mapM_error_iff.mpr hitems
    refine ⟨f, ?_⟩
    rw [textsOf]
    simp only [hf]
    rfl

/-- A path leads to no home exactly if it starts with a tilde and a user whose home is not known. -/
theorem expand_error_iff {homes : Homes} {p : Path} : (∃ f, homes.expand p = .error f) ↔
    ∃ user rest, p.isAbsolute = false ∧ p.parts = String.ofList ('~' :: user) :: rest ∧ homes.find? (String.ofList user) = none := by
  constructor
  · rintro ⟨f, hf⟩
    unfold Homes.expand at hf
    split at hf
    · rename_i first rest hparts
      split at hf
      · rename_i user hfirst
        split at hf
        · cases hf
        · rename_i hrel
          split at hf
          · cases hf
          · rename_i hnone
            exact ⟨user, rest, Bool.eq_false_iff.mpr hrel, by rw [hparts, ← hfirst, String.ofList_toList], hnone⟩
      · cases hf
    · cases hf
  · rintro ⟨user, rest, hrel, hparts, hnone⟩
    unfold Homes.expand
    simp only [hparts, String.toList_ofList, hrel, hnone, Bool.false_eq_true, if_false]
    exact ⟨_, rfl⟩

variable {homes : Homes} {root : Path} {found? : Option Datum}

/-- A directory that is named is looked for from the root of the settings. -/
theorem directoryOf?_of_names {written : String} (h : Names found? written) :
    directoryOf? homes root found? = (homes.expand (Path.ofString written)).map fun p => some (root.join p) := by
  obtain ⟨rfl, hblank⟩ := h
  rw [directoryOf?, if_neg (Bool.eq_false_iff.mp hblank)]

/-- Where no directory is named there is none. -/
theorem directoryOf?_of_forall_not (h : ∀ written, ¬Names found? written) : directoryOf? homes root found? = .ok none := by
  unfold directoryOf?
  split
  · rename_i written
    rw [if_pos]
    by_contra hblank
    exact h written ⟨rfl, Bool.eq_false_iff.mpr hblank⟩
  · rfl

/-- A directory cannot be told exactly when it begins with a home that is not known. -/
theorem directoryOf?_error_iff : (∃ f, directoryOf? homes root found? = .error f) ↔ Homeless homes found? := by
  by_cases hnames : ∃ written, Names found? written
  · obtain ⟨written, hw⟩ := hnames
    have hsame : ∀ {w}, Names found? w → w = written := fun hw' => by
      have heq := hw'.1.symm.trans hw.1
      simpa using heq
    rw [directoryOf?_of_names hw]
    have hmap : (∃ f, (homes.expand (Path.ofString written)).map (fun p => some (root.join p)) = .error f) ↔
        ∃ f, homes.expand (Path.ofString written) = .error f := by
      cases homes.expand (Path.ofString written) <;> simp [Except.map]
    rw [hmap, expand_error_iff]
    constructor
    · rintro ⟨user, rest, h⟩
      exact ⟨written, user, rest, hw, h⟩
    · rintro ⟨w, user, rest, hw', h⟩
      exact ⟨user, rest, hsame hw' ▸ h⟩
  · rw [directoryOf?_of_forall_not (not_exists.mp hnames)]
    constructor
    · rintro ⟨f, hf⟩
      cases hf
    · rintro ⟨w, user, rest, hw, -⟩
      exact absurd ⟨w, hw⟩ hnames

/-- A directory escapes exactly when it is left to the file and begins with such a home. -/
theorem escaped_directory?_iff {given? : Option Path} :
    Escaped (directory? homes root given? found?) ↔ given? = none ∧ Homeless homes found? := by
  cases given? with
  | some p => simp [directory?, Escaped]
  | none => simp [directory?, escaped_attempt_iff, directoryOf?_error_iff]

/-- A directory is never refused. -/
theorem unrefused_directory? (given? : Option Path) : Unrefused (directory? homes root given? found?) := by
  cases given? with
  | some p => exact nofun
  | none => exact unrefused_attempt _

/-- A directory is there exactly if one is told. -/
theorem isSome_of_directory? {given? p? : Option Path} (h : directory? homes root given? found? = .ok p?) :
    p?.isSome = true ↔ Told given? found? := by
  cases given? with
  | some p =>
    obtain rfl := Except.ok.inj h
    simp [Told]
  | none =>
    rw [directory?, attempt_eq_ok_iff] at h
    by_cases hnames : ∃ written, Names found? written
    · obtain ⟨written, hw⟩ := hnames
      rw [directoryOf?_of_names hw] at h
      obtain ⟨q, -, rfl⟩ := map_eq_ok_iff.mp h
      exact ⟨fun _ => .inr ⟨written, hw⟩, fun _ => rfl⟩
    · rw [directoryOf?_of_forall_not (not_exists.mp hnames)] at h
      obtain rfl := Except.ok.inj h
      simp [Told, hnames]

/-- A number of slots that cannot be told is refused. -/
theorem not_escaped_slots (found? : Option Datum) : ¬Escaped (slots found?) := by
  unfold slots
  split <;> exact nofun

/-- The number of slots can be told exactly when it is left out or a whole number. -/
theorem slots_eq_ok_iff : (∃ n, slots found? = .ok n) ↔ Counted found? := by
  unfold slots Counted
  split <;> simp_all

/-! ## Settings -/

/-- An entry cannot be taken as what it is: directories are asked for first, then what the tools are called by and, if the number of
slots is one, what is left. -/
inductive Faulty (homes : Homes) (c : Content) (input? output? : Option Path) : Prop where
  | inputDir : input? = none → Homeless homes (valueOf? c "input_dir") → Faulty homes c input? output?
  | outputDir : output? = none → Homeless homes (valueOf? c "output_dir") → Faulty homes c input? output?
  | tools : Told input? (valueOf? c "input_dir") → Told output? (valueOf? c "output_dir") →
      EndlessAt (valueIn? c "optimizer" "executable") ∨ EndlessIn c (valueIn? c "optimizer" "plugins") ∨
        EndlessAt (valueIn? c "formatter" "executable") → Faulty homes c input? output?
  | rest : Told input? (valueOf? c "input_dir") → Told output? (valueOf? c "output_dir") → Counted (valueOf? c "concurrency") →
      EndlessAt (valueOf? c "pattern") ∨ EndlessAt (valueOf? c "naming") ∨ Homeless homes (valueOf? c "static_dir") →
      Faulty homes c input? output?

section
variable {c : Content} {input? output? : Option Path}

/-- What escapes when settings are drafted is due to an entry. -/
theorem faulty_of_escaped (h : Escaped (draft homes root c input? output?)) : Faulty homes c input? output? := by
  unfold draft at h
  rcases escaped_bind_iff.mp h with hin | ⟨inputDir?, hin, h⟩
  · exact .inputDir (escaped_directory?_iff.mp hin).1 (escaped_directory?_iff.mp hin).2
  rcases escaped_bind_iff.mp h with hout | ⟨outputDir?, hout, h⟩
  · exact .outputDir (escaped_directory?_iff.mp hout).1 (escaped_directory?_iff.mp hout).2
  split at h
  · have hin' := (isSome_of_directory? hin).mp rfl
    have hout' := (isSome_of_directory? hout).mp rfl
    rcases escaped_bind_iff.mp h with htool | ⟨_, -, h⟩
    · exact .tools hin' hout' (.inl (escaped_textOr_iff.mp htool))
    rcases escaped_bind_iff.mp h with hplugins | ⟨_, -, h⟩
    · exact .tools hin' hout' (.inr (.inl (textsOf_error_iff.mp (escaped_attempt_iff.mp hplugins))))
    rcases escaped_bind_iff.mp h with htool | ⟨_, -, h⟩
    · exact .tools hin' hout' (.inr (.inr (escaped_textOr_iff.mp htool)))
    rcases escaped_bind_iff.mp h with hslots | ⟨n, hslots, h⟩
    · exact absurd hslots (not_escaped_slots _)
    have hslots' := slots_eq_ok_iff.mp ⟨n, hslots⟩
    rcases escaped_bind_iff.mp h with hpattern | ⟨_, -, h⟩
    · exact .rest hin' hout' hslots' (.inl (escaped_textOr_iff.mp hpattern))
    rcases escaped_bind_iff.mp h with hnaming | ⟨_, -, h⟩
    · exact .rest hin' hout' hslots' (.inr (.inl (escaped_textOr_iff.mp hnaming)))
    rcases escaped_bind_iff.mp h with hstatic | ⟨_, -, h⟩
    · exact .rest hin' hout' hslots' (.inr (.inr (directoryOf?_error_iff.mp (escaped_attempt_iff.mp hstatic))))
    · exact absurd h (not_escaped_ok _)
  · exact absurd h (not_escaped_refused _)

/-- Drafting goes on with the directories that are told. -/
theorem escaped_draft_of_told (hin : Told input? (valueOf? c "input_dir")) (hout : Told output? (valueOf? c "output_dir"))
    (h : ∀ inputDir outputDir, directory? homes root input? (valueOf? c "input_dir") = .ok (some inputDir) →
      directory? homes root output? (valueOf? c "output_dir") = .ok (some outputDir) → Escaped (draft homes root c input? output?)) :
    Escaped (draft homes root c input? output?) := by
  cases hi : directory? homes root input? (valueOf? c "input_dir") with
  | error e =>
    cases e with
    | refused e => exact absurd hi (unrefused_directory? _ e)
    | unexpected f => exact ⟨f, by rw [draft, hi]; rfl⟩
  | ok inputDir? =>
    obtain ⟨inputDir, rfl⟩ := Option.isSome_iff_exists.mp ((isSome_of_directory? hi).mpr hin)
    cases ho : directory? homes root output? (valueOf? c "output_dir") with
    | error e =>
      cases e with
      | refused e => exact absurd ho (unrefused_directory? _ e)
      | unexpected f => exact ⟨f, by rw [draft, hi, ho]; rfl⟩
    | ok outputDir? =>
      obtain ⟨outputDir, rfl⟩ := Option.isSome_iff_exists.mp ((isSome_of_directory? ho).mpr hout)
      exact h inputDir outputDir hi ho

/-- What is due to an entry escapes. -/
theorem escaped_of_faulty (h : Faulty homes c input? output?) : Escaped (draft homes root c input? output?) := by
  cases h with
  | inputDir hnone hless => exact escaped_bind_iff.mpr (.inl (escaped_directory?_iff.mpr ⟨hnone, hless⟩))
  | outputDir hnone hless =>
    refine escaped_bind_of_forall (unrefused_directory? _) fun _ _ => ?_
    exact escaped_bind_iff.mpr (.inl (escaped_directory?_iff.mpr ⟨hnone, hless⟩))
  | tools hin hout htools =>
    refine escaped_draft_of_told hin hout fun inputDir outputDir hi ho => ?_
    refine escaped_bind_iff.mpr (.inr ⟨_, hi, escaped_bind_iff.mpr (.inr ⟨_, ho, ?_⟩)⟩)
    by_cases hexe : EndlessAt (valueIn? c "optimizer" "executable")
    · exact escaped_bind_iff.mpr (.inl (escaped_textOr_iff.mpr hexe))
    refine escaped_bind_of_forall (unrefused_textOr _ _) fun _ _ => ?_
    rcases htools with hexe' | hplugins | hformatter
    · exact absurd hexe' hexe
    · exact escaped_bind_iff.mpr (.inl (escaped_attempt_iff.mpr (textsOf_error_iff.mpr hplugins)))
    · refine escaped_bind_of_forall (unrefused_attempt _) fun _ _ => ?_
      exact escaped_bind_iff.mpr (.inl (escaped_textOr_iff.mpr hformatter))
  | rest hin hout hslots hrest =>
    refine escaped_draft_of_told hin hout fun inputDir outputDir hi ho => ?_
    obtain ⟨n, hn⟩ := slots_eq_ok_iff.mpr hslots
    refine escaped_bind_iff.mpr (.inr ⟨_, hi, escaped_bind_iff.mpr (.inr ⟨_, ho, ?_⟩)⟩)
    refine escaped_bind_of_forall (unrefused_textOr _ _) fun _ _ => ?_
    refine escaped_bind_of_forall (unrefused_attempt _) fun _ _ => ?_
    refine escaped_bind_of_forall (unrefused_textOr _ _) fun _ _ => ?_
    refine escaped_bind_iff.mpr (.inr ⟨n, hn, ?_⟩)
    rcases hrest with hpattern | hnaming | hstatic
    · exact escaped_bind_iff.mpr (.inl (escaped_textOr_iff.mpr hpattern))
    · refine escaped_bind_of_forall (unrefused_textOr _ _) fun _ _ => ?_
      exact escaped_bind_iff.mpr (.inl (escaped_textOr_iff.mpr hnaming))
    · refine escaped_bind_of_forall (unrefused_textOr _ _) fun _ _ => ?_
      refine escaped_bind_of_forall (unrefused_textOr _ _) fun _ _ => ?_
      exact escaped_bind_iff.mpr (.inl (escaped_attempt_iff.mpr (directoryOf?_error_iff.mpr hstatic)))

end

/-- What a settings file holds that ends the loading with a fault: bytes that are no text, a text at which the reader fails otherwise
than by telling that it is no document, or an entry that cannot be taken as what it is. -/
inductive Broken (read : Reader) (homes : Homes) (file : String) (bytes : List UInt8) (input? output? : Option Path) : Prop where
  | bytes : (∀ text, bytes ≠ Utf8.encode text) → Broken read homes file bytes input? output?
  | reading {text : String} (f : Fault) : bytes = Utf8.encode text → allBlank (unifiedBreaks text) = false →
      read (unifiedBreaks text) = .error (.other f) → Broken read homes file bytes input? output?
  | entry {text : String} {c : Content} : bytes = Utf8.encode text →
      readContent read file (unifiedBreaks text) = .ok c → Faulty homes c input? output? →
      Broken read homes file bytes input? output?

/-- A reader that fails only by telling that a text is no document. -/
def OnlyRejects (read : Reader) : Prop := ∀ text f, read text ≠ .error (.other f)

/-- Reading a text escapes exactly if the reader does, on a text that is not blank. -/
theorem escaped_readContent_iff {read : Reader} {file text : String} : Escaped (readContent read file text) ↔
    allBlank text = false ∧ ∃ f, read text = .error (.other f) := by
  unfold readContent
  split
  · rename_i hblank
    simp [hblank, Escaped]
  · rename_i hblank
    rw [Bool.not_eq_true] at hblank
    split <;> rename_i hread <;> simp only [hread, hblank, true_and]
    · simp [Escaped]
    · exact ⟨fun _ => ⟨_, rfl⟩, fun _ => ⟨_, rfl⟩⟩
    · simp [Escaped]
    · rename_i document
      cases document.root with
      | scalar s => cases s <;> simp [Escaped]
      | list items => simp [Escaped]
      | mapping members => simp [Escaped]
      | pairs members => simp [Escaped]
      | set => simp [Escaped]

section
variable {read : Reader} {d : Disk} {file : Path} {bytes : List UInt8} {text : String}

/-- The content of a file that is there. -/
theorem content_of_readBytes (h : d.readBytes file = .ok bytes) :
    content read d file = attempt (d.readText file) >>= readContent read file.name := by
  have hthere : d.pathExists file = .ok true := by
    unfold Disk.readBytes at h
    rw [Disk.pathExists, Disk.ask]
    cases hs : d.status file with
    | error r =>
      rw [hs] at h
      cases h
    | ok e => rfl
  rw [content, hthere]

/-- A file whose bytes are a text is read with its line breaks made one. -/
theorem readText_of_encode (h : d.readBytes file = .ok (Utf8.encode text)) :
    d.readText file = .ok (unifiedBreaks text) := by
  rw [Disk.readText, h]
  simp only [bind, Except.bind, Utf8.decode_eq_ok_iff.mpr rfl]
  rfl

/-- A file whose bytes are no text is not read. -/
theorem readText_of_forall_ne (h : d.readBytes file = .ok bytes) (hbytes : ∀ text, bytes ≠ Utf8.encode text) :
    ∃ f, d.readText file = .error f := by
  obtain ⟨f, hf⟩ := Utf8.exists_error_iff.mpr hbytes
  refine ⟨⟨.undecodable, f.message⟩, ?_⟩
  rw [Disk.readText, h]
  simp only [bind, Except.bind, hf]
  rfl

variable {input? output? : Option Path} {p : Path}

theorem not_escaped_mapError (x : Except SettingsError α) : ¬Escaped (x.mapError LoadFailure.refused) := by
  cases x <;> exact nofun

/-- Loading settings from a file that is there escapes exactly if the file is broken. -/
theorem escaped_load_iff (hfile : locate homes d p = .ok file) (hbytes : d.readBytes file = .ok bytes) :
    Escaped (load read homes d p input? output?) ↔ Broken read homes file.name bytes input? output? := by
  have hload : load read homes d p input? output? = (attempt (d.readText file) >>= readContent read file.name) >>= fun c =>
      draft homes file.parent c input? output? >>= fun draft => draft.check.mapError .refused := by
    rw [load, hfile, ← content_of_readBytes hbytes]
    rfl
  have hdraft : ∀ c, Escaped (draft homes file.parent c input? output? >>= fun draft => draft.check.mapError .refused) ↔
      Faulty homes c input? output? := by
    intro c
    rw [escaped_bind_iff]
    exact ⟨fun h => h.elim faulty_of_escaped fun ⟨_, _, hcheck⟩ => absurd hcheck (not_escaped_mapError _),
      fun h => .inl (escaped_of_faulty h)⟩
  rw [hload, escaped_bind_iff, escaped_bind_iff, escaped_attempt_iff]
  simp only [hdraft, escaped_readContent_iff, attempt_eq_ok_iff]
  by_cases htext : ∃ text, bytes = Utf8.encode text
  · obtain ⟨text, rfl⟩ := htext
    have hread := readText_of_encode hbytes
    have hbind : (attempt (d.readText file) >>= readContent read file.name) =
        readContent read file.name (unifiedBreaks text) := by
      rw [hread]
      rfl
    have hsame : ∀ {text'}, Utf8.encode text = Utf8.encode text' → text' = text := fun heq =>
      Except.ok.inj ((Utf8.decode_eq_ok_iff.mpr heq).symm.trans (Utf8.decode_eq_ok_iff.mpr rfl))
    rw [hbind, hread]
    constructor
    · rintro ((⟨f, hf⟩ | ⟨t, ht, hblank, f, hfault⟩) | ⟨c, hc, hfaulty⟩)
      · cases hf
      · obtain rfl := Except.ok.inj ht
        exact .reading f rfl hblank hfault
      · exact .entry rfl hc hfaulty
    · rintro (hnone | ⟨f, heq, hblank, hfault⟩ | ⟨heq, hc, hfaulty⟩)
      · exact absurd rfl (hnone text)
      · rw [hsame heq] at hblank hfault
        exact .inl (.inr ⟨_, rfl, hblank, f, hfault⟩)
      · rw [hsame heq] at hc
        exact .inr ⟨_, hc, hfaulty⟩
  · have hnone := not_exists.mp htext
    exact ⟨fun _ => .bytes hnone, fun _ => .inl (.inl (readText_of_forall_ne hbytes hnone))⟩

end

/-- A failure to load settings is told on the command line: a refusal as an invalid configuration, a fault as it is. -/
theorem runBuild_of_error {request : CommandLine.BuildRequest} {w : Workspace} {e : LoadFailure}
    (h : w.loadSettings (Path.ofString request.settings) (request.inputDir?.map Path.ofString) (request.outputDir?.map Path.ofString) =
      .error e) :
    CommandLine.runBuild request w = match e with
      | .refused e => (.ok (.of 1 ""), w.tell ("Invalid configuration: " ++ e.message ++ "\n"))
      | .unexpected f => (.error f, w) := by
  have hrequest : CommandLine.requestSettings request w = .error e := by
    rw [CommandLine.requestSettings, h]
    rfl
  rw [CommandLine.runBuild, hrequest]
  cases e <;> rfl

/-- Every policy has a word. -/
theorem naming_mem_words (naming : Naming) : naming.toString ∈ Naming.words.map (·.1) := by
  cases naming <;> decide

/-- What the reader tells to be no document is refused for the reason that it tells. -/
theorem load_of_malformed {read : Reader} {homes : Homes} {d : Disk} {p file : Path} {text reason : String} {input? output? : Option Path}
    (hfile : locate homes d p = .ok file) (hbytes : d.readBytes file = .ok (Utf8.encode text))
    (hblank : allBlank (unifiedBreaks text) = false)
    (hread : read (unifiedBreaks text) = .error (.malformed reason)) :
    load read homes d p input? output? = .error (.refused (.unreadable file.name reason)) := by
  have hcontent : content read d file = .error (.refused (.unreadable file.name reason)) := by
    rw [content_of_readBytes hbytes, readText_of_encode hbytes]
    simp only [attempt, Except.mapError, bind, Except.bind, readContent, hblank, hread, Bool.false_eq_true, if_false]
  rw [load, hfile]
  simp only [attempt, Except.mapError, bind, Except.bind, hcontent]

/-- A reader that only rejects does not break a file: its bytes do, or an entry. -/
theorem broken_iff_of_onlyRejects {read : Reader} {homes : Homes} {file : String} {bytes : List UInt8} {input? output? : Option Path}
    (h : OnlyRejects read) : Broken read homes file bytes input? output? ↔ (∀ text, bytes ≠ Utf8.encode text) ∨
      ∃ text c, bytes = Utf8.encode text ∧ readContent read file (unifiedBreaks text) = .ok c ∧
        Faulty homes c input? output? := by
  constructor
  · rintro (hnone | ⟨f, -, -, hfault⟩ | ⟨htext, hc, hfaulty⟩)
    · exact .inl hnone
    · exact absurd hfault (h _ f)
    · exact .inr ⟨_, _, htext, hc, hfaulty⟩
  · rintro (hnone | ⟨text, c, htext, hc, hfaulty⟩)
    · exact .bytes hnone
    · exact .entry htext hc hfaulty

/-- Loading settings from a file that is there, whatever reads documents, whatever the file's bytes are and whatever directories are given
beside it, ends with a fault exactly if the file is broken: where the reader only rejects, by its bytes or by an entry. Otherwise it gives
settings with a known naming style and at least one slot, or it is refused; so is a text that the reader rejects, for the reader's reason.
The command line tells a refusal as an invalid configuration and ends with 1, and it ends with a fault as that is. -/
theorem loading_ends {w : Workspace} {p file : Path} {bytes : List UInt8} (hfile : locate w.homes w.disk p = .ok file)
    (hbytes : w.disk.readBytes file = .ok bytes) (input? output? : Option Path) :
    (Escaped (w.loadSettings p input? output?) ↔ Broken w.readers.document w.homes file.name bytes input? output?) ∧
    (OnlyRejects w.readers.document → (Escaped (w.loadSettings p input? output?) ↔ (∀ text, bytes ≠ Utf8.encode text) ∨
      ∃ text c, bytes = Utf8.encode text ∧
        readContent w.readers.document file.name (unifiedBreaks text) = .ok c ∧
        Faulty w.homes c input? output?)) ∧
    (¬Broken w.readers.document w.homes file.name bytes input? output? →
      (∃ s, w.loadSettings p input? output? = .ok s ∧ s.naming.toString ∈ Naming.words.map (·.1) ∧ 1 ≤ s.concurrency) ∨
      ∃ e, w.loadSettings p input? output? = .error (.refused e)) ∧
    (∀ text reason, bytes = Utf8.encode text → allBlank (unifiedBreaks text) = false →
      w.readers.document (unifiedBreaks text) = .error (.malformed reason) →
      w.loadSettings p input? output? = .error (.refused (.unreadable file.name reason))) ∧
    ∀ request : CommandLine.BuildRequest, Path.ofString request.settings = p → request.inputDir?.map Path.ofString = input? →
      request.outputDir?.map Path.ofString = output? →
      (∀ e, w.loadSettings p input? output? = .error (.refused e) →
        CommandLine.runBuild request w = (.ok (.of 1 ""), w.tell ("Invalid configuration: " ++ e.message ++ "\n"))) ∧
      (∀ reason, w.loadSettings p input? output? = .error (.refused (.unreadable file.name reason)) →
        CommandLine.runBuild request w =
          (.ok (.of 1 ""), w.tell ("Invalid configuration: " ++ ("Failed to parse " ++ file.name ++ ": " ++ reason) ++ "\n"))) ∧
      ∀ f, w.loadSettings p input? output? = .error (.unexpected f) → CommandLine.runBuild request w = (.error f, w) := by
  have hescaped : Escaped (w.loadSettings p input? output?) ↔ Broken w.readers.document w.homes file.name bytes input? output? :=
    escaped_load_iff hfile hbytes
  refine ⟨hescaped, fun honly => hescaped.trans (broken_iff_of_onlyRejects honly), fun hsound => ?_, ?_, ?_⟩
  · cases hload : w.loadSettings p input? output? with
    | ok s => exact .inl ⟨s, rfl, naming_mem_words s.naming, s.concurrency_pos⟩
    | error e =>
      cases e with
      | refused e => exact .inr ⟨e, rfl⟩
      | unexpected f => exact absurd (hescaped.mp ⟨f, hload⟩) hsound
  · rintro text reason rfl hblank hread
    exact load_of_malformed hfile hbytes hblank hread
  · rintro request rfl rfl rfl
    exact ⟨fun e he => runBuild_of_error he, fun reason hr => runBuild_of_error hr, fun f hf => runBuild_of_error hf⟩

/-- A workspace with a settings file of the given bytes. -/
def settingsWorkspace (readers : Readers) (bytes : List UInt8) : Workspace :=
  { disk := { entries := [([settingsFileName], .file bytes)], workingDirectory := [] }
    homes := ⟨Path.here, []⟩, readers, toolbox := ⟨fun _ => .missing, fun _ => .missing⟩, now := "", svgoPlace := "", setup? := none
    console := "", runs := [], svgo := Tool.Svgo.new none [] }

/-- In the example the settings file is the one in the working directory. -/
theorem locate_settingsWorkspace (readers : Readers) (bytes : List UInt8) :
    locate (settingsWorkspace readers bytes).homes (settingsWorkspace readers bytes).disk Path.here =
      .ok ⟨.root, [settingsFileName]⟩ := rfl

theorem readBytes_settingsWorkspace (readers : Readers) (bytes : List UInt8) :
    (settingsWorkspace readers bytes).disk.readBytes ⟨.root, [settingsFileName]⟩ = .ok bytes := rfl

/-- A number of slots that is none is refused before static files are looked for in a home that is not known. -/
theorem loading_ends_refused :
    let w := settingsWorkspace .standard (Utf8.encode "concurrency: many\nstatic_dir: ~nobody/static\n")
    let request : CommandLine.BuildRequest :=
      { inputDir? := some "icons", outputDir? := some "out", typescript := false, settings := ".", pattern? := none, naming? := none
        noFormat := false, logFile? := none }
    ¬Broken w.readers.document w.homes settingsFileName (Utf8.encode "concurrency: many\nstatic_dir: ~nobody/static\n")
      (some (Path.ofString "icons")) (some (Path.ofString "out")) ∧
    CommandLine.runBuild request w = (.ok (.of 1 ""), w.tell "Invalid configuration: concurrency must be an integer\n") := by
  intro w request
  obtain ⟨hescaped, -, -, -, hline⟩ := loading_ends (locate_settingsWorkspace .standard _) (readBytes_settingsWorkspace .standard
    (Utf8.encode "concurrency: many\nstatic_dir: ~nobody/static\n")) (some (Path.ofString "icons"))
    (some (Path.ofString "out"))
  have hload : refusal? (w.loadSettings Path.here (some (Path.ofString "icons")) (some (Path.ofString "out"))) = some .slotsNotWhole := by
    decide +kernel
  have hrefused := refusal?_eq_some_iff.mp hload
  refine ⟨fun hbroken => ?_, (hline request (by decide +kernel) rfl rfl).1 _ hrefused⟩
  obtain ⟨f, hf⟩ := hescaped.mpr hbroken
  cases hrefused.symm.trans hf

/-- Readers to which no text is a document. -/
def rejectingReaders : Readers := { Readers.standard with document := fun _ => .error (.malformed "no document") }

/-- A reader that rejects everything fails in no other way. -/
theorem onlyRejects_rejectingReaders : OnlyRejects rejectingReaders.document := nofun

/-- A settings file with a byte that starts no character gives no settings and is not refused, though the reader only rejects. -/
theorem loading_ends_false :
    ¬∀ (w : Workspace) (p file : Path) (bytes : List UInt8) (input? output? : Option Path), OnlyRejects w.readers.document →
      locate w.homes w.disk p = .ok file → w.disk.readBytes file = .ok bytes →
      (∃ s, w.loadSettings p input? output? = .ok s) ∨ ∃ e, w.loadSettings p input? output? = .error (.refused e) := by
  intro h
  have hescaped : Escaped ((settingsWorkspace rejectingReaders [0xFF]).loadSettings Path.here (some Path.here) (some Path.here)) := by
    decide +kernel
  rcases h (settingsWorkspace rejectingReaders [0xFF]) Path.here _ [0xFF] (some Path.here) (some Path.here) onlyRejects_rejectingReaders
    (locate_settingsWorkspace _ _) (readBytes_settingsWorkspace _ _) with ⟨s, hs⟩ | ⟨e, he⟩
  · rw [hs] at hescaped
    exact not_escaped_ok s hescaped
  · rw [he] at hescaped
    exact not_escaped_refused e hescaped

end IconForge.SettingsFile
