import IconForge.Component.Name

/-!
# Settings of a build

Settings are drafted with a naming word and any whole number of slots, and checked once. What passes has a known naming style and at
least one slot. An override replaces the fields it names, all of them or, when the result does not pass, none.
-/

namespace IconForge

open Component

/-- How the optimizer is run. -/
structure OptimizerSettings where
  executable : String := "svgo"
  plugins : List String := []
  deriving Repr, DecidableEq

/-- How the formatter is run. -/
structure FormatterSettings where
  enabled : Bool := true
  executable : String := "prettier"
  deriving Repr, DecidableEq

/-- The pattern that finds every icon. -/
def defaultPattern : String := "**/*.svg"

/-- How many optimizations run at a time unless something else is said. -/
def defaultConcurrency : Nat := 8

/-- Checked settings of one build. -/
structure Settings where
  inputDir : Path
  outputDir : Path
  typescript : Bool
  pattern : String
  naming : Naming
  concurrency : Nat
  /-- At least one optimization can run. -/
  concurrency_pos : 0 < concurrency
  staticDir? : Option Path
  optimizer : OptimizerSettings
  formatter : FormatterSettings
  deriving DecidableEq

/-- Settings that have not been checked. -/
structure SettingsDraft where
  inputDir : Path
  outputDir : Path
  typescript : Bool := false
  pattern : String := defaultPattern
  naming : String := "preserve"
  concurrency : Int := 8
  staticDir? : Option Path := none
  optimizer : OptimizerSettings := {}
  formatter : FormatterSettings := {}

/-- Why settings are refused. -/
inductive SettingsError where
  | unknownNaming (word : String)
  | noSlot
  /-- Input or output directory are named nowhere. -/
  | directoryMissing
  | slotsNotWhole
  /-- A settings file whose text is no document, for some reason. -/
  | unreadable (file reason : String)
  | notMapping (file : String)
  deriving Repr, DecidableEq

/-- The wording of a refusal. -/
def SettingsError.message : SettingsError → String
  | .unknownNaming word =>
    "Unknown naming style '" ++ word ++ "' (expected one of " ++ Text.joined ", " (Naming.words.map (·.1)) ++ ")"
  | .noSlot => "concurrency must be at least 1"
  | .directoryMissing => "Both input_dir and output_dir must be configured"
  | .slotsNotWhole => "concurrency must be an integer"
  | .unreadable file reason => "Failed to parse " ++ file ++ ": " ++ reason
  | .notMapping file => file ++ " must contain a mapping at the root"

/-- Checks a draft: first its naming word, then its slots. -/
def SettingsDraft.check (d : SettingsDraft) : Except SettingsError Settings :=
  match Naming.ofString? d.naming with
  | none => .error (.unknownNaming d.naming)
  | some naming =>
    if h : 0 < d.concurrency.toNat then
      .ok { inputDir := d.inputDir, outputDir := d.outputDir, typescript := d.typescript, pattern := d.pattern, naming,
            concurrency := d.concurrency.toNat, concurrency_pos := h, staticDir? := d.staticDir?, optimizer := d.optimizer,
            formatter := d.formatter }
    else .error .noSlot

namespace Settings

/-- The directory that receives the components. -/
def componentsDir (s : Settings) : Path := s.outputDir.child "components"

/-- Settings as a draft that passes. -/
def draft (s : Settings) : SettingsDraft :=
  { inputDir := s.inputDir, outputDir := s.outputDir, typescript := s.typescript, pattern := s.pattern,
    naming := s.naming.toString, concurrency := s.concurrency, staticDir? := s.staticDir?, optimizer := s.optimizer,
    formatter := s.formatter }

end Settings

/-- New values for some fields of settings. -/
structure Override where
  inputDir? : Option Path := none
  outputDir? : Option Path := none
  typescript? : Option Bool := none
  pattern? : Option String := none
  naming? : Option String := none
  concurrency? : Option Int := none
  staticDir? : Option Path := none
  optimizer? : Option OptimizerSettings := none
  formatter? : Option FormatterSettings := none
  deriving DecidableEq

namespace Override

/-- An override that names no field. -/
def isEmpty (o : Override) : Bool := o = {}

/-- A draft with the named fields replaced. -/
def onDraft (o : Override) (d : SettingsDraft) : SettingsDraft :=
  { inputDir := o.inputDir?.getD d.inputDir
    outputDir := o.outputDir?.getD d.outputDir
    typescript := o.typescript?.getD d.typescript
    pattern := o.pattern?.getD d.pattern
    naming := o.naming?.getD d.naming
    concurrency := o.concurrency?.getD d.concurrency
    staticDir? := o.staticDir?.or d.staticDir?
    optimizer := o.optimizer?.getD d.optimizer
    formatter := o.formatter?.getD d.formatter }

/-- Settings with the named fields replaced, checked again. -/
def apply (o : Override) (s : Settings) : Except SettingsError Settings :=
  if o.isEmpty then .ok s else (o.onDraft s.draft).check

end Override

end IconForge
