import IconForge.Decimal.Notation
import IconForge.Disk.Edit
import IconForge.Path.Home
import IconForge.Settings.Basic
import IconForge.Text.Lower
import IconForge.Text.Whole
import IconForge.Yaml.Data

/-!
# Settings files

A settings file holds a mapping, however its text is read. What it does not name, and what it names by a value of the wrong kind, takes
its default; only the number of slots must be a whole number. Directories in the file are seen from where the file lies. Directories that
are given beside the file go before those in it.
-/

namespace IconForge

open Text Yaml

/-- Why settings cannot be loaded. -/
inductive LoadFailure where
  | refused (e : SettingsError)
  | unexpected (f : Fault)
  deriving Repr, DecidableEq

/-- The name of a settings file in its directory. -/
def settingsFileName : String := ".iconbuild.yml"

namespace SettingsFile

/-- A step of loading settings. -/
abbrev Loading := Except LoadFailure

/-- An answer whose fault ends the loading. -/
def attempt {α : Type} (r : Except Fault α) : Loading α := r.mapError .unexpected

/-- What a settings file says: the mapping at its root, or nothing. -/
abbrev Content := Option Document

/-- The value of a name at the root. -/
def valueOf? (c : Content) (name : String) : Option Datum := c.bind fun d => d.member? d.root name

/-- The value of a name in the mapping of another name. -/
def valueIn? (c : Content) (group name : String) : Option Datum :=
  c.bind fun d => (valueOf? c group).bind fun m => d.member? m name

/-! ## Kinds of values -/

/-- A whole number in decimal, if it is not too long. -/
def wholeText (n : Int) : Except Fault String :=
  if Nat.pow 10 wholeLimit ≤ n.natAbs then
    .error ⟨.value, "Exceeds the limit (" ++ toString wholeLimit
      ++ " digits) for integer string conversion; use sys.set_int_max_str_digits() to increase the limit"⟩
  else .ok (toString n)

/-- The text that stands for a value: of texts, numbers and truth values. -/
def textOf? : Datum → Except Fault (Option String)
  | .scalar (.text s) => .ok (some s)
  | .scalar (.bool b) => .ok (some (if b then "True" else "False"))
  | .scalar (.whole n) => (wholeText n).map some
  | .scalar (.number x) => .ok (some (Decimal.settingsNotation.text x))
  | _ => .ok none

/-- The text of an entry that may be left out, or left empty. -/
def textOr (default : String) (found? : Option Datum) : Loading String := do
  match found? with
  | none => pure default
  | some d =>
    match ← attempt (textOf? d) with
    | some s => pure (if s = "" then default else s)
    | none => pure default

/-- The words that stand for truth values. -/
def boolWords : List (String × Bool) := [("true", true), ("yes", true), ("1", true), ("false", false), ("no", false), ("0", false)]

/-- The truth value of an entry, which may also be one of the words. -/
def boolOf? : Option Datum → Option Bool
  | some (.scalar (.bool b)) => some b
  | some (.scalar (.text s)) => boolWords.lookup (String.ofList (lower (trim s.toList)))
  | _ => none

/-- The texts of a list: of its texts, numbers and truth values. A single text is a list of one, and bytes are a list of numbers. -/
def textsOf (c : Content) : Option Datum → Except Fault (List String)
  | some (.scalar (.text s)) => .ok [s]
  | some (.scalar (.bytes b)) => .ok (b.map fun x => toString x.toNat)
  | some (.list items) => do
    let texts ← items.mapM fun id => match c with
      | some d => textOf? (d.get id)
      | none => .ok none
    pure (texts.filterMap id)
  | _ => .ok []

/-- The directory that an entry names, if it is a text that is not blank. -/
def directoryOf? (homes : Homes) (root : Path) : Option Datum → Except Fault (Option Path)
  | some (.scalar (.text s)) =>
    if allBlank s then .ok none else (homes.expand (Path.ofString s)).map fun p => some (root.join p)
  | _ => .ok none

/-! ## Loading -/

/-- Where the settings file is that a path names; a directory stands for the file in it. -/
def locate (homes : Homes) (d : Disk) (p : Path) : Except Fault Path := do
  let p ← homes.expand p
  match d.isDirectory p with
  | .error r => throw (r.fault p.toString)
  | .ok true => d.resolve (p.child settingsFileName)
  | .ok false => d.resolve p

/-- The mapping in a settings file's text, of which the file name is told in refusals. -/
def readContent (read : Reader) (file text : String) : Loading Content :=
  if allBlank text then .ok none
  else match read text with
    | .error (.malformed reason) => .error (.refused (.unreadable file reason))
    | .error (.other f) => .error (.unexpected f)
    | .ok none => .ok none
    | .ok (some document) =>
      match document.root with
      | .mapping _ => .ok (some document)
      | .scalar .null => .ok none
      | _ => .error (.refused (.notMapping file))

/-- What a settings file says; a file that is not there says nothing. -/
def content (read : Reader) (d : Disk) (file : Path) : Loading Content := do
  match d.pathExists file with
  | .error r => throw (.unexpected (r.fault file.toString))
  | .ok false => pure none
  | .ok true => readContent read file.name (← attempt (d.readText file))

/-- A directory that is given, or else the one in the file. -/
def directory? (homes : Homes) (root : Path) (given? : Option Path) (found? : Option Datum) : Loading (Option Path) :=
  match given? with
  | some p => .ok (some p)
  | none => attempt (directoryOf? homes root found?)

/-- The number of slots. -/
def slots : Option Datum → Loading Int
  | none => .ok defaultConcurrency
  | some (.scalar (.whole n)) => .ok n
  | some _ => .error (.refused .slotsNotWhole)

/-- The settings that a file's content makes, seen from the directory of the file. -/
def draft (homes : Homes) (root : Path) (c : Content) (input? output? : Option Path) : Loading SettingsDraft := do
  let input? ← directory? homes root input? (valueOf? c "input_dir")
  let output? ← directory? homes root output? (valueOf? c "output_dir")
  match input?, output? with
  | some inputDir, some outputDir => do
    let optimizer : OptimizerSettings :=
      ⟨← textOr "svgo" (valueIn? c "optimizer" "executable"), ← attempt (textsOf c (valueIn? c "optimizer" "plugins"))⟩
    let formatter : FormatterSettings :=
      ⟨(boolOf? (valueIn? c "formatter" "enabled")).getD true, ← textOr "prettier" (valueIn? c "formatter" "executable")⟩
    let concurrency ← slots (valueOf? c "concurrency")
    let typescript := (boolOf? (valueOf? c "typescript")).getD false
    let pattern ← textOr defaultPattern (valueOf? c "pattern")
    let naming ← textOr "preserve" (valueOf? c "naming")
    let staticDir? ← attempt (directoryOf? homes root (valueOf? c "static_dir"))
    pure { inputDir, outputDir, typescript, pattern, naming, concurrency, staticDir?, optimizer, formatter }
  | _, _ => throw (.refused .directoryMissing)

/-- Loads settings from the file that a path names. -/
def load (read : Reader) (homes : Homes) (d : Disk) (p : Path) (input? output? : Option Path) : Loading Settings := do
  let file ← attempt (locate homes d p)
  let c ← content read d file
  let draft ← draft homes file.parent c input? output?
  draft.check.mapError .refused

end SettingsFile

end IconForge
