import IconForge.Proofs.CommandLine.Reading
import IconForge.Proofs.Disk.Place
import IconForge.Proofs.Settings.Overriding
import IconForge.Service.Run

/-!
# Settings without a settings file

Directories and options can be told directly, in the body of a request to the service, and on the command line. The settings are the
same: those of the draft with what is told in the place of its defaults (`callSettings_told`, `requestSettings_told`), as long as there is
no settings file in the working directory.
-/

namespace IconForge.SettingsFile

open Component CommandLine

/-- A draft of which the directories and the options are told. -/
def toldDraft (input output : String) (typescript : Bool) (pattern? : Option String) (naming? : Option Naming) : SettingsDraft :=
  { Workspace.plainSettings (Path.ofString input) (Path.ofString output) typescript with
    pattern := pattern?.getD defaultPattern, naming := (naming?.getD .preserve).toString }

/-- A call of the service that tells the directories and the options. -/
def toldCall (input output : String) (typescript : Bool) (pattern? : Option String) (naming? : Option Naming) : Service.BuildCall :=
  { inputDir := input, outputDir := output, typescript, pattern?, naming? := naming?.map (·.toString) }

variable {input output : String} {typescript : Bool} {pattern? : Option String} {naming? : Option Naming} {s : Settings} {w : Workspace}

/-- A policy is found under its own name. -/
theorem ofString?_toString (naming : Naming) : Naming.ofString? naming.toString = some naming := by
  cases naming <;> decide

/-- A draft with a known naming and the usual number of slots passes. -/
theorem exists_check_eq_ok {d : SettingsDraft} {naming : Naming} (hnaming : d.naming = naming.toString) (hslots : 0 < d.concurrency.toNat) :
    ∃ s, d.check = .ok s := by
  unfold SettingsDraft.check
  rw [hnaming, ofString?_toString]
  simp only [dif_pos hslots]
  exact ⟨_, rfl⟩

/-- Settings made of defaults and of what was told pass their checks. -/
theorem exists_check_toldDraft (input output : String) (typescript : Bool) (pattern? : Option String) (naming? : Option Naming) :
    ∃ s, (toldDraft input output typescript pattern? naming?).check = .ok s :=
  exists_check_eq_ok rfl (show 0 < Int.toNat 8 by decide)

/-- A naming that is left out is the default one, as a word and as a policy. -/
theorem naming_getD (naming? : Option Naming) : (naming?.map (·.toString)).getD "preserve" = (naming?.getD .preserve).toString := by
  cases naming? <;> rfl

/-- The service makes the settings that are told. -/
theorem callSettings_told (h : (toldDraft input output typescript pattern? naming?).check = .ok s) :
    Service.callSettings (toldCall input output typescript pattern? naming?) = .ok s := by
  obtain ⟨s₀, hs₀⟩ := @exists_check_eq_ok (Workspace.plainSettings (Path.ofString input) (Path.ofString output) typescript) .preserve rfl
    (show 0 < Int.toNat 8 by decide)
  rw [Service.callSettings, toldCall]
  simp only [hs₀, bind, Except.bind]
  rw [apply_of_check hs₀, ← h]
  refine congrArg SettingsDraft.check ?_
  simp only [Override.onDraft, Workspace.plainSettings, toldDraft, Option.getD_none, Option.none_or, naming_getD]

/-- Without a settings file, a request makes the settings that are told. -/
theorem settingsFrom_told (h : (toldDraft input output typescript pattern? naming?).check = .ok s) (homes : Homes) (root : Path) :
    settingsFrom (toldRequest input output typescript pattern? naming?) homes root none = .ok s := by
  let plain := Workspace.plainSettings (Path.ofString input) (Path.ofString output) false
  have hdraft : draft homes root none (some (Path.ofString input)) (some (Path.ofString output)) = .ok plain := rfl
  obtain ⟨s₀, hs₀⟩ := @exists_check_eq_ok plain .preserve rfl (show 0 < Int.toNat 8 by decide)
  have hover : (overrideOf (toldRequest input output typescript pattern? naming?)).onDraft plain =
      toldDraft input output typescript pattern? naming? := by
    cases typescript <;>
      simp only [overrideOf, toldRequest, Override.onDraft, plain, Workspace.plainSettings, toldDraft, Option.getD_none, Option.none_or,
        naming_getD] <;> rfl
  simp only [settingsFrom, toldRequest, Option.map_some, hdraft, finished, hs₀, bind, Except.bind, Except.mapError]
  rw [← toldRequest, apply_of_check hs₀, hover, h]
  rfl

/-! ## No settings file -/

/-- A file that is nowhere says nothing. -/
theorem content_of_get?_eq_none (read : Yaml.Reader) {d : Disk} {file : Path} {l : Location} (hfile : d.locate file = .ok l)
    (hnone : d.get? l = none) : content read d file = .ok none := by
  have hmissing : d.pathExists file = .ok false := by
    simp only [Disk.pathExists, Disk.ask, Disk.status, hfile, hnone]
  rw [content, hmissing]
  rfl

/-- The settings file of a working directory. -/
def workingFile (base : Path) : Path := ⟨.root, Disk.collapse [] (base.parts ++ [settingsFileName])⟩

/-- The settings file of the working directory is looked for in it as long as it is there. -/
theorem locate_here (homes : Homes) {d : Disk} (hdir : d.hasDirectory d.workingDirectory = true) :
    locate homes d (Path.ofString ".") = d.workingPath.map workingFile := by
  have hzero : Disk.holdsZeroByte (Path.here.child settingsFileName) = false := by decide
  have hhere : d.isDirectory Path.here = .ok true := Disk.isDirectory_eq_ok_iff.mpr ⟨d.workingDirectory, rfl, hdir⟩
  rw [(by decide : Path.ofString "." = Path.here), locate, Homes.expand_here]
  simp only [bind, Except.bind, hhere, Disk.resolve, hzero]
  rfl

/-- A request that names its input and output gets its settings from the file in the working directory. -/
theorem requestSettings_toldRequest (hdir : w.disk.hasDirectory w.disk.workingDirectory = true) :
    requestSettings (toldRequest input output typescript pattern? naming?) w =
      (attempt (w.disk.workingPath.map workingFile) >>= fun file =>
        content w.readers.document w.disk file >>=
          settingsFrom (toldRequest input output typescript pattern? naming?) w.homes file.parent) := by
  rw [← locate_here w.homes hdir]
  exact requestSettings_eq_settingsFrom _ w

/-- In a working directory without a settings file, a request makes the settings that are told. -/
theorem requestSettings_told (htree : w.disk.IsTree) (hdir : w.disk.hasDirectory w.disk.workingDirectory = true)
    (hnone : w.disk.get? (w.disk.workingDirectory ++ [settingsFileName]) = none)
    (hstays : Disk.isStray w.disk.workingDirectory = false) (h : (toldDraft input output typescript pattern? naming?).check = .ok s) :
    requestSettings (toldRequest input output typescript pattern? naming?) w = .ok s := by
  have hname : Disk.IsName settingsFileName := by decide
  have hup : ∀ part ∈ w.disk.workingDirectory ++ [settingsFileName], part ≠ ".." := by
    intro part hpart
    rcases List.mem_append.mp hpart with hpart | hpart
    · exact (htree.named hstays (Disk.isThere_of_hasDirectory hdir) part hpart).ne_up
    · rw [List.mem_singleton.mp hpart]
      exact hname.ne_up
  have hpath : w.disk.workingPath = .ok ⟨.root, w.disk.workingDirectory⟩ := by rw [Disk.workingPath, if_neg (by simp [hstays])]
  have hfile : workingFile ⟨.root, w.disk.workingDirectory⟩ = Path.child ⟨.root, w.disk.workingDirectory⟩ settingsFileName :=
    congrArg (Path.mk .root) (Disk.collapse_of_forall_ne hup)
  have hlocated : w.disk.locate (workingFile ⟨.root, w.disk.workingDirectory⟩) = .ok (w.disk.workingDirectory ++ [settingsFileName]) := by
    rw [hfile]
    exact Disk.locate_child (Disk.locate_of_hasDirectory htree hdir hstays) hdir hstays hname
  simp only [requestSettings_toldRequest hdir, hpath, Except.map, attempt, Except.mapError, bind, Except.bind,
    content_of_get?_eq_none _ hlocated hnone, settingsFrom_told h]

/-- In a working directory that is gone, no request makes settings, as there is no place to look for a settings file. -/
theorem requestSettings_of_isStray (hdir : w.disk.hasDirectory w.disk.workingDirectory = true)
    (hgone : Disk.isStray w.disk.workingDirectory = true) :
    requestSettings (toldRequest input output typescript pattern? naming?) w = .error (.unexpected Disk.noWorkingDirectory) := by
  rw [requestSettings_toldRequest hdir, Disk.workingPath, if_pos hgone]
  rfl

end IconForge.SettingsFile
