import IconForge.Proofs.Build.Session
import IconForge.Proofs.Workspace.LogFile
import IconForge.Workspace.Logging

/-!
# Setting logging up anew

Whatever handlers there were, setting logging up leaves those of the call: the console's and, if a log file could be opened, that one's
(`Station.configure_eq`). A workspace logs as its logger does (`Station.ofWorkspace_configure`, `Station.ofWorkspace_log`). So behind any
calls, only the last one tells where records go (`Station.setup_by_last_call`).
-/

namespace IconForge.Log

/-! ## Loggers -/

namespace Logger

/-- Taking off the handlers one by one leaves none. -/
theorem foldl_remove (l : Logger) (hs : List Handler) (h : l.handlers = hs) : hs.foldl remove l = { l with handlers := [] } := by
  induction hs generalizing l with
  | nil =>
    obtain ⟨level, propagates, handlers⟩ := l
    obtain rfl : handlers = [] := h
    rfl
  | cons first hs ih =>
    have hrest : (l.remove first).handlers = hs := by rw [remove, h, List.erase_cons_head]
    exact ih _ hrest

/-- No handler is left over. -/
theorem removeAll_eq (l : Logger) : l.removeAll = { l with handlers := [] } := foldl_remove l _ rfl

end Logger

namespace SetupCall

/-- The handler for the console that a call sets up. -/
def console (c : SetupCall) : Handler := ⟨.console, c.level, c.verbose⟩

/-- The handler for the log file that a call sets up. -/
def file (c : SetupCall) (place : Location) : Handler := ⟨.file place, c.level, false⟩

/-- The logger with the handlers of a call. -/
def logger (c : SetupCall) (place? : Option Location) : Logger := ⟨c.level, false, c.console :: (place?.map c.file).toList⟩

/-- A verbose call keeps all records with a level, another one those of steps, or only warnings if it is quiet. -/
theorem level_eq (c : SetupCall) : c.level = if c.verbose then 10 else if c.quiet then 30 else 20 := by
  obtain ⟨verbose, quiet, file?⟩ := c
  cases verbose <;> cases quiet <;> rfl

/-- The level of a setup is above zero. -/
theorem level_pos (c : SetupCall) : 0 < c.level := by
  rw [level_eq]
  split
  · decide
  · split <;> decide

/-- The logger of a call is the one that a setup with its detail leaves. -/
theorem ofSetup_eq (c : SetupCall) (place? : Option Location) :
    Logger.ofSetup (some ⟨Detail.of c.verbose c.quiet, place?⟩) = c.logger place? := by
  obtain ⟨verbose, quiet, file?⟩ := c
  cases verbose <;> cases quiet <;> rfl

/-- The logger of a call lets through what reaches the level of the call. -/
theorem isEnabled_logger (c : SetupCall) (place? : Option Location) (level : Int) :
    (c.logger place?).isEnabled level = decide (c.level ≤ level) := by
  have hpos := c.level_pos
  have hthreshold : (c.logger place?).threshold = c.level := if_neg (by change c.level ≠ 0; omega)
  rw [Logger.isEnabled, hthreshold]
  by_cases h : c.level ≤ level
  · simp [h, Int.lt_of_lt_of_le hpos h]
  · simp [h]

end SetupCall

namespace Station

variable {s : Station} {c : SetupCall} {place? : Option Location}

/-! ## Setting up -/

/-- What was set up before plays no part in what a call sets up. -/
theorem configure_eq (s : Station) (c : SetupCall) :
    s.configure c = match c.file? with
      | none => (.ok (), { s with logger := c.logger none })
      | some file =>
        match Workspace.openLogFile (Path.ofString file) s.disk with
        | (.error f, disk) => (.error f, { s with disk, logger := c.logger none })
        | (.ok place, disk) => (.ok (), { s with disk, logger := c.logger (some place) }) := by
  unfold configure
  rw [Logger.removeAll_eq]
  rfl

/-- A setup touches the disk only for its log file. -/
theorem configure_disk (s : Station) (c : SetupCall) :
    (s.configure c).2.disk = match c.file? with
      | none => s.disk
      | some file => (Workspace.openLogFile (Path.ofString file) s.disk).2 := by
  rw [configure_eq]
  cases c.file? with
  | none => rfl
  | some file =>
    simp only
    split <;> simp [*]

/-- A workspace sets logging up as its logger does. -/
theorem ofWorkspace_configure (w : Workspace) (c : SetupCall) :
    (ofWorkspace w).configure c =
      ((w.configureLog (Detail.of c.verbose c.quiet) (c.file?.map Path.ofString)).1,
        ofWorkspace (w.configureLog (Detail.of c.verbose c.quiet) (c.file?.map Path.ofString)).2) := by
  rw [configure_eq]
  cases hfile : c.file? with
  | none => simp only [ofWorkspace, Workspace.configureLog, Option.map_none, c.ofSetup_eq]
  | some file =>
    simp only [ofWorkspace, Workspace.configureLog, Option.map_some, Workspace.onDisk, Workspace.settled]
    split <;> simp only [*, c.ofSetup_eq]

/-! ## Logging -/

/-- A record that reaches the level of the last call goes to the console, and to the log file if there is one. -/
theorem log_of_level (h : s.logger = c.logger place?) {r : Record} (hr : c.level ≤ r.level) :
    s.log r = match place? with
      | none => s.tell (c.console.line s.now r)
      | some place => { s.tell (c.console.line s.now r) with
          disk := s.disk.appendBytes place (Text.Utf8.encode ((c.file place).line s.now r)) } := by
  have henabled : s.logger.isEnabled r.level = true := by rw [h, c.isEnabled_logger, decide_eq_true hr]
  have hhandlers : s.logger.handlers = c.console :: (place?.map c.file).toList := by rw [h]; rfl
  have hconsole : handle r s c.console = s.tell (c.console.line s.now r) := if_pos hr
  rw [log, if_pos henabled, hhandlers, List.isEmpty_cons, if_neg (by simp), List.foldl_cons, hconsole]
  cases place? with
  | none => rfl
  | some place => exact if_pos hr

/-- A record that does not reach the level of the last call goes nowhere. -/
theorem log_of_lower (h : s.logger = c.logger place?) {r : Record} (hr : ¬c.level ≤ r.level) : s.log r = s := by
  have henabled : ¬s.logger.isEnabled r.level = true := by rw [h, c.isEnabled_logger]; simpa using hr
  rw [log, if_neg henabled]

/-- A workspace logs as its logger does. -/
theorem ofWorkspace_log (w : Workspace) (r : Record) : (ofWorkspace w).log r = ofWorkspace (w.log r) := by
  cases hsetup : w.setup? with
  | none =>
    have hlogger : (ofWorkspace w).logger = .new := by rw [ofWorkspace, hsetup]; rfl
    have henabled : isEnabled w.setup? r.level = Logger.new.isEnabled r.level := by rw [hsetup]; rfl
    rw [log, hlogger, Workspace.log, henabled]
    by_cases h : Logger.new.isEnabled r.level = true
    · have hgrave : warning ≤ r.level := by
        simp only [Logger.isEnabled, Bool.and_eq_true, decide_eq_true_eq] at h
        exact h.2
      rw [if_pos h, if_pos h, if_pos (by rfl), if_pos hgrave, hsetup]
      simp [sinks, Workspace.keep, consoleLine, hsetup, ofWorkspace, tell, Workspace.tell]
    · rw [if_neg h, if_neg h]
  | some setup =>
    obtain ⟨detail, place?⟩ := setup
    obtain ⟨c, rfl⟩ : ∃ c : SetupCall, detail = Detail.of c.verbose c.quiet := by
      cases detail
      · exact ⟨⟨true, false, none⟩, rfl⟩
      · exact ⟨⟨false, false, none⟩, rfl⟩
      · exact ⟨⟨false, true, none⟩, rfl⟩
    have hlogger : (ofWorkspace w).logger = c.logger place? := by rw [ofWorkspace, hsetup, ← c.ofSetup_eq]
    have henabled : isEnabled w.setup? r.level = decide (c.level ≤ r.level) := by
      rw [hsetup]
      change (decide (0 < r.level) && decide (c.level ≤ r.level)) = _
      by_cases hr : c.level ≤ r.level
      · simp [hr, Int.lt_of_lt_of_le c.level_pos hr]
      · simp [hr]
    have hline : consoleLine w.setup? r = c.console.line w.now r := by
      rw [hsetup]
      obtain ⟨verbose, quiet, file?⟩ := c
      cases verbose <;> cases quiet <;> rfl
    by_cases hr : c.level ≤ r.level
    · rw [log_of_level hlogger hr, Workspace.log, henabled, if_pos (decide_eq_true hr), hsetup]
      cases place? with
      | none =>
        change _ = ofWorkspace (Workspace.keep r w .console)
        simp only [Workspace.keep, hline]
        rfl
      | some place =>
        change _ = ofWorkspace (Workspace.keep r (Workspace.keep r w .console) (.file place))
        simp only [Workspace.keep, hline]
        rfl
    · rw [log_of_lower hlogger hr, Workspace.log, henabled, if_neg (by simpa using hr)]

/-! ## Records behind a call -/

/-- What records leave where a call has set logging up: each of them that reaches the level of the call stands in one line on the console,
which tells its part of the program if the call is verbose, its level and its message, and in one line of the log file if there is one,
which tells its time, its level, its logger and its message. All else is as it was, and all other files are. -/
structure Logged (c : SetupCall) (place? : Option Location) (rs : List Record) (s s' : Station) : Prop where
  logger : s'.logger = s.logger
  now : s'.now = s.now
  console : s'.console = s.console ++ String.join ((rs.filter (c.level ≤ ·.level)).map fun r =>
    (if c.verbose then "[iconbuild:" ++ part r.logger ++ "] " else "[iconbuild] ") ++ levelName r.level ++ " " ++ r.message ++ "\n")
  file : ∀ place ∈ place?, ∀ content, s.disk.get? place = some (.file content) → s'.disk.get? place =
    some (.file (content ++ (rs.filter (c.level ≤ ·.level)).flatMap fun r =>
      Text.Utf8.encode (s.now ++ " " ++ levelName r.level ++ " " ++ r.logger ++ ": " ++ r.message ++ "\n")))
  elsewhere : ∀ l, l ∉ place? → s'.disk.get? l = s.disk.get? l

theorem Logged.nil (c : SetupCall) (place? : Option Location) (s : Station) : Logged c place? [] s s where
  logger := rfl
  now := rfl
  console := by simp
  file := fun _ _ content hcontent => by simp [hcontent]
  elsewhere := fun _ _ => rfl

/-- Records are logged one behind the other. -/
theorem Logged.trans {s' s'' : Station} {rs rs' : List Record} (h : Logged c place? rs s s') (h' : Logged c place? rs' s' s'') :
    Logged c place? (rs ++ rs') s s'' where
  logger := h'.logger.trans h.logger
  now := h'.now.trans h.now
  console := by rw [h'.console, h.console, List.filter_append, List.map_append, String.join_append, String.append_assoc]
  file := by
    intro place hplace content hcontent
    rw [h'.file place hplace _ (h.file place hplace content hcontent), h.now, List.filter_append, List.flatMap_append, List.append_assoc]
  elsewhere := fun l hl => (h'.elsewhere l hl).trans (h.elsewhere l hl)

/-- What the console's handler writes. -/
theorem line_console (c : SetupCall) (now : String) (r : Record) : c.console.line now r =
    (if c.verbose then "[iconbuild:" ++ part r.logger ++ "] " else "[iconbuild] ") ++ levelName r.level ++ " " ++ r.message ++ "\n" := by
  have htagged : "[" ++ rootLogger ++ ":" = "[iconbuild:" := by decide
  have hplain : "[" ++ rootLogger ++ "] " = "[iconbuild] " := by decide
  simp only [Handler.line, SetupCall.console, htagged, hplain]

/-- What the log file's handler writes. -/
theorem line_file (c : SetupCall) (place : Location) (now : String) (r : Record) :
    (c.file place).line now r = now ++ " " ++ levelName r.level ++ " " ++ r.logger ++ ": " ++ r.message ++ "\n" := rfl

/-- One record behind a call. -/
theorem log_logged (h : s.logger = c.logger place?) (r : Record) : Logged c place? [r] s (s.log r) := by
  by_cases hr : c.level ≤ r.level
  · rw [log_of_level h hr, line_console]
    cases place? with
    | none => exact ⟨rfl, rfl, by simp [tell, hr], nofun, fun _ _ => rfl⟩
    | some place =>
      refine ⟨rfl, rfl, by simp [tell, hr], ?file, ?elsewhere⟩
      case file =>
        rintro _ ⟨⟩ content hcontent
        simp only [line_file, Disk.get?_appendBytes_self hcontent, hr, decide_true, List.filter_cons_of_pos, List.filter_nil,
          List.flatMap_singleton]
      case elsewhere =>
        intro l hl
        have hne : l ≠ place := by
          rintro rfl
          exact hl rfl
        exact Disk.get?_appendBytes_of_ne hne s.disk _
  · rw [log_of_lower h hr]
    have hnone : [r].filter (c.level ≤ ·.level) = [] := by simp [hr]
    exact ⟨rfl, rfl, by simp [hnone], fun _ _ content hcontent => by simp [hnone, hcontent], fun _ _ => rfl⟩

/-- Any records behind a call. -/
theorem logAll_logged (h : s.logger = c.logger place?) (rs : List Record) : Logged c place? rs s (s.logAll rs) := by
  induction rs generalizing s with
  | nil => exact .nil c place? s
  | cons r rs ih =>
    have hfirst := log_logged h r
    exact hfirst.trans (ih (hfirst.logger.trans h))

/-! ## Calls in a row -/

/-- What calls leave alone: every entry of the disk, which stays a tree. -/
structure Prepares (s s' : Station) : Prop where
  extends_disk : s.disk.Extends s'.disk
  isTree : s'.disk.IsTree
  directory : s'.disk.hasDirectory s'.disk.workingDirectory = true

theorem Prepares.refl (htree : s.disk.IsTree) (hdir : s.disk.hasDirectory s.disk.workingDirectory = true) : Prepares s s :=
  ⟨.refl _, htree, hdir⟩

/-- One more setup leaves alone what the calls before it have left alone. -/
theorem Prepares.configure {s' : Station} (h : Prepares s s') (c : SetupCall) : Prepares s (s'.configure c).2 := by
  have hdisk := configure_disk s' c
  cases hfile : c.file? with
  | none =>
    rw [hfile] at hdisk
    exact ⟨hdisk ▸ h.extends_disk, hdisk ▸ h.isTree, hdisk ▸ h.directory⟩
  | some file =>
    rw [hfile] at hdisk
    obtain ⟨hextends, htree⟩ := Workspace.openLogFile_extends h.isTree h.directory (Path.isWritten_ofString file)
    simp only at hdisk
    rw [← hdisk] at hextends htree
    exact ⟨h.extends_disk.trans hextends, htree, hextends.hasDirectory_workingDirectory h.directory⟩

/-- Setups in a row leave alone what each of them leaves alone. -/
theorem Prepares.after {s' : Station} (h : Prepares s s') (calls : List SetupCall) : Prepares s (s'.after calls) := by
  induction calls generalizing s' with
  | nil => exact h
  | cons c calls ih => exact ih (h.configure c)

/-- Behind any calls, failed ones among them, a call that succeeds leaves the logger that it leaves alone, whatever logger there was: one
handler for the console and, if it names a log file, one for that, both at the level that it selects. So every record that reaches this
level stands once on the console and once in that file, and no other file receives any. -/
theorem setup_by_last_call (htree : s.disk.IsTree) (hdir : s.disk.hasDirectory s.disk.workingDirectory = true) {calls : List SetupCall}
    {last : SetupCall} (h : ((s.after calls).configure last).1 = .ok ()) :
    let place? := last.file?.map fun file => s.disk.place (Path.ofString file)
    let t := ((s.after calls).configure last).2
    (∀ logger, ∃ alone, { s with logger }.configure last = (.ok (), alone) ∧ t.logger = alone.logger) ∧
      last.level = (if last.verbose then 10 else if last.quiet then 30 else 20) ∧
      t.logger =
        ⟨last.level, false, ⟨.console, last.level, last.verbose⟩ :: (place?.map fun place => ⟨.file place, last.level, false⟩).toList⟩ ∧
      (∀ place ∈ place?, ∃ content, t.disk.get? place = some (.file content)) ∧
      ∀ rs, Logged last place? rs t (t.logAll rs) := by
  intro place? t
  have hprepared := (Prepares.refl htree hdir).after calls
  suffices hset : (∀ logger, ∃ alone, { s with logger }.configure last = (.ok (), alone) ∧ last.logger place? = alone.logger) ∧
      t.logger = last.logger place? ∧ ∀ place ∈ place?, ∃ content, t.disk.get? place = some (.file content) by
    obtain ⟨halone, hlogger, hfile⟩ := hset
    exact ⟨by rwa [hlogger], last.level_eq, hlogger, hfile, logAll_logged hlogger⟩
  have hend : t = ((s.after calls).configure last).2 := rfl
  rw [configure_eq] at h hend
  cases hfile : last.file? with
  | none =>
    have hplace : place? = none := by simp only [place?, hfile, Option.map_none]
    rw [hfile] at hend
    rw [hplace, hend]
    exact ⟨fun logger => ⟨_, by rw [configure_eq, hfile], rfl⟩, rfl, nofun⟩
  | some file =>
    have hplace : place? = some (s.disk.place (Path.ofString file)) := by simp only [place?, hfile, Option.map_some]
    rw [hfile] at h hend
    simp only at h hend
    rcases hopen : Workspace.openLogFile (Path.ofString file) (s.after calls).disk with ⟨answer, d⟩
    rw [hopen] at h hend
    cases answer with
    | error f => cases h
    | ok l =>
      have hw := Path.isWritten_ofString file
      obtain ⟨hl, hthere⟩ := Workspace.openLogFile_place hprepared.isTree hprepared.directory hw hopen
      rw [Disk.place_of_workingDirectory hprepared.extends_disk.workingDirectory] at hl
      obtain ⟨d', halone⟩ := Workspace.openLogFile_of_extends htree hdir hw hprepared.extends_disk hprepared.isTree hopen
      rw [hplace, ← hl, hend]
      refine ⟨fun logger => ⟨{ s with disk := d', logger := last.logger (some l) }, ?_, rfl⟩, rfl, ?_⟩
      · rw [configure_eq, hfile]
        simp only [halone]
      · rintro _ ⟨⟩
        exact hthere

/-- A station in a working directory with a directory for icons, before logging is set up. -/
def freshStation : Station :=
  { disk := { entries := [(["work"], .directory), (["work", "icons"], .directory)], workingDirectory := ["work"] }
    console := ""
    now := "2024-05-01 12:00:00,000"
    logger := .new }

/-- One call names a log file, another one a directory, so that it fails; the last one wants warnings in a new log file, and gets them there
and not in the old one. -/
theorem setup_by_last_call_failing :
    let calls : List SetupCall := [⟨true, false, some "logs/old.log"⟩, ⟨false, false, some "icons"⟩]
    let last : SetupCall := ⟨false, true, some "logs/../new.log"⟩
    let t := ((freshStation.after calls).configure last).2
    let v := t.logAll [⟨"iconbuild.optimizer", info, "Optimized"⟩, ⟨"iconbuild.orchestrator", warning, "Late"⟩]
    ((freshStation.after (calls.take 1)).configure ⟨false, false, some "icons"⟩).1.toOption = none ∧
      t.logger = ⟨warning, false, [⟨.console, warning, false⟩, ⟨.file ["work", "new.log"], warning, false⟩]⟩ ∧
      v.console = t.console ++ "[iconbuild] WARNING Late\n" ∧
      v.disk.get? ["work", "new.log"] =
        some (.file (Text.Utf8.encode "2024-05-01 12:00:00,000 WARNING iconbuild.orchestrator: Late\n")) ∧
      v.disk.get? ["work", "logs", "old.log"] = t.disk.get? ["work", "logs", "old.log"] := by
  intro calls last t v
  have hlast : ((freshStation.after calls).configure last).1.toOption = some () := by decide +kernel
  obtain ⟨-, -, hlogger, -, hlogged⟩ := @setup_by_last_call freshStation (Disk.isTree_of_entries (by decide +kernel)) (by decide) calls last
    (Build.eq_ok_of_toOption hlast)
  have hempty : t.disk.get? ["work", "new.log"] = some (.file []) := by decide +kernel
  refine ⟨by decide +kernel, ?_, ?_, ?_, ?_⟩
  · exact hlogger
  · rw [(hlogged _).console]
    exact congrArg (t.console ++ ·) (by decide +kernel)
  · rw [(hlogged _).file _ (by decide +kernel) [] hempty]
    exact congrArg (some ∘ Entry.file) (by decide +kernel)
  · exact (hlogged _).elsewhere _ (by decide +kernel)

end Station

end IconForge.Log
