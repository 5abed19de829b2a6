import IconForge.Proofs.Build.Rerun
import IconForge.Proofs.Settings.Defaults
import IconForge.Proofs.Workspace.Shown

/-!
# The entry points agree

A build can be asked for directly, at the service, and on the command line. With the same directories and options it is the same build
that runs: it leaves the same disk and starts the same children, the service answers with its outcome, and the command line ends with its
outcome (`entry_points_agree`) - unless the working directory is gone. Without one the command line does not build, and behind a build that
has taken it away, it has no name for the output, and ends with a fault although there is a result (`entry_points_agree_false`).
-/

namespace IconForge.CommandLine

open Build SettingsFile Workspace

variable {input output body : String} {typescript : Bool} {pattern? : Option String} {naming? : Option Component.Naming} {s : Settings}
  {w u : Workspace} {d : Disk} {outcome : Except Failure Build.Result} {ending : Except Fault Ending}

/-! ## The service -/

/-- The response to the outcome of a build. -/
def responseTo : Except Failure Build.Result → Service.Response
  | .ok r => Service.built r
  | .error (.build e) => Service.detail 422 (.string e.message)
  | .error (.unexpected _) => Service.broken

/-- A request to the build's address is a build. -/
theorem answer_build (body : String) (w : Workspace) : Service.answer "POST" "/build" body w = Service.build body w := by
  have hfind : Service.find? (Service.targetPath "/build") = some ("POST", .build) := by decide +kernel
  have hmethod : "POST".toUpper = "POST" := by decide +kernel
  simp only [Service.answer, Service.respond, hmethod, hfind]
  rfl

/-- The service builds what is told, and answers with the outcome. -/
theorem answer_told (hbody : w.readers.call body = .ok (toldCall input output typescript pattern? naming?))
    (h : (toldDraft input output typescript pattern? naming?).check = .ok s) :
    Service.answer "POST" "/build" body w = (responseTo (w.build s).1, (w.build s).2) := by
  rw [answer_build, Service.build, hbody]
  simp only [callSettings_told h]
  rcases w.build s with ⟨_ | _, w'⟩
  · rename_i e
    cases e <;> rfl
  · rfl

/-! ## The command line -/

/-- How the command line ends with the outcome of a build that has left a disk. -/
inductive Ends (s : Settings) (d : Disk) : Except Failure Build.Result → Except Fault Ending → Prop where
  | built (r : Build.Result) {place : String} : Disk.isStray d.workingDirectory = false → familiar d s.outputDir = .ok place →
      Ends s d (.ok r) (.ok (.of 0 ("Generated " ++ toString r.components.length ++ " icons in " ++ place ++ "\n")))
  /-- There is a result, but no working directory any more. -/
  | lost (r : Build.Result) : Disk.isStray d.workingDirectory = true → Ends s d (.ok r) (.error Disk.noWorkingDirectory)
  | failed (e : BuildError) : Ends s d (.error (.build e)) (.ok (.of 1 ""))
  | broken (f : Fault) : Ends s d (.error (.unexpected f)) (.error f)

/-- The program ends with an exit code. -/
def Exits (ending : Except Fault Ending) (code : Nat) : Prop := ∃ e, ending = .ok e ∧ e.code = code

/-- The program ends well exactly when a build is done and the working directory is there. -/
theorem Ends.exits_zero_iff (h : Ends s d outcome ending) :
    Exits ending 0 ↔ Disk.isStray d.workingDirectory = false ∧ ∃ r, outcome = .ok r ∧ responseTo outcome = Service.built r := by
  cases h with
  | built r hstays hplace => exact ⟨fun _ => ⟨hstays, r, rfl, rfl⟩, fun _ => ⟨_, rfl, rfl⟩⟩
  | lost r hgone => simp [Exits, hgone]
  | failed e => simp [Exits, Ending.of]
  | broken f => simp [Exits]

/-- The program ends with status 1 exactly for the errors of a build, and the service then tells the same message. -/
theorem Ends.exits_one_iff (h : Ends s d outcome ending) :
    Exits ending 1 ↔ ∃ e, outcome = .error (.build e) ∧ responseTo outcome = Service.detail 422 (.string e.message) := by
  cases h with
  | built r hstays hplace => simp [Exits, Ending.of]
  | lost r hgone => simp [Exits]
  | failed e => exact ⟨fun _ => ⟨e, rfl, rfl⟩, fun _ => ⟨_, rfl, rfl⟩⟩
  | broken f => simp [Exits]

/-- A path without a zero byte has a familiar form as long as there is a working directory. -/
theorem familiar_cases {p : Path} (hzero : Disk.holdsZeroByte p = false) :
    Disk.isStray d.workingDirectory = false ∧ (∃ place, familiar d p = .ok place) ∨
      Disk.isStray d.workingDirectory = true ∧ familiar d p = .error Disk.noWorkingDirectory := by
  have hresolve : d.resolve p = if p.isAbsolute then .ok ⟨.root, Disk.collapse [] p.parts⟩
      else d.workingPath.map fun base => ⟨.root, Disk.collapse [] (base.parts ++ p.parts)⟩ := by
    simp only [Disk.resolve, hzero, Bool.false_eq_true, if_false]
  unfold familiar
  cases hstray : Disk.isStray d.workingDirectory with
  | false =>
    have hpath : d.workingPath = .ok ⟨.root, d.workingDirectory⟩ := by rw [Disk.workingPath, hstray]; rfl
    rw [hresolve, hpath]
    refine .inl ⟨rfl, ?_⟩
    cases p.isAbsolute <;> simp only [bind, Except.bind, Except.map, if_true, Bool.false_eq_true, if_false] <;> split <;> exact ⟨_, rfl⟩
  | true =>
    have hpath : d.workingPath = .error Disk.noWorkingDirectory := by rw [Disk.workingPath, hstray]; rfl
    rw [hresolve, hpath]
    refine .inr ⟨rfl, ?_⟩
    cases p.isAbsolute <;> rfl

/-- The output of a build that gives a result has no zero byte in its path. -/
theorem holdsZeroByte_of_result (hw : Unfiled w) {r : Build.Result} (h : (w.build s).1 = .ok r) :
    Disk.holdsZeroByte s.outputDir = false := by
  let svgo := Tool.Svgo.new (some s.optimizer.executable) s.optimizer.plugins
  have hready : Unfiled { w with svgo } := hw
  have hresult : (runBuildBy Schedule.run (collaborators s svgo w.toolbox) s { w with svgo }).1 = .ok r := h
  obtain ⟨d, l, hl⟩ := located_of_result (workspace_local s svgo w.toolbox) Schedule.run hready hresult
  have hzero := (Disk.locate_eq_ok_iff.mp hl).1
  simp only [Disk.holdsZeroByte, Settings.componentsDir, Path.child, List.any_append, Bool.or_eq_false_iff] at hzero
  exact hzero.1

/-- A command with some settings runs the build of these, whatever is shown, and ends with its outcome. -/
theorem runBuild_ends {request : BuildRequest} (hsettings : requestSettings request u = .ok s) (hu : SameUnshown w u) :
    (runBuild request u).2.disk = (w.build s).2.disk ∧ (runBuild request u).2.runs = (w.build s).2.runs ∧
      Ends s (w.build s).2.disk (w.build s).1 (runBuild request u).1 := by
  obtain ⟨houtcome, hafter⟩ := hu.build s
  have hdisk := hafter.disk_eq
  have hruns := hafter.field_eq (·.runs) fun _ => rfl
  have hzero := fun r => @holdsZeroByte_of_result s w hu.unfiled r
  unfold runBuild
  rw [hsettings]
  rcases hx : w.build s with ⟨outcome, w₁⟩
  rcases hy : u.build s with ⟨outcome', u₁⟩
  simp only [hx, hy] at houtcome hdisk hruns hzero ⊢
  subst houtcome
  match outcome' with
  | .error (.unexpected f) => exact ⟨hdisk, hruns, .broken f⟩
  | .error (.build e) => exact ⟨hdisk, hruns, .failed e⟩
  | .ok r =>
    refine ⟨hdisk, hruns, ?_⟩
    simp only [report, hdisk]
    rcases @familiar_cases w₁.disk _ (hzero r rfl) with ⟨hstays, place, hplace⟩ | ⟨hgone, hplace⟩
    · rw [hplace]
      exact .built r hstays hplace
    · rw [hplace]
      exact .lost r hgone

/-- The words of a build set up how much is logged, and do what they ask for. -/
theorem run_told (hinput : IsPlain input) (houtput : IsPlain output) (w : Workspace) :
    run ("build" :: input :: output :: optionWords typescript pattern? naming?) w =
      runBuild (toldRequest input output typescript pattern? naming?) { w with setup? := some ⟨Log.Detail.of false false, none⟩ } := by
  rw [run, readInvocation_build hinput houtput]
  rfl

/-! ## Agreement -/

/-- Told the same directories and options, in a working directory without a settings file, the service does what the direct build does and
answers with its outcome. The command line leaves the same disk behind the same children, unless a log file is kept, which it gives up. It
ends with 0 exactly if there is a result that the service answers with and the working directory is still there, and with 1 exactly if the
build fails with an error that the service answers with. If the working directory is gone, the command line ends with a fault, before it
builds if it was gone by then. -/
theorem entry_points_agree (htree : w.disk.IsTree) (hdir : w.disk.hasDirectory w.disk.workingDirectory = true)
    (hnone : w.disk.get? (w.disk.workingDirectory ++ [settingsFileName]) = none) (hinput : IsPlain input) (houtput : IsPlain output)
    (hbody : w.readers.call body = .ok (toldCall input output typescript pattern? naming?)) :
    ∃ s, (toldDraft input output typescript pattern? naming?).check = .ok s ∧
      let direct := w.build s
      let served := Service.answer "POST" "/build" body w
      let ended := run ("build" :: input :: output :: optionWords typescript pattern? naming?) w
      served = (responseTo direct.1, direct.2) ∧
      (Disk.isStray w.disk.workingDirectory = true →
        ended.1 = .error Disk.noWorkingDirectory ∧ ended.2.disk = w.disk ∧ ended.2.runs = w.runs) ∧
      (Disk.isStray w.disk.workingDirectory = false → Unfiled w →
        ended.2.disk = direct.2.disk ∧ ended.2.runs = direct.2.runs ∧ Ends s direct.2.disk direct.1 ended.1 ∧
        (Exits ended.1 0 ↔
          Disk.isStray direct.2.disk.workingDirectory = false ∧ ∃ r, direct.1 = .ok r ∧ served.1 = Service.built r) ∧
        (Exits ended.1 1 ↔ ∃ e, direct.1 = .error (.build e) ∧ served.1 = Service.detail 422 (.string e.message))) := by
  obtain ⟨s, hs⟩ := exists_check_toldDraft input output typescript pattern? naming?
  have hserved := @answer_told _ _ _ _ _ _ s w hbody hs
  refine ⟨s, hs, hserved, fun hgone => ?_, fun hstays hunfiled => ?_⟩
  · have hsettings := @requestSettings_of_isStray input output typescript pattern? naming?
      { w with setup? := some ⟨Log.Detail.of false false, none⟩ } hdir hgone
    rw [run_told hinput houtput]
    unfold runBuild
    rw [hsettings]
    exact ⟨rfl, rfl, rfl⟩
  · have hsettings := @requestSettings_told input output typescript pattern? naming? s
      { w with setup? := some ⟨Log.Detail.of false false, none⟩ } htree hdir hnone hstays hs
    have hlogging : SameUnshown w { w with setup? := some ⟨Log.Detail.of false false, none⟩ } := ⟨hunfiled, rfl, rfl⟩
    obtain ⟨hdisk, hruns, hends⟩ := runBuild_ends hsettings hlogging
    rw [run_told hinput houtput, hserved]
    exact ⟨hdisk, hruns, hends, hends.exits_zero_iff, hends.exits_one_iff⟩

/-- A body that asks for typed components with names in Pascal case. -/
def typedBody : String :=
  Json.onOneLine (.object [("input_dir", .string "icons"), ("output_dir", .string "out"), ("typescript", .string "yes"),
    ("naming", .string "pascal")])

/-- A build of one icon with typed components and names in Pascal case does the same at the service and on the command line. -/
theorem entry_points_agree_typed :
    let w := toolWorkspace unbuiltDisk
    let ended := run ["build", "icons", "out", "--typescript", "--naming=pascal"] w
    let served := Service.answer "POST" "/build" typedBody w
    ended.1.toOption = some (.of 0 "Generated 1 icons in out\n") ∧ served.1.status = 200 ∧ served.2.disk = ended.2.disk ∧
      served.2.runs = ended.2.runs := by
  intro w ended served
  have hbody : (w.readers.call typedBody).toOption = some (toldCall "icons" "out" true none (some .pascal)) := by decide +kernel
  have hwords : optionWords true none (some .pascal) = ["--typescript", "--naming=pascal"] := by decide
  obtain ⟨s, -, hserved, -, hended⟩ := @entry_points_agree "icons" "out" _ true none (some .pascal) w isTree_unbuiltDisk rfl
    (by decide +kernel) (by rintro rest ⟨⟩) (by rintro rest ⟨⟩) (eq_ok_of_toOption hbody)
  obtain ⟨hdisk, hruns, -, hzero, -⟩ := hended rfl rfl
  rw [hwords] at hdisk hruns hzero
  have hcode : ended.1.toOption = some (.of 0 "Generated 1 icons in out\n") := by decide +kernel
  obtain ⟨-, r, -, hbuilt⟩ := hzero.mp ⟨_, eq_ok_of_toOption hcode, rfl⟩
  have hworld : served.2 = (w.build s).2 := congrArg Prod.snd hserved
  refine ⟨hcode, congrArg Service.Response.status hbuilt, ?_, ?_⟩
  · rw [hworld]
    exact hdisk.symm
  · rw [hworld]
    exact hruns.symm

/-- A workspace with a directory for icons that is empty, and with another one to work in. -/
def emptyWorkspace : Workspace :=
  toolWorkspace { entries := [(["icons"], .directory), (["work"], .directory)], workingDirectory := ["work"] }

/-- A body that asks for a build into the directory to work in. -/
def plainBody : String := Json.onOneLine (.object [("input_dir", .string "/icons"), ("output_dir", .string "/work")])

/-- A build into the working directory takes it away and makes it anew: it gives a result, but the command line does not end with 0. -/
theorem entry_points_agree_false :
    ¬∀ (w : Workspace) (input output body : String) (typescript : Bool) (pattern? : Option String) (naming? : Option Component.Naming)
        (s : Settings), w.disk.IsTree → w.disk.hasDirectory w.disk.workingDirectory = true →
      Disk.isStray w.disk.workingDirectory = false → w.disk.get? (w.disk.workingDirectory ++ [settingsFileName]) = none → Unfiled w →
      IsPlain input → IsPlain output → w.readers.call body = .ok (toldCall input output typescript pattern? naming?) →
      (toldDraft input output typescript pattern? naming?).check = .ok s →
      (Exits (run ("build" :: input :: output :: optionWords typescript pattern? naming?) w).1 0 ↔
        ∃ r, (w.build s).1 = .ok r ∧ (Service.answer "POST" "/build" body w).1 = Service.built r) := by
  intro h
  have hbody : (emptyWorkspace.readers.call plainBody).toOption = some (toldCall "/icons" "/work" false none none) := by decide +kernel
  obtain ⟨s, hs⟩ := exists_check_toldDraft "/icons" "/work" false none none
  have hbuilds : ((toldDraft "/icons" "/work" false none none).check.toOption.all fun s => (emptyWorkspace.build s).1.toOption.isSome) =
      true := by decide +kernel
  rw [hs] at hbuilds
  obtain ⟨r, hr⟩ := Option.isSome_iff_exists.mp hbuilds
  have hresult : (emptyWorkspace.build s).1 = .ok r := eq_ok_of_toOption hr
  have hiff := h emptyWorkspace "/icons" "/work" _ false none none s (Disk.isTree_of_entries (by decide +kernel)) rfl rfl
    (by decide +kernel) rfl (by rintro rest ⟨⟩) (by rintro rest ⟨⟩) (eq_ok_of_toOption hbody) hs
  rw [answer_told (eq_ok_of_toOption hbody) hs, hresult] at hiff
  obtain ⟨e, he, -⟩ := hiff.mpr ⟨r, rfl, rfl⟩
  have hends : (run ("build" :: "/icons" :: "/work" :: optionWords false none none) emptyWorkspace).1.toOption.isNone = true := by
    decide +kernel
  rw [he] at hends
  cases hends

end IconForge.CommandLine
