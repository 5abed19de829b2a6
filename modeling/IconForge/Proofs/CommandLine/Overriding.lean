import IconForge.Proofs.Build.Rerun
import IconForge.Proofs.Settings.Overriding
import IconForge.Proofs.Workspace.Alike

/-!
# What the command line says goes before the settings file

A command that builds does the same with two settings files that agree but for values that the command line says itself, as long as these
could be taken, and the build does not take in the file (`overridden_unseen`). A value that is overridden is looked at all the same: one
that cannot be taken ends the command, and a file that is copied or read as an icon is so with all that is in it
(`overridden_unseen_false`).
-/

namespace IconForge.CommandLine

open Build SettingsFile Workspace Yaml

variable {w w' : Workspace} {l : Location} {bytes bytes' : List UInt8} {c c' : Document} {request : BuildRequest}

/-- Two contents of a file at a location, to which the same bytes may have been added. -/
def Grown (l : Location) (bytes bytes' : List UInt8) (m : Location) (content content' : List UInt8) : Prop :=
  m = l ∧ ∃ more, content = bytes ++ more ∧ content' = bytes' ++ more

theorem grown_appendable : Appendable (Grown l bytes bytes') := by
  rintro m _ _ more' ⟨rfl, more, rfl, rfl⟩
  exact ⟨rfl, more ++ more', by simp, by simp⟩

/-- Two contents of one file are a case of a log file that has grown. -/
theorem grown_of_twoContents {m : Location} {content content' : List UInt8} (h : TwoContents l bytes bytes' m content content') :
    Grown l bytes bytes' m content content' := by
  obtain ⟨rfl, rfl, rfl⟩ := h
  exact ⟨rfl, [], by simp, by simp⟩

/-- The calls of the build that a request asks for; without settings there are none. -/
def buildCalls (request : BuildRequest) (w : Workspace) : List Call :=
  match requestSettings request w with
  | .ok s => (buildSession s w).calls
  | .error _ => []

/-- A request with settings makes the calls of their build. -/
theorem buildCalls_of_ok {s : Settings} (h : requestSettings request w = .ok s) : buildCalls request w = (buildSession s w).calls := by
  rw [buildCalls, h]

/-- The familiar form of a path is the same on disks that are alike. -/
theorem familiar_eq {differ : Location → List UInt8 → List UInt8 → Prop} {d d' : Disk} (h : Disk.Alike differ d d') (p : Path) :
    familiar d' p = familiar d p := by
  simp only [familiar, h.resolve_eq, h.workingPath_eq]

/-- Writing what waits for the log file leaves the readers as they are. -/
theorem settled_readers (w : Workspace) : w.settled.readers = w.readers := by
  unfold settled
  split
  · split <;> rfl
  · rfl

/-- Setting logging up changes nothing about how files and requests are read. -/
theorem configureLog_readers (detail : Log.Detail) (file? : Option Path) (w : Workspace) :
    (w.configureLog detail file?).2.readers = w.readers := by
  unfold Workspace.configureLog
  cases file? with
  | none => rfl
  | some p =>
    have hopened := settled_readers { w with disk := (openLogFile p w.disk).2, setup? := some ⟨detail, none⟩ }
    simp only [Workspace.onDisk]
    split <;> simp_all

section
variable (h : AgreeBut request c c') (hc : Acceptable request c) (hc' : Acceptable request c')
  (hb : Describes w.readers.document bytes c) (hb' : Describes w.readers.document bytes' c')
include h hc hc' hb hb'

/-- The same settings are asked for in workspaces that differ in the contents of a file. -/
theorem requestSettings_alike (hw : AlikeBut (TwoContents l bytes bytes') w w') :
    requestSettings request w' = requestSettings request w := by
  obtain ⟨d', rfl, hd⟩ := hw
  exact requestSettings_eq hd h hc hc' hb hb' rfl

/-- What is asked for is done the same in workspaces that differ in the contents of a file. -/
theorem runBuild_alike (hl : ∀ name ∈ l, name ≠ "") (hw : AlikeBut (TwoContents l bytes bytes') w w')
    (hout : ∀ call ∈ buildCalls request w, ¬TakesIn w.disk l call) :
    (runBuild request w').1 = (runBuild request w).1 ∧
      AlikeBut (Grown l bytes bytes') (runBuild request w).2 (runBuild request w').2 := by
  have hgrown : AlikeBut (Grown l bytes bytes') w w' := hw.mono fun _ _ _ => grown_of_twoContents
  unfold runBuild
  rw [requestSettings_alike h hc hc' hb hb' hw]
  cases hs : requestSettings request w with
  | error e =>
    cases e with
    | unexpected f => exact ⟨rfl, hgrown⟩
    | refused e => exact ⟨rfl, hgrown.tell _⟩
  | ok s =>
    rw [buildCalls_of_ok hs] at hout
    obtain ⟨hanswer, hend⟩ := hgrown.build grown_appendable (fun m content content' h => h.1) hl s hout
    simp only
    rcases hx : w.build s with ⟨answer, w₁⟩
    rcases hy : w'.build s with ⟨answer', w₁'⟩
    rw [hx, hy] at hanswer hend
    obtain rfl : answer' = answer := hanswer
    cases answer' with
    | ok r =>
      obtain ⟨d₁', rfl, hd₁⟩ := hend
      exact ⟨by simp only [report, familiar_eq hd₁], d₁', rfl, hd₁⟩
    | error e =>
      cases e with
      | unexpected f => exact ⟨rfl, hend⟩
      | build e => exact ⟨rfl, hend.tell _⟩

end

/-! ## Files with two entries -/

/-- The two names at the root of a content, and the text of the second one. -/
def entriesOf? : SettingsFile.Loading Content → Option (String × String × String)
  | .ok (some c) =>
    match c.root with
    | .mapping [(name, _), (other, id)] =>
      match c.get id with
      | .scalar (.text text) => some (name, other, text)
      | _ => none
    | _ => none
  | _ => none

/-- A document with two entries, of which the second one is a text. -/
def HasEntries (c : Document) (name other text : String) : Prop :=
  ∃ first second, c.root = .mapping [(name, first), (other, second)] ∧ c.get second = .scalar (.text text)

/-- A settings file whose entries are told is one that has been read. -/
theorem exists_document {content : SettingsFile.Loading Content} {name other text : String}
    (h : entriesOf? content = some (name, other, text)) :
    ∃ c, content = .ok (some c) ∧ HasEntries c name other text := by
  unfold entriesOf? at h
  split at h
  · rename_i c
    split at h
    · rename_i hroot
      split at h
      · rename_i hid
        cases h
        exact ⟨c, rfl, _, _, hroot, hid⟩
      · cases h
    · cases h
  · cases h

/-- What a text says does not depend on the name of the file. -/
theorem readContent_eq_ok {read : Reader} {file file' text : String} (h : readContent read file text = .ok (some c)) :
    readContent read file' text = .ok (some c) := by
  unfold readContent at h ⊢
  split at h
  · cases h
  · rw [if_neg ‹_›]
    split at h
    · cases h
    · cases h
    · cases h
    · rename_i document hread
      split at h
      · exact h
      · cases h
      · cases h

/-- A written text with two entries describes a document. -/
theorem exists_describes {read : Reader} {written name other text : String}
    (h : entriesOf? (readContent read "" (Text.unifiedBreaks written)) = some (name, other, text)) :
    ∃ c, Describes read (Text.Utf8.encode written) c ∧ HasEntries c name other text := by
  obtain ⟨c, hc, hentries⟩ := exists_document h
  exact ⟨c, ⟨written, Text.Utf8.decode_eq_ok_iff.mpr rfl, fun file => readContent_eq_ok hc⟩, hentries⟩

/-- Documents with two entries agree if the second ones do, and the first ones are overridden. -/
theorem agreeBut_of_hasEntries {name other text : String} (h : HasEntries c name other text) (h' : HasEntries c' name other text)
    (hname : Overrides request name) (hformatter : name ≠ "formatter" ∧ other ≠ "formatter") : AgreeBut request c c' := by
  obtain ⟨first, second, hroot, htext⟩ := h
  obtain ⟨first', second', hroot', htext'⟩ := h'
  have hvalue : ∀ {c : Document} {i j}, c.root = .mapping [(name, i), (other, j)] → ∀ n,
      valueOf? (some c) n = if n = other then some (c.get j) else if n = name then some (c.get i) else none := by
    intro c i j hc n
    rw [valueOf?, Option.bind_some, hc]
    simp only [Document.member?, List.reverse_cons, List.reverse_nil, List.nil_append, List.cons_append, List.lookup_cons,
      List.lookup_nil]
    by_cases hother : n = other
    · simp [hother]
    · rw [beq_eq_false_iff_ne.mpr hother, if_neg hother]
      by_cases hname : n = name
      · simp [hname]
      · simp [beq_eq_false_iff_ne.mpr hname, hname]
  constructor
  · intro n hn hne
    rw [hvalue hroot, hvalue hroot', htext, htext']
    by_cases hother : n = other
    · rw [if_pos hother, if_pos hother]
      exact sameValue_of_isKey fun x hx => by cases hx; rfl
    · have hne' : n ≠ name := fun heq => hn (heq ▸ hname)
      rw [if_neg hother, if_neg hother, if_neg hne', if_neg hne']
      exact sameValue_of_isKey fun x hx => by cases hx
  · intro n _
    have hformatter' : ∀ {c : Document} {i j}, c.root = .mapping [(name, i), (other, j)] → valueIn? (some c) "formatter" n = none := by
      intro c i j hc
      rw [valueIn?, Option.bind_some, hvalue hc, if_neg hformatter.2.symm, if_neg hformatter.1.symm]
      rfl
    rw [hformatter' hroot, hformatter' hroot']
    exact sameValue_of_isKey fun x hx => by cases hx

/-! ## The whole command -/

/-- A workspace stays as it is, but for a file, when other bytes are put into the file. -/
theorem alikeBut_put (hl : l ≠ []) (hfile : w.disk.get? l = some (.file bytes)) (bytes' : List UInt8) :
    AlikeBut (TwoContents l bytes bytes') w { w with disk := w.disk.put l (.file bytes') } := by
  refine ⟨_, rfl, rfl, rfl, fun m => ?_⟩
  rw [Disk.get?_put hl]
  split
  · rename_i heq
    rw [heq, hfile]
    exact .files ⟨rfl, rfl, rfl⟩
  · exact .same _

/-- Two settings files that agree but for values that the command line says itself, and that could be taken, make the same settings for a
command that builds. As long as the build does not take in the file, the command does the same with both: it ends the same, shows the
same, starts the same children, and leaves the same disk but for the file itself, to which the same log may have been added. A file with
an overridden value that could not be taken makes no settings at all. -/
theorem overridden_unseen {words : List String} {verbose quiet : Bool}
    (hwords : readInvocation words = .ok ⟨verbose, quiet, .build request⟩) (htree : w.disk.IsTree)
    (hfile : w.disk.get? l = some (.file bytes)) (hb : Describes w.readers.document bytes c) (hb' : Describes w.readers.document bytes' c')
    (h : AgreeBut request c c') (hc : Acceptable request c) (hc' : Acceptable request c') :
    let w' := { w with disk := w.disk.put l (.file bytes') }
    let u := (w.configureLog (Log.Detail.of verbose quiet) (request.logFile?.map Path.ofString)).2
    let u' := (w'.configureLog (Log.Detail.of verbose quiet) (request.logFile?.map Path.ofString)).2
    requestSettings request u' = requestSettings request u ∧
      ((∀ call ∈ buildCalls request u, ¬TakesIn u.disk l call) →
        (run words w').1 = (run words w).1 ∧ AlikeBut (Grown l bytes bytes') (run words w).2 (run words w').2) ∧
      ∀ (v : Workspace) (file : Path) (document : Document) (s : Settings),
        locate v.homes v.disk (Path.ofString request.settings) = .ok file → content v.readers.document v.disk file = .ok (some document) →
        requestSettings request v = .ok s → Acceptable request document := by
  intro w' u u'
  have hl : l ≠ [] := by
    rintro rfl
    cases hfile
  have hnames : ∀ name ∈ l, name ≠ "" := fun name hname =>
    (htree.isName_of_file (l := []) hfile name hname).ne_empty
  have hstart : AlikeBut (TwoContents l bytes bytes') w w' := alikeBut_put hl hfile bytes'
  obtain ⟨hanswer, hset⟩ := hstart.configureLog (Log.Detail.of verbose quiet) (request.logFile?.map Path.ofString)
  have hreaders : u.readers = w.readers := configureLog_readers _ _ w
  rw [← hreaders] at hb hb'
  refine ⟨requestSettings_alike h hc hc' hb hb' hset, fun hout => ?_, fun v file document s => acceptable_of_requestSettings⟩
  unfold run
  rw [hwords]
  simp only [Command.logFile?]
  rcases hx : w.configureLog (Log.Detail.of verbose quiet) (request.logFile?.map Path.ofString) with ⟨answer, u₁⟩
  rcases hy : w'.configureLog (Log.Detail.of verbose quiet) (request.logFile?.map Path.ofString) with ⟨answer', u₁'⟩
  obtain rfl : u = u₁ := congrArg Prod.snd hx
  obtain rfl : u' = u₁' := congrArg Prod.snd hy
  rw [hx, hy] at hanswer hset
  obtain rfl : answer' = answer := hanswer
  cases answer' with
  | error f => exact ⟨rfl, hset.mono fun _ _ _ => grown_of_twoContents⟩
  | ok => exact runBuild_alike h hc hc' hb hb' hnames hset hout

/-- A workspace with one icon and a settings file. -/
def fileWorkspace (l : Location) (written : String) : Workspace :=
  toolWorkspace { unbuiltDisk with
    entries := unbuiltDisk.entries ++ [(["conf"], .directory), (l, .file (Text.Utf8.encode written))] }

/-- A request to build with components of TypeScript. -/
def typedRequest (settings : String) : BuildRequest :=
  { inputDir? := some "icons", outputDir? := some "out", typescript := true, settings, pattern? := none, naming? := none
    noFormat := false, logFile? := none }

/-- A request to build with names in Pascal case. -/
def pascalRequest : BuildRequest := { typedRequest "." with typescript := false, naming? := some "pascal" }

theorem acceptable_typedRequest (settings : String) (c : Document) : Acceptable (typedRequest settings) c := ⟨nofun, nofun⟩

/-- A truth value that is none does not matter where the command line says one. -/
theorem overridden_unseen_typescript :
    let w := fileWorkspace [".iconbuild.yml"] "typescript: false\nstatic_dir: static\n"
    let w' := { w with disk := w.disk.put [".iconbuild.yml"] (.file (Text.Utf8.encode "typescript: [maybe]\nstatic_dir: static\n")) }
    (run ["build", "icons", "out", "--typescript"] w').1.toOption = some (.of 0 "Generated 1 icons in out\n") ∧
      (run ["build", "icons", "out", "--typescript"] w').2.disk.get? ["out", "index.ts"] =
        (run ["build", "icons", "out", "--typescript"] w).2.disk.get? ["out", "index.ts"] := by
  intro w w'
  have hwords : (readInvocation ["build", "icons", "out", "--typescript"]).toOption = some ⟨false, false, .build (typedRequest ".")⟩ := by
    decide +kernel
  have htree : w.disk.IsTree := Disk.isTree_of_entries (by decide +kernel)
  have hfile : w.disk.get? [".iconbuild.yml"] = some (.file (Text.Utf8.encode "typescript: false\nstatic_dir: static\n")) := by
    decide +kernel
  obtain ⟨c, hb, hentries⟩ := @exists_describes Yaml.reader "typescript: false\nstatic_dir: static\n" "typescript" "static_dir" "static"
      (by decide +kernel)
  obtain ⟨c', hb', hentries'⟩ := @exists_describes Yaml.reader "typescript: [maybe]\nstatic_dir: static\n" "typescript" "static_dir"
      "static" (by decide +kernel)
  have hagree := @agreeBut_of_hasEntries c c' (typedRequest ".") _ _ _ hentries hentries' (by simp [Overrides, typedRequest]) (by decide)
  obtain ⟨hanswer, d', hw', hd⟩ := (overridden_unseen (eq_ok_of_toOption hwords) htree hfile hb hb' hagree (acceptable_typedRequest _ _)
    (acceptable_typedRequest _ _)).2.1 (by decide +kernel)
  refine ⟨?_, ?_⟩
  · rw [hanswer]
    decide +kernel
  · rw [hw']
    exact hd.get?_eq fun _ _ hgrown => absurd hgrown.1 (by decide)

/-- A naming that is not known is refused although the command line says another one, and a settings file that is copied is copied with
the value that is overridden. -/
theorem overridden_unseen_false :
    (¬∀ (words : List String) (verbose quiet : Bool) (request : BuildRequest) (w : Workspace) (l : Location) (bytes bytes' : List UInt8)
        (c c' : Document), readInvocation words = .ok ⟨verbose, quiet, .build request⟩ → w.disk.IsTree →
      w.disk.get? l = some (.file bytes) → Describes w.readers.document bytes c → Describes w.readers.document bytes' c' →
      AgreeBut request c c' →
      (let u := (w.configureLog (Log.Detail.of verbose quiet) (request.logFile?.map Path.ofString)).2
        ∀ call ∈ buildCalls request u, ¬TakesIn u.disk l call) →
      (run words { w with disk := w.disk.put l (.file bytes') }).1 = (run words w).1) ∧
    ¬∀ (words : List String) (verbose quiet : Bool) (request : BuildRequest) (w : Workspace) (l : Location) (bytes bytes' : List UInt8)
        (c c' : Document), readInvocation words = .ok ⟨verbose, quiet, .build request⟩ → w.disk.IsTree →
      w.disk.get? l = some (.file bytes) → Describes w.readers.document bytes c → Describes w.readers.document bytes' c' →
      AgreeBut request c c' →
      Acceptable request c → Acceptable request c' →
      ∀ m, m ≠ l → (run words { w with disk := w.disk.put l (.file bytes') }).2.disk.get? m = (run words w).2.disk.get? m := by
  constructor
  · intro h
    let w := fileWorkspace [".iconbuild.yml"] "naming: pascal\nstatic_dir: static\n"
    have hwords : (readInvocation ["build", "icons", "out", "--naming", "pascal"]).toOption =
        some ⟨false, false, .build pascalRequest⟩ := by decide +kernel
    obtain ⟨c, hb, hentries⟩ := @exists_describes Yaml.reader "naming: pascal\nstatic_dir: static\n" "naming" "static_dir" "static"
      (by decide +kernel)
    obtain ⟨c', hb', hentries'⟩ := @exists_describes Yaml.reader "naming: bogus\nstatic_dir: static\n" "naming" "static_dir" "static"
      (by decide +kernel)
    have hagree := @agreeBut_of_hasEntries c c' pascalRequest _ _ _ hentries hentries' (by simp [Overrides, pascalRequest]) (by decide)
    have hsame := h _ _ _ _ w [".iconbuild.yml"] _ _ c c' (eq_ok_of_toOption hwords) (Disk.isTree_of_entries (by decide +kernel))
      (by decide +kernel) hb hb' hagree (by decide +kernel)
    have hcodes : (run ["build", "icons", "out", "--naming", "pascal"]
        { w with disk := w.disk.put [".iconbuild.yml"] (.file (Text.Utf8.encode "naming: bogus\nstatic_dir: static\n")) }).1.toOption ≠
          (run ["build", "icons", "out", "--naming", "pascal"] w).1.toOption := by decide +kernel
    exact hcodes (by rw [hsame])
  · intro h
    let w := fileWorkspace ["conf", "x.yml"] "typescript: true\nstatic_dir: .\n"
    have hwords : (readInvocation ["build", "icons", "out", "--typescript", "--config", "conf/x.yml"]).toOption =
        some ⟨false, false, .build (typedRequest "conf/x.yml")⟩ := by decide +kernel
    obtain ⟨c, hb, hentries⟩ := @exists_describes Yaml.reader "typescript: true\nstatic_dir: .\n" "typescript" "static_dir" "."
      (by decide +kernel)
    obtain ⟨c', hb', hentries'⟩ := @exists_describes Yaml.reader "typescript: false\nstatic_dir: .\n" "typescript" "static_dir" "."
      (by decide +kernel)
    have hagree := @agreeBut_of_hasEntries c c' (typedRequest "conf/x.yml") _ _ _ hentries hentries' (by simp [Overrides, typedRequest])
      (by decide)
    have hsame := h _ _ _ _ w ["conf", "x.yml"] _ _ c c' (eq_ok_of_toOption hwords) (Disk.isTree_of_entries (by decide +kernel))
      (by decide +kernel) hb hb' hagree (acceptable_typedRequest _ _) (acceptable_typedRequest _ _) ["out", "x.yml"] (by decide)
    have hcopies : (run ["build", "icons", "out", "--typescript", "--config", "conf/x.yml"]
        { w with disk := w.disk.put ["conf", "x.yml"] (.file (Text.Utf8.encode "typescript: false\nstatic_dir: .\n")) }).2.disk.get?
          ["out", "x.yml"] ≠
        (run ["build", "icons", "out", "--typescript", "--config", "conf/x.yml"] w).2.disk.get? ["out", "x.yml"] := by decide +kernel
    exact hcopies hsame

end IconForge.CommandLine
