import IconForge.Proofs.Build.Stages

/-!
# Builds that succeed

When a build gives a result, everything that it made of its icons is in step: the files that were found, the markup texts
that were read, what the optimizer made of them, the sources that were rendered and formatted, the files that were written,
the result and the index (`build_publishes`). This holds in whatever order the optimizations ended.
-/

namespace IconForge.Build

open Component

/-- What a build leaves that has succeeded: the markup texts of the icons, and what it made of each icon. -/
structure Published {σ : Type} (c : Collaborators σ) (st : Settings) (session : Session σ) (result : Result)
    (markups : List String) (ms : List Emission) : Prop where
  length : markups.length = ms.length
  icons : ∀ m ∈ ms, m.icon = iconOf st.naming m.icon.path
  /-- Every icon got what the optimizer made of its own markup. -/
  optimized : outcomes c markups = ms.map fun m => .ok m.optimized
  rendered : ∀ m ∈ ms, m.Renders st
  exchanges : session.exchanges = gathering st (ms.map (·.icon.path)) markups ++ ms.map (·.exchange st) ++
    [indexExchange st (ms.map (·.icon.name)) (.ok .done)]
  calls : session.calls = plan st (ms.map (·.icon.path)) (ms.map (·.content))
  optimizerCalls : session.optimizerCalls = markups
  formattings : session.formattings = ms.map (·.formatting)
  distinct : (ms.map (·.target st) ++ [indexTarget st]).Nodup
  result : result = ⟨ms.map (·.target st), indexTarget st⟩
  targets : ∀ m ∈ ms, m.target st = (st.outputDir.child "components").child (m.icon.name ++ if st.typescript then ".tsx" else ".js")
  indexFile : indexTarget st = st.outputDir.child (if st.typescript then "index.ts" else "index.js")
  /-- The index is written last: one empty line, or a line for each component in turn that exports it from its module. -/
  index : session.calls.getLast? = some (.write (indexTarget st) (if ms = [] then "\n" else String.join (ms.map fun m =>
    "export " ++ (String.singleton '{' ++ ("default as " ++ m.icon.name) ++ String.singleton '}') ++ " from '" ++
      ("./components/" ++ m.icon.name) ++ "';\n")))
  /-- The module that the index names is the file that was written for the component, without its suffix. -/
  resolves : ∀ m ∈ ms,
    st.outputDir.join (Path.ofString ("./components/" ++ m.icon.name ++ componentSuffix st.typescript)) = m.target st

section
variable {σ : Type} {c : Collaborators σ} {st : Settings}

/-- What is made of the icons is made of the files that they are. -/
theorem paths_eq_of_icons {paths : List Path} {ms : List Emission} (h : ms.map (·.icon) = paths.map (iconOf st.naming)) :
    paths = ms.map (·.icon.path) := by
  rw [← map_path_iconOf st.naming paths, ← h, List.map_map]
  rfl

/-- Each emission is about the icon of a path. -/
theorem icon_of_mem {paths : List Path} {ms : List Emission} (h : ms.map (·.icon) = paths.map (iconOf st.naming)) {m : Emission}
    (hm : m ∈ ms) : m.icon = iconOf st.naming m.icon.path ∧ m.icon.path ∈ paths := by
  have hmem : m.icon ∈ paths.map (iconOf st.naming) := h ▸ List.mem_map_of_mem hm
  obtain ⟨path, hp, hi⟩ := List.mem_map.mp hmem
  rw [← hi]
  exact ⟨rfl, hp⟩

/-- The names of the emissions are those of the paths, in order. -/
theorem names_eq_of_icons {paths : List Path} {ms : List Emission} (h : ms.map (·.icon) = paths.map (iconOf st.naming)) :
    paths.map (identifier st.naming) = ms.map (·.icon.name) := by
  rw [← map_name_iconOf, ← h, List.map_map]
  rfl

/-- The calls of a build that ends with the index are those of the plan. -/
theorem calls_eq_plan {paths : List Path} {markups : List String} {ms : List Emission} (hlen : markups.length = paths.length)
    (hicons : ms.map (·.icon) = paths.map (iconOf st.naming)) (answer : Except Fault Reply) :
    (gathering st paths markups ++ ms.map (·.exchange st) ++ [indexExchange st (ms.map (·.icon.name)) answer]).map (·.call) =
      plan st paths (ms.map (·.content)) := by
  have hwrites : List.zipWith (fun name content => Call.write (componentTarget st name) content) (ms.map (·.icon.name))
      (ms.map (·.content)) = (ms.map (·.exchange st)).map (·.call) := by
    rw [List.zipWith_map, List.zipWith_self, List.map_map]
    rfl
  rw [plan, names_eq_of_icons hicons, hwrites, List.map_append, List.map_append, calls_gathering hlen]
  rfl

/-- What is emitted for some icons and their optimized markup. -/
theorem emissions_aligned {icons : List Icon} {texts : List String} {ms : List Emission} (hlen : texts.length = icons.length)
    (h : ms.map (fun m => (m.icon, m.optimized)) = icons.zip texts) : ms.map (·.icon) = icons ∧ ms.map (·.optimized) = texts := by
  have hicons := congrArg (List.map Prod.fst) h
  have htexts := congrArg (List.map Prod.snd) h
  rw [List.map_map, List.map_fst_zip (Nat.le_of_eq hlen.symm)] at hicons
  rw [List.map_map, List.map_snd_zip (Nat.le_of_eq hlen)] at htexts
  exact ⟨hicons, htexts⟩

/-- Every markup text has an outcome. -/
theorem length_of_outcomes {markups texts : List String} (h : outcomes c markups = texts.map .ok) :
    texts.length = markups.length := by
  simpa [outcomes] using (congrArg List.length h).symm

end

/-- The files that a build has found which gives a result, and what it has published of them. -/
theorem exists_published {σ : Type} {sch : Schedule.Scheduler} {c : Collaborators σ} {st : Settings} {world : σ} {result : Result}
    {session : Session σ} (h : runBuildBy sch.final c st world = (.ok result, session)) :
    ∃ paths markups ms, WellNamed st.naming paths ∧ paths = ms.map (·.icon.path) ∧ Published c st session result markups ms := by
  obtain ⟨⟨icons, markups⟩, s₁, hgather, h⟩ := exec_bind_eq_ok h
  obtain ⟨texts, s₂, hoptimize, hpublish⟩ := exec_bind_eq_ok h
  obtain ⟨paths, rfl, hw, hlen, hadds₁⟩ := gather_eq_ok hgather
  obtain ⟨hex, hfm, hsub, hhist⟩ := optimizeIcons_keeps hoptimize
  obtain ⟨houtcomes, hcalls, -⟩ := optimizeIcons_eq_ok (by simpa using hlen) hoptimize
  obtain ⟨ms, hms, hrenders, hresult, hadds₂⟩ := publish_eq_ok hpublish
  have htexts : texts.length = paths.length := (length_of_outcomes houtcomes).trans hlen
  obtain ⟨hicons, hoptimized⟩ := emissions_aligned (by simpa using htexts) hms
  have hpaths := paths_eq_of_icons hicons
  have hnames := names_eq_of_icons hicons
  have hexchanges : session.exchanges = gathering st paths markups ++ ms.map (·.exchange st) ++
      [indexExchange st (ms.map (·.icon.name)) (.ok .done)] := by
    rw [hadds₂.exchanges, hex, hadds₁.exchanges, map_name_iconOf, hnames]
    simp
  refine ⟨paths, markups, ms, hw, hpaths, ?_⟩
  constructor
  case length => rw [hlen, hpaths, List.length_map]
  case icons => exact fun m hm => (icon_of_mem hicons hm).1
  case optimized => rw [houtcomes, ← hoptimized, List.map_map]; rfl
  case rendered => exact hrenders
  case exchanges => rw [hexchanges, ← hpaths]
  case calls => rw [Session.calls, hexchanges, calls_eq_plan hlen hicons, ← hpaths]
  case optimizerCalls => rw [hadds₂.optimizerCalls, hcalls]
  case formattings =>
    rw [hadds₂.formattings, hfm, hadds₁.formattings]
    rfl
  case distinct =>
    have hnodup : ((ms.map (·.icon.name)).map (componentTarget st) ++ [indexTarget st]).Nodup :=
      targets_nodup (hnames ▸ hw.distinct)
    rwa [List.map_map] at hnodup
  case result => exact hresult
  case targets => exact fun m _ => rfl
  case indexFile => rfl
  case index =>
    rw [Session.calls, hexchanges, List.map_append, List.map_singleton, List.getLast?_concat, indexExchange, indexSource_eq, List.map_map]
    simp only [List.map_eq_nil_iff]
    rfl
  case resolves =>
    intro m hm
    obtain ⟨hi, hp⟩ := icon_of_mem hicons hm
    refine join_moduleSpecifier st ?_
    rw [hi]
    exact hw.usable _ hp

/-- Collaborators that never refuse: a disk that holds some files, and a formatter that ends every source with a remark. -/
def obliging (files : List (Path × String)) (optimize : Nat → String → Attempt) : Collaborators Unit :=
  { removeTree := fun _ w => (.ok (), w)
    makeDirs := fun _ w => (.ok (), w)
    copyStatic := fun _ _ w => (.ok (), w)
    listFiles := fun _ _ w => (.ok (files.map (·.1)), w)
    readText := fun path w => (.ok (((files.find? (·.1 == path)).map (·.2)).getD ""), w)
    writeText := fun _ _ w => (.ok (), w)
    optimize
    startOptimizing := fun _ w => w
    closeOptimizer := id
    format := fun source w => (.ok (source ++ "// formatted"), w)
    log := fun _ w => w }

/-- Settings of a build with two slots. -/
def twoSlots : Settings :=
  { inputDir := ⟨.here, ["icons"]⟩, outputDir := ⟨.here, ["out"]⟩, typescript := false, pattern := defaultPattern
    naming := .pascal, concurrency := 2, concurrency_pos := by decide, staticDir? := none, optimizer := {}, formatter := {} }

end IconForge.Build
