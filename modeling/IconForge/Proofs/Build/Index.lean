import IconForge.Proofs.Build.Preserve
import IconForge.Proofs.Build.Success
import IconForge.Proofs.Component.Name
import IconForge.Proofs.Component.RoundTrip

/-!
# Reading the index

The index is read line by line: every line has to export a component under one plain name, from the module of that name. The index
of usable names is read back to these names exactly if no name has a line feed behind it (`readIndex?_indexSource_iff`), since
such a name goes on in the next line.
-/

namespace IconForge.Component

open Text Reading

/-- What stands in an exporting line in front of the name. -/
def exportFront : List Char := "export ".toList ++ '{' :: "default as ".toList

/-- What stands between the name and the module of that name. -/
def exportMiddle : List Char := '}' :: " from './components/".toList

/-- The line that exports a component, without the line feed that ends it. -/
def exportChars (name : List Char) : List Char := exportFront ++ (name ++ (exportMiddle ++ (name ++ ['\'', ';'])))

/-- The name that a line exports. -/
def exportedName? (line : List Char) : Option (List Char) := do
  let s ← behind? exportFront line
  let name := s.takeWhile isIdentifierChar
  if name.head?.any isIdentifierStart && line = exportChars name then some name else none

/-- The names that an index exports, if each of its lines exports one. An index without names is one empty line. -/
def readIndex? (s : List Char) : Option (List (List Char)) :=
  if s = ['\n'] then some []
  else match (cut '\n' s).reverse with
    | [] :: lines => lines.reverse.mapM exportedName?
    | _ => none

/-! ## Lines -/

/-- Lines that hold no mark and end with it each are cut into these lines, and nothing behind the last. -/
theorem cut_flatMap_lines {mark : Char} {lines : List (List Char)} (h : ∀ line ∈ lines, mark ∉ line) :
    cut mark (lines.flatMap fun line => line ++ [mark]) = lines ++ [[]] := by
  induction lines with
  | nil => rfl
  | cons line lines ih =>
    have hline := h line List.mem_cons_self
    have hlines := ih fun other hother => h other (List.mem_cons_of_mem _ hother)
    rw [List.flatMap_cons, List.append_assoc, List.singleton_append, cut_append_cons hline, hlines, List.cons_append]

/-- A line of the index, in characters, with its line feed. -/
theorem toList_exportLine (name : String) : (exportLine name).toList = exportChars name.toList ++ ['\n'] := by
  have hend : "';\n".toList = ['\'', ';'] ++ ['\n'] := by decide
  have hmiddle : '}' :: (" from '".toList ++ "./components/".toList) = exportMiddle := by decide
  unfold exportLine moduleSpecifier exportChars exportFront
  simp only [String.toList_append, toList_braced, hend, ← hmiddle, List.append_assoc, List.cons_append, List.nil_append]

/-- What stands between the two names of an export begins with the brace that closes the first one. -/
theorem exportMiddle_eq : exportMiddle = '}' :: " from './components/".toList := by decide

/-- The export of a plain name is read as that name. -/
theorem exportedName?_exportChars {name : List Char} (h : IsPlainName name) : exportedName? (exportChars name) = some name := by
  have htake : (name ++ (exportMiddle ++ (name ++ ['\'', ';']))).takeWhile isIdentifierChar = name := by
    rw [exportMiddle_eq, List.cons_append]
    exact (takeWhile_append_cons h.isIdentifierChar (by decide) _).1
  have hstart : name.head?.any isIdentifierStart = true := by
    obtain ⟨c, rest, rfl, hc, -⟩ := h
    simpa using hc
  have hbehind : behind? exportFront (exportChars name) = some (name ++ (exportMiddle ++ (name ++ ['\'', ';']))) :=
    behind?_append _ _
  rw [exportedName?, hbehind, Option.bind_eq_bind, Option.bind_some]
  simp only [htake, hstart, Bool.true_and, decide_true, if_true]

/-- What a line exports is a plain name. -/
theorem isPlainName_of_exportedName? {line name : List Char} (h : exportedName? line = some name) : IsPlainName name := by
  unfold exportedName? at h
  obtain ⟨s, -, h⟩ := Option.bind_eq_some_iff.mp h
  simp only [Option.ite_none_right_eq_some, Bool.and_eq_true, decide_eq_true_eq, Option.some.injEq] at h
  obtain ⟨⟨hstart, -⟩, rfl⟩ := h
  have hchars : ∀ c ∈ s.takeWhile isIdentifierChar, isIdentifierChar c = true :=
    fun c hc => List.all_eq_true.mp List.all_takeWhile c hc
  cases htake : s.takeWhile isIdentifierChar with
  | nil => simp [htake] at hstart
  | cons c rest =>
    rw [htake] at hstart hchars
    exact ⟨c, rest, rfl, by simpa using hstart, fun d hd => hchars d (List.mem_cons_of_mem _ hd)⟩

/-- Lines that each export a name are read to these names. -/
theorem mapM_exportChars {names : List (List Char)} (h : ∀ name ∈ names, IsPlainName name) :
    (names.map exportChars).mapM exportedName? = some names := by
  induction names with
  | nil => rfl
  | cons name names ih =>
    have hname := exportedName?_exportChars (h name List.mem_cons_self)
    have hnames := ih fun other hother => h other (List.mem_cons_of_mem _ hother)
    rw [List.map_cons, List.mapM_cons, hname, hnames]
    rfl

/-- A reader of exports hands out plain names only. -/
theorem isPlainName_of_mapM {lines names : List (List Char)} (h : lines.mapM exportedName? = some names) :
    ∀ name ∈ names, IsPlainName name := by
  induction lines generalizing names with
  | nil =>
    cases h
    exact nofun
  | cons line lines ih =>
    rw [List.mapM_cons] at h
    obtain ⟨name, hname, h⟩ := Option.bind_eq_some_iff.mp h
    obtain ⟨more, hmore, h⟩ := Option.bind_eq_some_iff.mp h
    cases h
    intro other hother
    rcases List.mem_cons.mp hother with rfl | hother
    · exact isPlainName_of_exportedName? hname
    · exact ih hmore other hother

/-! ## The whole index -/

/-- All names that are read from an index are plain. -/
theorem isPlainName_of_readIndex? {s : List Char} {names : List (List Char)} (h : readIndex? s = some names) :
    ∀ name ∈ names, IsPlainName name := by
  unfold readIndex? at h
  split at h
  · cases h
    exact nofun
  · split at h
    · exact isPlainName_of_mapM h
    · cases h

/-- An index in characters: the exports, each with a line feed behind it. -/
theorem toList_join_exportLine (names : List String) :
    (String.join (names.map exportLine)).toList = ((names.map String.toList).map exportChars).flatMap fun line => line ++ ['\n'] := by
  induction names with
  | nil => rfl
  | cons name names ih =>
    rw [List.map_cons, String.join_cons, String.toList_append, toList_exportLine, ih, List.map_cons, List.map_cons, List.flatMap_cons]

/-- A line that exports a plain name does not break. -/
theorem break_not_mem_exportChars {name : List Char} (h : IsPlainName name) : '\n' ∉ exportChars name := by
  have hname : '\n' ∉ name := h.not_mem (by decide)
  have hfront : '\n' ∉ exportFront := by decide
  have hmiddle : '\n' ∉ exportMiddle := by decide
  simp [exportChars, hname, hfront, hmiddle]

/-- The index of plain names is read back to these names. -/
theorem readIndex?_of_plain {names : List String} (h : ∀ name ∈ names, IsPlainName name.toList) :
    readIndex? (indexSource names).toList = some (names.map String.toList) := by
  rw [Build.indexSource_eq]
  by_cases hnames : names = []
  · subst hnames
    rfl
  rw [if_neg hnames, toList_join_exportLine]
  have hplain : ∀ name ∈ names.map String.toList, IsPlainName name := by
    simpa using h
  generalize hs : names.map String.toList = plain at hplain
  have hlines : ∀ line ∈ plain.map exportChars, '\n' ∉ line := by
    intro line hline
    obtain ⟨name, hname, rfl⟩ := List.mem_map.mp hline
    exact break_not_mem_exportChars (hplain name hname)
  have hne : ((plain.map exportChars).flatMap fun line => line ++ ['\n']) ≠ ['\n'] := by
    cases plain with
    | nil => exact absurd (List.map_eq_nil_iff.mp hs) hnames
    | cons name rest =>
      have hfront : exportFront = 'e' :: ("xport ".toList ++ '{' :: "default as ".toList) := by decide
      simp [exportChars, hfront]
  rw [readIndex?, if_neg hne, cut_flatMap_lines hlines, List.reverse_append]
  simp only [List.reverse_singleton, List.singleton_append, List.reverse_reverse]
  exact mapM_exportChars hplain

/-- The index of usable names is read back to these names exactly if none of them has a line feed behind it. -/
theorem readIndex?_indexSource_iff {names : List String} (h : ∀ name ∈ names, isUsable name = true) :
    readIndex? (indexSource names).toList = some (names.map String.toList) ↔ ∀ name ∈ names, '\n' ∉ name.toList := by
  constructor
  · intro hread name hname
    exact (isPlainName_of_readIndex? hread name.toList (List.mem_map_of_mem hname)).not_mem (by decide)
  · intro hbreak
    refine readIndex?_of_plain fun name hname => ?_
    obtain ⟨⟨bare, hbare, hform | hform⟩, -⟩ := (isUsable_iff name).mp (h name hname)
    · exact hform ▸ hbare
    · exact absurd (hform ▸ List.mem_append_right bare (List.mem_singleton_self _)) (hbreak name hname)

end IconForge.Component

namespace IconForge

/-- A failure of the stage that finds the icons. -/
def BuildError.isDiscovery : BuildError → Bool
  | enumerate .. | unusableName .. | duplicateName .. => true
  | _ => false

namespace Build

open Component

/-- Exchanges among which nothing is listed. -/
def Unlisted (es : List Exchange) : Prop := ∀ x ∈ es, ∀ root pattern, x.call ≠ .list root pattern

/-- One more call that is no listing leaves a record unlisted. -/
theorem Unlisted.concat {es : List Exchange} (h : Unlisted es) {x : Exchange} (hx : ∀ root pattern, x.call ≠ .list root pattern) :
    Unlisted (es ++ [x]) := by
  intro y hy
  rcases List.mem_append.mp hy with hy | hy
  · exact h y hy
  · rw [List.mem_singleton.mp hy]
    exact hx

section
variable {σ : Type} {c : Collaborators σ} {st : Settings}

/-- Sessions that go on from some exchanges without listing anything. -/
def GoesOn (base : List Exchange) (s : Session σ) : Prop := ∃ more, s.exchanges = base ++ more ∧ Unlisted more

theorem goesOn_refl (s : Session σ) : GoesOn s.exchanges s := ⟨[], by simp, by simp [Unlisted]⟩

/-- Calls that are no listings add to a record nothing that the listing could be confused with. -/
theorem preserves_goesOn_call {α : Type} {base : List Exchange} {request : Call} (hrequest : ∀ root pattern, request ≠ .list root pattern)
    {reply : α → Reply} {operation : σ → Except Fault α × σ} {expected : FaultKind → Bool} {error : String → BuildError} :
    Preserves (GoesOn base) (call request reply operation expected error) := by
  refine Preserves.call fun s ⟨more, hs, hmore⟩ answer => ⟨more ++ [⟨request, answer⟩], ?_, hmore.concat hrequest⟩
  rw [hs, List.append_assoc]

theorem preserves_goesOn_note {base : List Exchange} (level : Int) (message : String) :
    Preserves (GoesOn base) (note c level message) := fun _ h => h

/-- Optimizing and publishing list nothing. -/
theorem preserves_goesOn_rest {base : List Exchange} (run : Nat → List Schedule.Job → Schedule.State) (icons : List Icon)
    (markups : List String) :
    Preserves (GoesOn base) (optimizeIcons run c st icons markups >>= publish c st icons) := by
  refine Preserves.bind ?_ fun optimized => ?_
  · intro s hs
    rw [exec_optimizeIcons]
    exact hs
  · refine Preserves.publish preserves_goesOn_note ?_ (fun _ _ _ => preserves_goesOn_call (by simp))
      (fun _ => preserves_goesOn_call (by simp)) _
    intro icon source s hs
    rw [exec_formatSource]
    exact hs

/-- Nothing is listed before the output is prepared. -/
theorem unlisted_of_prepare_error {s t : Session σ} {e : Failure} (h : exec (prepare c st) s = (.error e, t))
    (hs : s.exchanges = []) : Unlisted t.exchanges := by
  have hprepare : Preserves (GoesOn []) (prepare c st) :=
    (preserves_goesOn_call (by simp)).bind fun _ => (preserves_goesOn_call (by simp)).bind fun _ => preserves_goesOn_call (by simp)
  obtain ⟨more, ht, hmore⟩ := hprepare s (hs ▸ goesOn_refl s)
  rw [h] at ht
  rw [show t.exchanges = more from ht]
  exact hmore

/-- What gathering comes to, by its listing: it fails and no files are listed, the files are listed and one offends, or they are
well named. -/
inductive Lists (st : Settings) : Except Failure (List Icon × List String) → Session σ → Prop where
  | nothing {t : Session σ} (e : Failure) : (∀ paths, ⟨.list st.inputDir st.pattern, .ok (.files paths)⟩ ∉ t.exchanges) →
      Lists st (.error e) t
  | offending {t : Session σ} {before : List Path} {path : Path} (after : List Path) {e : BuildError} :
      Offends st.naming before path e → t.exchanges = finding st (before ++ path :: after) → Lists st (.error (.build e)) t
  | icons {t : Session σ} {paths : List Path} (r : Except Failure (List Icon × List String)) :
      WellNamed st.naming paths → GoesOn (finding st paths) t → Lists st r t

/-- An unlisted record does not hold the listing of the inputs. -/
theorem not_mem_of_unlisted {es : List Exchange} (h : Unlisted es) (answer : Except Fault Reply) :
    ⟨.list st.inputDir st.pattern, answer⟩ ∉ es := fun hmem => h _ hmem _ _ rfl

/-- Preparing the output directory lists nothing. -/
theorem unlisted_opening (st : Settings) : Unlisted (opening st) := by
  simp [Unlisted, opening]

/-- Discovering lists the files, and stops at a refusal or at the first file that offends. -/
theorem discover_lists {s t : Session σ} {r : Except Failure (List Icon)} (h : exec (discover c st) s = (r, t)) :
    (∃ f e, r = .error e ∧ t.exchanges = s.exchanges ++ [⟨.list st.inputDir st.pattern, .error f⟩]) ∨
    (∃ before path after e, r = .error (.build e) ∧ Offends st.naming before path e ∧
      t.exchanges = s.exchanges ++ [⟨.list st.inputDir st.pattern, .ok (.files (before ++ path :: after))⟩]) ∨
    ∃ paths, r = .ok (paths.map (iconOf st.naming)) ∧ WellNamed st.naming paths ∧
      t.exchanges = s.exchanges ++ [⟨.list st.inputDir st.pattern, .ok (.files paths)⟩] := by
  unfold discover at h
  cases hl : exec (call (.list st.inputDir st.pattern) .files (c.listFiles st.inputDir st.pattern) FaultKind.isStorage
      (.enumerate st.inputDir)) s with
  | mk rl u =>
    cases rl with
    | error e =>
      rw [exec_bind_of_error hl] at h
      cases h
      obtain ⟨f, hadds, -, -⟩ := exec_call_eq_error hl
      exact .inl ⟨f, e, rfl, hadds.exchanges⟩
    | ok paths =>
      rw [exec_bind_of_ok hl] at h
      have hadds := (exec_call_eq_ok hl).1.exchanges
      cases hn : checkNames st.naming [] paths with
      | ok icons =>
        simp only [hn] at h
        cases h
        obtain ⟨hw, rfl⟩ := checkNames_eq_ok hn
        exact .inr (.inr ⟨paths, rfl, hw, hadds⟩)
      | error e =>
        simp only [hn] at h
        cases h
        obtain ⟨before, path, after, rfl, -, ho⟩ := checkNames_eq_error hn
        exact .inr (.inl ⟨before, path, after, e, rfl, ho, hadds⟩)

/-- From a fresh session gathering comes to one of the three ends. -/
theorem gather_lists {s t : Session σ} {r : Except Failure (List Icon × List String)} (h : exec (gather c st) s = (r, t))
    (hs : s.exchanges = []) : Lists st r t := by
  unfold gather at h
  rw [exec_bind_of_ok (exec_note ..)] at h
  generalize hs₁ : ({ s with world := _ } : Session σ) = s₁ at h
  have hempty : s₁.exchanges = [] := by rw [← hs₁]; exact hs
  cases hp : exec (prepare c st) s₁ with
  | mk rp s₂ =>
    cases rp with
    | error e =>
      rw [exec_bind_of_error hp] at h
      cases h
      exact .nothing e fun paths => not_mem_of_unlisted (unlisted_of_prepare_error hp hempty) _
    | ok u =>
      rw [exec_bind_of_ok hp] at h
      have hopen : s₂.exchanges = opening st := by rw [(prepare_eq_ok hp).exchanges, hempty, List.nil_append]
      cases hd : exec (discover c st) s₂ with
      | mk rd s₃ =>
        rcases discover_lists hd with ⟨f, e, rfl, ht⟩ | ⟨before, path, after, e, rfl, ho, ht⟩ | ⟨paths, rfl, hw, ht⟩
        · rw [exec_bind_of_error hd] at h
          cases h
          refine .nothing e fun paths hmem => ?_
          rw [ht, hopen, List.mem_append] at hmem
          rcases hmem with hmem | hmem
          · exact not_mem_of_unlisted (unlisted_opening st) _ hmem
          · simp at hmem
        · rw [exec_bind_of_error hd] at h
          cases h
          exact .offending after ho (by rw [ht, hopen]; rfl)
        · rw [exec_bind_of_ok hd] at h
          have hfound : s₃.exchanges = finding st paths := by rw [ht, hopen]; rfl
          have hrest : Preserves (GoesOn (finding st paths)) (readIcons c (paths.map (iconOf st.naming)) >>= fun markups =>
              note c Log.debug ("Discovered " ++ toString (paths.map (iconOf st.naming)).length ++ " icons") >>= fun _ =>
                pure (paths.map (iconOf st.naming), markups)) :=
            (Preserves.readIcons (fun _ => preserves_goesOn_call (by simp)) _).bind fun _ =>
              (preserves_goesOn_note _ _).bind fun _ => Preserves.pure _
          have hgoes := hrest s₃ (hfound ▸ goesOn_refl s₃)
          rw [h] at hgoes
          exact .icons r hw hgoes

/-- Files that were listed are well named, or the build stopped there: the first one that offends ended it, and nothing was
called behind the listing. -/
theorem named_of_list {run : Nat → List Schedule.Job → Schedule.State} {world : σ} {outcome : Except Failure Result}
    {session : Session σ} (h : runBuildBy run c st world = (outcome, session)) {paths : List Path}
    (hmem : ⟨.list st.inputDir st.pattern, .ok (.files paths)⟩ ∈ session.exchanges) :
    WellNamed st.naming paths ∨ ∃ before path e, outcome = .error (.build e) ∧ Offends st.naming before path e ∧
      session.calls = findingCalls st := by
  have hunique : ∀ {found : List Path} {more : List Exchange}, Unlisted more →
      ⟨.list st.inputDir st.pattern, .ok (.files paths)⟩ ∈ finding st found ++ more → paths = found := by
    intro found more hmore hmem
    rcases List.mem_append.mp hmem with hmem | hmem
    · rcases List.mem_append.mp hmem with hmem | hmem
      · exact absurd hmem (not_mem_of_unlisted (unlisted_opening st) _)
      · simpa using hmem
    · exact absurd hmem (not_mem_of_unlisted hmore _)
  unfold runBuildBy build at h
  change exec _ _ = _ at h
  cases hg : exec (gather c st) { world } with
  | mk r s =>
    cases gather_lists hg rfl with
    | nothing e hnone =>
      rw [exec_bind_of_error hg] at h
      cases h
      exact absurd hmem (hnone paths)
    | @offending _ before path after e ho hs =>
      rw [exec_bind_of_error hg] at h
      cases h
      exact .inr ⟨before, path, e, rfl, ho, by rw [Session.calls, hs, calls_finding]⟩
    | @icons _ found _ hw hgoes =>
      have hend : GoesOn (finding st found) session := by
        cases r with
        | error e =>
          rw [exec_bind_of_error hg] at h
          cases h
          exact hgoes
        | ok gathered =>
          rw [exec_bind_of_ok hg] at h
          have hrest : GoesOn (finding st found) (exec (optimizeIcons run c st gathered.1 gathered.2 >>= publish c st gathered.1) s).2 :=
            preserves_goesOn_rest run gathered.1 gathered.2 s hgoes
          rw [h] at hrest
          exact hrest
      obtain ⟨more, hs, hmore⟩ := hend
      rw [hs] at hmem
      exact .inl (hunique hmore hmem ▸ hw)

end

/-- A path that offends makes the discovery fail, and no later stage. -/
theorem Offends.isDiscovery {naming : Naming} {before : List Path} {path : Path} {e : BuildError} (h : Offends naming before path e) :
    e.isDiscovery = true := by
  cases h <;> rfl

/-- What a build that succeeds says of the names of its icons. -/
structure Indexed {σ : Type} (st : Settings) (session : Session σ) (result : Result) (names : List String) : Prop where
  components : result.components = names.map (componentTarget st)
  forms : ∀ name ∈ names, HasNameForm name.toList ∧ name ∉ reservedWords
  distinct : names.Nodup
  written : Call.write (indexTarget st) (indexSource names) ∈ session.calls
  /-- The index gives back the names, unless one of them is broken by a line feed. -/
  reads : readIndex? (indexSource names).toList = some (names.map String.toList) ↔ ∀ name ∈ names, '\n' ∉ name.toList

/-- A build that succeeds has found files with usable names of their own, and its index gives back the names exactly if none has
a line feed behind it. A build that finds a file of any other name fails there, and nothing is read. -/
theorem index_reads_back {σ : Type} (sch : Schedule.Scheduler) (c : Collaborators σ) (st : Settings) (world : σ) :
    let run := runBuildBy sch.final c st world
    (∀ result, run.1 = .ok result → ∃ paths, ⟨.list st.inputDir st.pattern, .ok (.files paths)⟩ ∈ run.2.exchanges ∧
      Indexed st run.2 result (paths.map (identifier st.naming))) ∧
    ∀ paths, ⟨.list st.inputDir st.pattern, .ok (.files paths)⟩ ∈ run.2.exchanges → ∀ path ∈ paths,
      ¬(HasNameForm (identifier st.naming path).toList ∧ identifier st.naming path ∉ reservedWords) →
      ∃ e, run.1 = .error (.build e) ∧ e.isDiscovery = true ∧ run.2.calls = findingCalls st := by
  intro run
  constructor
  · intro result hresult
    have hrun : runBuildBy sch.final c st world = (.ok result, run.2) := Prod.ext hresult rfl
    obtain ⟨paths, markups, ms, hw, hpaths, hpublished⟩ := exists_published hrun
    have hnames : paths.map (identifier st.naming) = ms.map (·.icon.name) := by
      rw [hpaths, List.map_map]
      exact List.map_congr_left fun m hm => (congrArg Icon.name (hpublished.icons m hm)).symm
    have husable : ∀ name ∈ paths.map (identifier st.naming), isUsable name = true := by
      intro name hname
      obtain ⟨path, hpath, rfl⟩ := List.mem_map.mp hname
      exact hw.usable path hpath
    refine ⟨paths, ?_, ?_⟩
    · rw [hpublished.exchanges, ← hpaths]
      simp [gathering, finding]
    constructor
    case components =>
      rw [hpublished.result, hnames, List.map_map]
      rfl
    case forms => exact fun name hname => (isUsable_iff name).mp (husable name hname)
    case distinct => exact hw.distinct
    case written =>
      rw [hnames, hpublished.calls, plan]
      refine List.mem_append_right _ (List.mem_singleton.mpr ?_)
      rw [← hnames, hpaths]
    case reads => exact readIndex?_indexSource_iff husable
  · intro paths hmem path hpath hform
    have hrun : runBuildBy sch.final c st world = (run.1, run.2) := rfl
    rcases named_of_list hrun hmem with hw | ⟨_, _, e, hrun, ho, hcalls⟩
    · exact absurd ((isUsable_iff _).mp (hw.usable path hpath)) hform
    · exact ⟨e, hrun, ho.isDiscovery, hcalls⟩

/-- The index of the icons `b.svg` and `a.svg` in the joined style. -/
theorem index_reads_back_two :
    let c := obliging [(⟨.here, ["icons", "b.svg"]⟩, "<svg/>"), (⟨.here, ["icons", "a.svg"]⟩, "<svg/>")] fun _ markup => ⟨0, .ok markup⟩
    let run := runBuildBy Schedule.Scheduler.counting.final c twoSlots ()
    ∃ result, run.1 = .ok result ∧ Indexed twoSlots run.2 result ["B", "A"] := by
  intro c run
  have hcomponents : run.1.toOption.map (·.components) = some (["B", "A"].map (componentTarget twoSlots)) := by decide +kernel
  cases hr : run.1 with
  | error e =>
    rw [hr] at hcomponents
    cases hcomponents
  | ok result =>
    rw [hr] at hcomponents
    obtain ⟨paths, -, hindexed⟩ := (index_reads_back Schedule.Scheduler.counting c twoSlots ()).1 result hr
    have hnames : paths.map (identifier twoSlots.naming) = ["B", "A"] :=
      List.map_injective_iff.mpr (fun _ _ => componentTarget_inj) (hindexed.components.symm.trans (Option.some.inj hcomponents))
    exact ⟨result, rfl, hnames ▸ hindexed⟩

/-- A line feed at the end of a stem passes the check of the names, and breaks the line of the index. -/
theorem index_broken_false :
    ¬∀ (σ : Type) (sch : Schedule.Scheduler) (c : Collaborators σ) (st : Settings) (world : σ) (result : Result) (session : Session σ),
      runBuildBy sch.final c st world = (.ok result, session) →
      ∀ content, Call.write (indexTarget st) content ∈ session.calls → ∃ names, readIndex? content.toList = some names := by
  intro h
  let c := obliging [(⟨.here, ["icons", "home\n.svg"]⟩, "<svg/>")] fun _ markup => ⟨0, .ok markup⟩
  let st : Settings := { twoSlots with naming := .preserve }
  have hok : (runBuildBy Schedule.Scheduler.counting.final c st ()).1.toOption.isSome = true := by decide +kernel
  have hmem : Call.write (indexTarget st) (exportLine "home\n") ∈
      (runBuildBy Schedule.Scheduler.counting.final c st ()).2.calls := by decide +kernel
  cases hr : runBuildBy Schedule.Scheduler.counting.final c st () with
  | mk outcome session =>
    rw [hr] at hok hmem
    cases outcome with
    | error e => cases hok
    | ok result =>
      obtain ⟨names, hnames⟩ := h Unit _ c st () result session hr _ hmem
      have hread : readIndex? (exportLine "home\n").toList = none := by decide +kernel
      rw [hread] at hnames
      cases hnames

end Build

end IconForge
