import IconForge.Proofs.Build.Output
import IconForge.Proofs.Build.Success
import IconForge.Proofs.Disk.Overlay
import Mathlib.Data.List.Nodup

/-!
# The output tree

Below its output, a build that gives a result leaves the static files, the components and the index, and no other file; elsewhere it
leaves all as it was, but for the directories that lead to the output (`output_tree`). A static file that has the name of the directory
of the components goes into that directory, and what a path with ways back up is taken for depends on what is there when it is
walked: both keep the tree from being what one would expect (`output_tree_false`).
-/

namespace IconForge.Build

open Component Disk

/-- A static file of a build, seen from its directory: a file below the path that is given, or one of those that come with the program.
The path has to lead to a directory at the end: the output has been made anew before the path is followed. -/
inductive StaticFile (initial final : Disk) : Option Path → Location → List UInt8 → Prop where
  | named {p : Path} {rel : Location} {content : List UInt8} (hdirectory : final.isDirectory p = .ok true)
      (hfile : initial.get? (initial.place p ++ rel) = some (.file content)) : StaticFile initial final (some p) rel content
  | bundled {name text : String} (h : (name, text) ∈ staticFiles) : StaticFile initial final none [name] (Text.Utf8.encode text)

/-- Where a static file goes in the output: to its place, but the directory of the components takes a file of its own name. -/
def staticPlace (rel : Location) : Location := if rel = ["components"] then ["components", "components"] else rel

/-- The files that a build writes, seen from the output. -/
def writtenFiles (st : Settings) (ms : List Emission) : List (Location × List UInt8) :=
  ms.map (fun m => (["components", componentFilename m.icon.name st.typescript], Text.Utf8.encode m.content)) ++
    [([indexFilename st.typescript], Text.Utf8.encode (indexSource (ms.map (·.icon.name))))]

/-- What a build leaves of a disk whose static files go to some places: below the output these and the files that it writes over
them, and outside what was there. -/
structure OutputTree (goesTo : Location → Location) (st : Settings) (ms : List Emission) (initial final : Disk) : Prop where
  files : ∀ rel content, final.get? (initial.place st.outputDir ++ rel) = some (.file content) ↔
    (rel, content) ∈ writtenFiles st ms ∨
    rel ∉ (writtenFiles st ms).map (·.1) ∧ ∃ origin, StaticFile initial final st.staticDir? origin content ∧ rel = goesTo origin
  /-- Nothing else has changed, but for directories above the output that were not there. -/
  outside : ∀ l, isStray l = false → ¬initial.place st.outputDir <+: l → final.get? l = initial.get? l ∨
    initial.get? l = none ∧ l <+: initial.place st.outputDir ∧ final.get? l = some .directory

variable {d d' d₁ d₂ d₃ : Disk} {st : Settings} {base rel : Location} {content : List UInt8} {p : Path}

/-! ## The output made anew -/

/-- A tree without files, the only directory of which is that of the components. -/
def IsFresh (tree : Location → Option Entry) : Prop :=
  ∀ rel, (∀ part ∈ rel, IsName part) → tree rel = if rel = [] ∨ rel = ["components"] then some .directory else none

/-- A later disk on which a location has been made anew, and all is as it was elsewhere, but for directories that lead there. -/
structure Renewed (base : Location) (d d' : Disk) : Prop where
  start : SameStart d d'
  workingDirectory : d.hasDirectory d.workingDirectory = true → ¬base <+: d.workingDirectory → d'.workingDirectory = d.workingDirectory
  isTree : d'.IsTree
  inside : IsFresh (d'.view base)
  outside : ∀ l, isStray l = false → ¬base <+: l →
    d'.get? l = d.get? l ∨ d.get? l = none ∧ l <+: base ∧ d'.get? l = some .directory

/-- The parts of a written path lead to no stray. -/
theorem isStray_descend (hw : p.IsWritten) : isStray (descend [] p.parts) = false :=
  isStray_of_forall_ne (ne_empty_of_mem_descend (by simp) fun part hpart => Path.ne_empty_of_isPart (hw part hpart).1)

/-- The components are kept in one directory below the output. -/
theorem place_componentsDir (d : Disk) (st : Settings) : d.place st.componentsDir = d.place st.outputDir ++ ["components"] :=
  place_child d st.outputDir (by decide)

/-- A start of the path of the components leads to the components, or it is a start of the path of the output. -/
theorem along_componentsDir (habs : st.outputDir.isAbsolute = true) {l : Location} (h : Along d st.componentsDir l) :
    l = d.place st.outputDir ++ ["components"] ∨ ∃ front, front <+: st.outputDir.parts ∧ l = descend [] front := by
  obtain ⟨front, hfront, rfl⟩ := h
  have hparts : st.componentsDir.parts = st.outputDir.parts ++ ["components"] := rfl
  have hstart : d.start st.componentsDir = [] := start_of_isAbsolute habs
  rw [hparts] at hfront
  rcases List.prefix_concat_iff.mp hfront with rfl | hfront
  · exact .inl (place_componentsDir d st)
  · exact .inr ⟨front, hfront, by rw [hstart]⟩

section
variable (hw : st.outputDir.IsWritten) (habs : st.outputDir.isAbsolute = true) (hgone : Removed st.outputDir d d₁)
include habs hgone

/-- Where a directory is made behind removing the output, that is the directory of the components, or it leads to the output. -/
theorem place_of_made {l : Location} (hnone : d₁.get? l = none) (halong : Along d₁ st.componentsDir l) :
    l = d.place st.outputDir ++ ["components"] ∨ l <+: d.place st.outputDir := by
  rcases along_componentsDir habs halong with hl | ⟨front, hfront, rfl⟩
  · rw [place_of_isAbsolute habs] at hl ⊢
    exact .inl hl
  · exact .inr (hgone.fronts front hfront (by simp [IsThere, hnone]))

include hw

/-- Making the directory of the components behind removing the output leaves nothing else in it. -/
theorem isFresh_of_makeDirs (hmake : d₁.makeDirs st.componentsDir = (.ok (), d₂)) : IsFresh (d₂.view (d.place st.outputDir)) := by
  intro rel hrel
  rw [view]
  have hdirectory := makeDirs_eq_ok hmake
  have hplace : d.place st.outputDir = d₂.place st.outputDir := by rw [place_of_isAbsolute habs, place_of_isAbsolute habs]
  split
  · rename_i hcase
    rw [hplace]
    rcases hcase with rfl | rfl
    · rw [List.append_nil]
      exact hasDirectory_iff.mp (leads_outputDir hw (.refl d₂) hdirectory).2
    · obtain ⟨l, hl, hdir⟩ := isDirectory_eq_ok_iff.mp hdirectory
      rw [← place_componentsDir, ← eq_place_of_locate hl]
      exact hasDirectory_iff.mp hdir
  · rename_i hcase
    have hkept : isStray (d.place st.outputDir) = false := by
      rw [place_of_isAbsolute habs]
      exact isStray_descend hw
    have hnone : d₁.get? (d.place st.outputDir ++ rel) = none := by
      rw [hgone.get? _ (isStray_append hkept hrel), if_pos (List.prefix_append _ _)]
    have hopens := makeDirs_opens d₁ st.componentsDir
    rw [hmake] at hopens
    rcases hopens.grows.outside _ id with heq | ⟨-, halong, -⟩
    · rw [heq, hnone]
    · rcases place_of_made habs hgone hnone halong with hl | hpre
      · exact absurd (.inr (List.append_cancel_left hl)) hcase
      · have hlen := hpre.length_le
        rw [List.length_append] at hlen
        exact absurd (.inl (List.eq_nil_of_length_eq_zero (by omega))) hcase

/-- Making the directory of the components behind removing the output makes the output anew. -/
theorem renewed_of_makeDirs (hmake : d₁.makeDirs st.componentsDir = (.ok (), d₂)) : Renewed (d.place st.outputDir) d d₂ := by
  have hopens := makeDirs_opens d₁ st.componentsDir
  rw [hmake] at hopens
  refine ⟨hgone.start.trans (.inl hopens.grows.workingDirectory),
    fun hwd hnot => hopens.grows.workingDirectory.trans (hgone.workingDirectory hwd hnot),
    hopens.isTree (isWritten_componentsDir hw) hgone.isTree, isFresh_of_makeDirs hw habs hgone hmake, fun l hl hnot => ?_⟩
  have hsame : d₁.get? l = d.get? l := by rw [hgone.get? l hl, if_neg hnot]
  rcases hopens.grows.outside l id with heq | ⟨hnone, halong, hdir⟩
  · exact .inl (heq.trans hsame)
  · rcases place_of_made habs hgone hnone halong with rfl | hpre
    · exact absurd (List.prefix_append _ _) hnot
    · exact .inr ⟨hsame ▸ hnone, hpre, hdir⟩

end

/-- There are no files in a fresh tree. -/
theorem IsFresh.not_file {tree : Location → Option Entry} (h : IsFresh tree) (hrel : ∀ part ∈ rel, IsName part) :
    tree rel ≠ some (.file content) := by
  rw [h rel hrel]
  split <;> simp

namespace Renewed

variable (h : Renewed base d d')
include h

/-- There are no files in an output that has been made anew. -/
theorem not_file : d'.get? (base ++ rel) ≠ some (.file content) := by
  intro hfile
  exact h.inside.not_file (h.isTree.isName_of_file hfile) hfile

/-- Files that do not lie below the location are as before. -/
theorem file_iff (htree : d.IsTree) {l : Location} (hl : ¬base <+: l) :
    d'.get? l = some (.file content) ↔ d.get? l = some (.file content) := by
  constructor
  · intro hfile
    rcases h.outside l (h.isTree.not_isStray_of_file hfile) hl with heq | ⟨-, -, hdir⟩
    · rw [← heq, hfile]
    · rw [hdir] at hfile
      cases hfile
  · intro hfile
    rcases h.outside l (htree.not_isStray_of_file hfile) hl with heq | ⟨hnone, -⟩
    · rw [heq, hfile]
    · rw [hfile] at hnone
      cases hnone

/-- A path to a place apart from the location leads there or nowhere. -/
theorem locate (hwd : d.hasDirectory d.workingDirectory = true) (hapart : Apart (d.place p) base) {l : Location}
    (hl : d'.locate p = .ok l) : l = d.place p := by
  by_cases hparts : p.parts = []
  · have hend := eq_place_of_locate hl
    by_cases habs : p.isAbsolute = true
    · rw [hend, place_of_isAbsolute habs, place_of_isAbsolute habs]
    · -- The path leads to the working directory, which does not lie below the location and so is where it was.
      have hhere : d.place p = d.workingDirectory := by
        rw [place, Disk.start, if_neg habs, hparts]
        rfl
      rw [hend, place_of_workingDirectory (h.workingDirectory hwd (hhere ▸ hapart.2))]
  · exact locate_eq_place h.start hl (.inl hparts)

end Renewed

/-! ## The static files -/

section
variable {source target : Location → Option Entry} (hsource : IsSource source) (htarget : IsFresh target)
include hsource htarget

/-- A file of a tree that lies over a fresh one is at the place of a static file. -/
theorem overlay_staticPlace {origin : Location} (hnames : ∀ part ∈ origin, IsName part) (hfile : source origin = some (.file content)) :
    overlay source target (staticPlace origin) = some (.file content) := by
  by_cases hcomponents : origin = ["components"]
  · subst hcomponents
    have hplace : staticPlace ["components"] = ["components", "components"] := rfl
    have hnone : source ["components", "components"] = none := hsource.eq_none (by rw [hfile]; simp) (by simp) (by simp)
    rw [hplace, overlay_into hnone hfile, if_pos ⟨htarget ["components"] hnames, rfl⟩]
  · have hplace : staticPlace origin = origin := if_neg hcomponents
    have hnone : target origin = none := by
      rw [htarget origin hnames, if_neg]
      rintro (rfl | heq)
      · rw [hsource.root] at hfile
        cases hfile
      · exact hcomponents heq
    rw [hplace, overlay_of_file hfile, hnone, if_neg (by simp)]

/-- Every file is at such a place when a tree lies over a fresh one. -/
theorem exists_origin_of_overlay (hrel : ∀ part ∈ rel, IsName part) (hover : overlay source target rel = some (.file content)) :
    ∃ origin, source origin = some (.file content) ∧ rel = staticPlace origin := by
  cases hs : source rel with
  | some e =>
    cases e with
    | directory =>
      rw [overlay_of_directory hs] at hover
      cases hover
    | file c =>
      rw [overlay_of_file hs] at hover
      split at hover
      · cases hover
      · rename_i hdir
        have hne : rel ≠ ["components"] := by
          rintro rfl
          exact hdir (htarget _ hrel)
        exact ⟨rel, hs.trans hover, (if_neg hne).symm⟩
  | none =>
    by_cases hfile : ∃ c, source rel.dropLast = some (.file c)
    · obtain ⟨c, hfile⟩ := hfile
      rw [overlay_into hs hfile] at hover
      split at hover
      · rename_i hinto
        -- The one directory that takes a file, the root being no file of the tree, is that of the components.
        have hfront : rel.dropLast = ["components"] := by
          have hdir := hinto.1
          rw [htarget _ fun part hpart => hrel part (List.dropLast_subset _ hpart), ite_eq_left_iff] at hdir
          refine (not_imp_comm.mp hdir (by simp)).resolve_left fun hnil => ?_
          rw [hnil, hsource.root] at hfile
          cases hfile
        have hlast := hinto.2
        rw [hfront] at hlast hfile
        obtain ⟨front, hcut⟩ := List.getLast?_eq_some_iff.mp hlast
        rw [hcut, List.dropLast_concat] at hfront
        exact ⟨["components"], hfile.trans hover, by rw [hcut, hfront]; rfl⟩
      · exact absurd hover (htarget.not_file hrel)
    · rw [overlay_of_none hs fun c hc => hfile ⟨c, hc⟩] at hover
      exact absurd hover (htarget.not_file hrel)

end

/-- The name of a static file's place is a name. -/
theorem isName_of_mem_staticPlace {origin : Location} (h : ∀ part ∈ origin, IsName part) : ∀ part ∈ staticPlace origin, IsName part := by
  have hname : IsName "components" := by decide
  unfold staticPlace
  split
  · simpa using hname
  · exact h

/-- Static files that have been laid over an output made anew are the files in it. -/
theorem file_iff_of_overlaid {source : Location → Option Entry} (hnew : Renewed base d d₂)
    (hsource : IsSource source) (hnames : ∀ {origin content}, source origin = some (.file content) → ∀ part ∈ origin, IsName part)
    (hover : Overlaid source base d₂ d₃) :
    d₃.get? (base ++ rel) = some (.file content) ↔ ∃ origin, source origin = some (.file content) ∧ rel = staticPlace origin := by
  constructor
  · intro hfile
    have hrel := hover.fills.isTree.isName_of_file hfile
    rw [hover.get? rel hrel] at hfile
    exact exists_origin_of_overlay hsource hnew.inside hrel hfile
  · rintro ⟨origin, hfile, rfl⟩
    rw [hover.get? _ (isName_of_mem_staticPlace (hnames hfile))]
    exact overlay_staticPlace hsource hnew.inside (hnames hfile) hfile

/-- The static files that come with the program are in a directory of their own. -/
theorem bundle_eq_file_iff_staticFile (d d' : Disk) {origin : Location} :
    bundle staticFiles origin = some (.file content) ↔ StaticFile d d' none origin content := by
  rw [bundle_eq_file_iff nodup_staticFiles]
  constructor
  · rintro ⟨file, hmem, rfl, rfl⟩
    exact .bundled hmem
  · intro hstatic
    cases hstatic with
    | bundled hmem => exact ⟨_, hmem, rfl, rfl⟩

section
variable (hnew : Renewed base d d₂) {target : Path} (hleads : Leads d₂ target.toString base)
include hnew hleads

/-- Copying the files that come with the program into an output made anew leaves these files in it. -/
theorem files_of_copyFiles (h : d₂.copyFiles Workspace.staticSource staticFiles target = (.ok (), d₃)) :
    Fills base d₂ d₃ ∧ ∀ rel content, d₃.get? (base ++ rel) = some (.file content) ↔
      ∃ origin, StaticFile d d₃ none origin content ∧ rel = staticPlace origin := by
  have hover := copyFiles_eq_ok hnew.isTree hleads isName_staticFiles nodup_staticFiles h
  refine ⟨hover.fills, fun rel content => ?_⟩
  rw [file_iff_of_overlaid hnew (isSource_bundle _) (fun hfile => ?_) hover]
  · simp only [bundle_eq_file_iff_staticFile d d₃]
  · obtain ⟨file, hmem, rfl, -⟩ := (bundle_eq_file_iff nodup_staticFiles).mp hfile
    simpa using isName_staticFiles file hmem

/-- Copying a directory that lies apart into an output made anew leaves its files in it, and nothing if it is no directory. -/
theorem files_of_copyStatic (htree : d.IsTree) (hwd : d.hasDirectory d.workingDirectory = true) (hapart : Apart (d.place p) base)
    (h : d₂.copyStatic p target = (.ok (), d₃)) :
    Fills base d₂ d₃ ∧ ∀ rel content, d₃.get? (base ++ rel) = some (.file content) ↔
      ∃ origin, StaticFile d d₃ (some p) origin content ∧ rel = staticPlace origin := by
  have hlocate : ∀ l, d₂.locate p = .ok l → l = d.place p := fun l hl => hnew.locate hwd hapart hl
  rcases copyStatic_eq_ok hnew.isTree hleads (fun l hl => hlocate l hl ▸ hapart) h with ⟨hno, rfl⟩ | ⟨l, hyes, hl, hover⟩
  · refine ⟨.refl hnew.isTree, fun rel content => iff_of_false hnew.not_file ?_⟩
    rintro ⟨origin, hstatic, -⟩
    cases hstatic with
    | named hdirectory => cases hno.symm.trans hdirectory
  · obtain rfl := hlocate l hl
    obtain ⟨l, hfound, hdir⟩ := isDirectory_eq_ok_iff.mp hyes
    obtain rfl := hlocate l hfound
    have hthere := isDirectory_of_directories hover.fills.grows.workingDirectory hover.fills.grows.directories hyes
    have hview : ∀ {origin content}, d₂.view (d.place p) origin = some (.file content) ↔ StaticFile d d₃ (some p) origin content := by
      intro origin content
      rw [view, hnew.file_iff htree (hapart.not_prefix_append origin)]
      refine ⟨.named hthere, fun hstatic => ?_⟩
      cases hstatic with
      | named _ hfile => exact hfile
    refine ⟨hover.fills, fun rel content => ?_⟩
    rw [file_iff_of_overlaid hnew (isSource_view hnew.isTree hdir) hnew.isTree.isName_of_file hover]
    simp only [hview]

/-- Copying the static files into an output made anew leaves these files in it. -/
theorem files_of_copyStaticOf (htree : d.IsTree) (hwd : d.hasDirectory d.workingDirectory = true) {source? : Option Path}
    (hapart : ∀ p, source? = some p → Apart (d.place p) base) (h : copyStaticOf source? target d₂ = (.ok (), d₃)) :
    Fills base d₂ d₃ ∧ ∀ rel content, d₃.get? (base ++ rel) = some (.file content) ↔
      ∃ origin, StaticFile d d₃ source? origin content ∧ rel = staticPlace origin := by
  cases source? with
  | none => exact files_of_copyFiles hnew hleads h
  | some p => exact files_of_copyStatic hnew hleads htree hwd (hapart p rfl) h

end

/-! ## The files that are written -/

/-- A later disk on which some files have been written, and all else is as it was. -/
structure Written (files : List (Location × List UInt8)) (d d' : Disk) : Prop where
  workingDirectory : d'.workingDirectory = d.workingDirectory
  hasDirectory : ∀ l, d'.hasDirectory l = d.hasDirectory l
  file : ∀ x ∈ files, d'.get? x.1 = some (.file x.2)
  others : ∀ l, l ∉ files.map (·.1) → d'.get? l = d.get? l

/-- Writing one more file first, where none of the others goes and no directory is. -/
theorem Written.cons {files : List (Location × List UInt8)} {l : Location} (hl : l ≠ []) (hplace : d.get? l ≠ some .directory)
    (hnew : l ∉ files.map (·.1)) (h : Written files (d.put l (.file content)) d') : Written ((l, content) :: files) d d' where
  workingDirectory := h.workingDirectory
  hasDirectory := by
    intro m
    rw [h.hasDirectory, Disk.hasDirectory, get?_put hl, Disk.hasDirectory]
    split
    · rename_i heq
      rw [heq, decide_eq_false hplace]
      rfl
    · rfl
  file := by
    intro x hx
    rcases List.mem_cons.mp hx with rfl | hx
    · rw [h.others l hnew, get?_put hl, if_pos rfl]
    · exact h.file x hx
  others := by
    intro m hm
    obtain ⟨hne, hm⟩ := not_or.mp (mt List.mem_cons.mpr hm)
    rw [h.others m hm, get?_put hl, if_neg hne]

/-- Writing files makes no directories, so that what leads to one is the same behind it. -/
theorem Written.isDirectory_iff {files : List (Location × List UInt8)} (h : Written files d d') (p : Path) :
    d'.isDirectory p = .ok true ↔ d.isDirectory p = .ok true :=
  ⟨isDirectory_of_directories h.workingDirectory.symm fun l hl => h.hasDirectory l ▸ hl,
    isDirectory_of_directories h.workingDirectory fun l hl => (h.hasDirectory l).symm ▸ hl⟩

/-- Writing the files of a build makes no difference to what its static files are. -/
theorem Written.staticFile_iff {files : List (Location × List UInt8)} (h : Written files d₃ d') {source? : Option Path}
    {origin : Location} :
    StaticFile d d' source? origin content ↔ StaticFile d d₃ source? origin content := by
  constructor <;> rintro (⟨hdir, hfile⟩ | hmem)
  · exact .named ((h.isDirectory_iff _).mp hdir) hfile
  · exact .bundled hmem
  · exact .named ((h.isDirectory_iff _).mpr hdir) hfile
  · exact .bundled hmem

/-- A call that has been answered with success has succeeded. -/
theorem eq_ok_of_replied {x : Except Fault Unit × Disk} (h : .ok .done = (replied done x).1) : x = (.ok (), x.2) := by
  obtain ⟨answer, d⟩ := x
  cases answer with
  | error f => cases h
  | ok u => rfl

/-- Exchanges that write some files, each to a place of its own, leave these files. -/
theorem replays_writes {ws : List (Path × String)} (hends : ∀ w ∈ ws, ∃ q name, w.1 = Path.child q name ∧ name ≠ "..")
    (hplaces : (ws.map fun w => d.place w.1).Nodup) (h : Replays d (ws.map fun w => ⟨.write w.1 w.2, .ok .done⟩) d') :
    Written (ws.map fun w => (d.place w.1, Text.Utf8.encode w.2)) d d' := by
  induction ws generalizing d with
  | nil =>
    obtain rfl : d' = d := h
    exact ⟨rfl, fun _ => rfl, by simp, fun _ _ => rfl⟩
  | cons w ws ih =>
    obtain ⟨hanswer, hrest⟩ := h
    obtain ⟨hfirst, hplaces⟩ := List.nodup_cons.mp hplaces
    obtain ⟨q, name, hq, hup⟩ := hends w List.mem_cons_self
    have hwrite : d.writeText w.1 w.2 = (.ok (), (perform d (.write w.1 w.2)).2) := eq_ok_of_replied hanswer
    rcases writeText_cases d w.1 w.2 with ⟨f, hr⟩ | ⟨l, hl, hplace, hr⟩
    · cases (Prod.mk.inj (hr.symm.trans hwrite)).1
    · rw [← (Prod.mk.inj (hr.symm.trans hwrite)).2] at hrest
      have hwhere : l = d.place w.1 := eq_place_of_locate hl
      have hwritten : Written (ws.map fun w => (d.place w.1, Text.Utf8.encode w.2)) (d.put l (.file (Text.Utf8.encode w.2))) d' :=
        ih (d := d.put l _) (fun v hv => hends v (List.mem_cons_of_mem _ hv)) hplaces hrest
      rw [List.map_cons, ← hwhere]
      refine .cons (ne_nil_of_locate hup (hq ▸ hl)) hplace ?_ hwritten
      rw [hwhere, List.map_map]
      exact hfirst

/-- Finding and reading files leaves the disk as its preparation did. -/
theorem replays_gathering {paths : List Path} {markups : List String} (h : Replays d (gathering st paths markups) d') :
    Replays d (opening st) d' := by
  obtain ⟨d₁, hfinding, hreading⟩ := replays_append.mp h
  obtain ⟨d₂, hopening, -, rfl⟩ := replays_append.mp hfinding
  have hread : ∀ {paths : List Path} {markups : List String}, Replays d₁ (List.zipWith reading paths markups) d' → d' = d₁ := by
    intro paths
    induction paths with
    | nil => exact fun h => h
    | cons path paths ih =>
      intro markups h
      cases markups with
      | nil => exact h
      | cons markup markups => exact ih h.2
  rw [hread hreading]
  exact hopening

/-- The exchanges with which a build starts are three operations on the disk. -/
theorem replays_opening (h : Replays d (opening st) d') :
    ∃ d₁ d₂, d.removeTree st.outputDir = (.ok (), d₁) ∧ d₁.makeDirs st.componentsDir = (.ok (), d₂) ∧
      copyStaticOf st.staticDir? st.outputDir d₂ = (.ok (), d') := by
  obtain ⟨hremove, hmake, hcopy, rfl⟩ := h
  exact ⟨_, _, eq_ok_of_replied hremove, eq_ok_of_replied hmake, eq_ok_of_replied hcopy⟩

/-! ## The whole tree -/

/-- The paths and texts that a build writes. -/
def writes (st : Settings) (ms : List Emission) : List (Path × String) :=
  ms.map (fun m => (m.target st, m.content)) ++ [(indexTarget st, indexSource (ms.map (·.icon.name)))]

/-- The record of the last stage: every component in order, then the index, and all of them written. -/
theorem exchanges_writes (st : Settings) (ms : List Emission) :
    ms.map (·.exchange st) ++ [indexExchange st (ms.map (·.icon.name)) (.ok .done)] =
      (writes st ms).map fun w => ⟨.write w.1 w.2, .ok .done⟩ := by
  simp [writes, Emission.exchange, indexExchange, Function.comp_def]

/-- The files that are written lie below the output. -/
theorem places_writes (d : Disk) (st : Settings) (ms : List Emission) :
    (writes st ms).map (fun w => (d.place w.1, Text.Utf8.encode w.2)) =
      (writtenFiles st ms).map fun x => (d.place st.outputDir ++ x.1, x.2) := by
  simp [writes, writtenFiles, Emission.target, place_componentTarget, place_indexTarget, Function.comp_def]

/-- The files that are written go to different places. -/
theorem nodup_writes (d : Disk) {ms : List Emission} (h : (ms.map (·.target st) ++ [indexTarget st]).Nodup) :
    ((writes st ms).map fun w => d.place w.1).Nodup := by
  have hpaths : (writes st ms).map (fun w => d.place w.1) = (ms.map (·.target st) ++ [indexTarget st]).map d.place := by
    simp [writes, Function.comp_def]
  rw [hpaths]
  refine List.Nodup.map_on (fun p hp q hq heq => ?_) h
  have hcases : ∀ {p}, p ∈ ms.map (·.target st) ++ [indexTarget st] → (∃ name, p = componentTarget st name) ∨ p = indexTarget st := by
    intro p hp
    rcases List.mem_append.mp hp with hp | hp
    · obtain ⟨m, -, rfl⟩ := List.mem_map.mp hp
      exact .inl ⟨_, rfl⟩
    · exact .inr (List.mem_singleton.mp hp)
  rcases hcases hp with ⟨a, rfl⟩ | rfl <;> rcases hcases hq with ⟨b, rfl⟩ | rfl <;>
    simp only [place_componentTarget, place_indexTarget] at heq
  · have hname := List.append_cancel_left heq
    simp only [List.cons.injEq, and_true, true_and] at hname
    rw [componentTarget, componentTarget, hname]
  · simpa using List.append_cancel_left heq
  · simpa using List.append_cancel_left heq
  · rfl

/-- Every file that is written goes to the end of a path behind a name. -/
theorem ends_writes (st : Settings) (ms : List Emission) : ∀ w ∈ writes st ms, ∃ q name, w.1 = Path.child q name ∧ name ≠ ".." := by
  intro w hw
  rcases List.mem_append.mp hw with hw | hw
  · obtain ⟨m, -, rfl⟩ := List.mem_map.mp hw
    exact ⟨_, _, rfl, componentFilename_ne_up _ _⟩
  · rw [List.mem_singleton.mp hw]
    exact ⟨_, _, rfl, indexFilename_ne_up _⟩

/-- Static files in an output made anew, and the files that have been written over them, make an output tree. -/
theorem outputTree_of_written {ms : List Emission} (hnew : Renewed (d.place st.outputDir) d d₂)
    (hfills : Fills (d.place st.outputDir) d₂ d₃)
    (hstatic : ∀ rel content, d₃.get? (d.place st.outputDir ++ rel) = some (.file content) ↔
      ∃ origin, StaticFile d d₃ st.staticDir? origin content ∧ rel = staticPlace origin)
    (hwritten : Written ((writtenFiles st ms).map fun x => (d.place st.outputDir ++ x.1, x.2)) d₃ d') :
    OutputTree staticPlace st ms d d' := by
  have hplaces : ((writtenFiles st ms).map fun x => (d.place st.outputDir ++ x.1, x.2)).map (·.1) =
      ((writtenFiles st ms).map (·.1)).map (d.place st.outputDir ++ ·) := by
    simp
  have hfile : ∀ {rel content}, (rel, content) ∈ writtenFiles st ms → d'.get? (d.place st.outputDir ++ rel) = some (.file content) :=
    fun hmem => hwritten.file _ (List.mem_map.mpr ⟨_, hmem, rfl⟩)
  have hother : ∀ rel, rel ∉ (writtenFiles st ms).map (·.1) →
      d'.get? (d.place st.outputDir ++ rel) = d₃.get? (d.place st.outputDir ++ rel) := by
    intro rel hrel
    refine hwritten.others _ fun hmem => hrel ?_
    obtain ⟨r, hr, heq⟩ := List.mem_map.mp (hplaces ▸ hmem)
    rwa [← List.append_cancel_left heq]
  constructor
  case files =>
    intro rel content
    by_cases hrel : rel ∈ (writtenFiles st ms).map (·.1)
    · simp only [hrel, not_true_eq_false, false_and, or_false]
      obtain ⟨⟨_, content'⟩, hmem, rfl⟩ := List.mem_map.mp hrel
      refine ⟨fun hget => ?_, hfile⟩
      rw [hfile hmem] at hget
      obtain rfl := Entry.file.inj (Option.some.inj hget)
      exact hmem
    · have hnot : (rel, content) ∉ writtenFiles st ms := fun hmem => hrel (List.mem_map_of_mem hmem)
      simp only [hrel, hnot, not_false_eq_true, true_and, false_or]
      rw [hother rel hrel, hstatic]
      simp only [hwritten.staticFile_iff]
  case outside =>
    intro l hl hnot
    have hunwritten : d'.get? l = d₂.get? l := by
      refine (hwritten.others l fun hmem => ?_).trans (hfills.get?_outside hnot)
      obtain ⟨r, -, rfl⟩ := List.mem_map.mp (hplaces ▸ hmem)
      exact hnot (List.prefix_append _ _)
    rw [hunwritten]
    exact hnew.outside l hl hnot

/-- Below the output of a local build that gives a result there are the static files, and over them the components and the index with
what the build has made; nothing else has changed, but for directories that lead to the output. So it is in whatever order files are
listed, and however deep a tree can be copied: where one is too deep, there is no result. -/
theorem output_tree {σ : Type} {disk : σ → Disk} {Ready : σ → Prop} {c : Collaborators σ} (hc : c.Local disk Ready)
    (sch : Schedule.Scheduler) (st : Settings) {world : σ} (hready : Ready world) (htree : (disk world).IsTree)
    (hwd : (disk world).hasDirectory (disk world).workingDirectory = true) (hw : st.outputDir.IsWritten)
    (habs : st.outputDir.isAbsolute = true) (hfirm : (disk world).Firm [] st.outputDir.parts)
    (hapart : ∀ p, st.staticDir? = some p → Apart ((disk world).place p) ((disk world).place st.outputDir))
    {result : Result} {session : Session σ} (h : runBuildBy sch.final c st world = (.ok result, session)) :
    ∃ markups ms, Published c st session result markups ms ∧ OutputTree staticPlace st ms (disk world) (disk session.world) := by
  obtain ⟨-, markups, ms, -, -, hp⟩ := exists_published h
  refine ⟨markups, ms, hp, ?_⟩
  have hreplays := hc.replays hready h
  rw [hp.exchanges, List.append_assoc, exchanges_writes] at hreplays
  obtain ⟨d₃, hgathering, hwriting⟩ := replays_append.mp hreplays
  obtain ⟨d₁, d₂, hremove, hmake, hcopy⟩ := replays_opening (replays_gathering hgathering)
  have hnew := renewed_of_makeDirs hw habs (removeTree_eq_ok htree hw habs hfirm hremove) hmake
  obtain ⟨hleads, -⟩ := leads_outputDir hw hnew.start (makeDirs_eq_ok hmake)
  obtain ⟨hfills, hstatic⟩ := files_of_copyStaticOf hnew hleads htree hwd hapart hcopy
  have hwritten := replays_writes (ends_writes st ms) (nodup_writes d₃ hp.distinct) hwriting
  have hplace : d₃.place st.outputDir = (disk world).place st.outputDir := by
    rw [place_of_isAbsolute habs, place_of_isAbsolute habs]
  rw [places_writes, hplace] at hwritten
  exact outputTree_of_written hnew hfills hstatic hwritten

/-- A disk with one icon, a static file that has the name of the directory of the components, and what an earlier build has left. -/
def staticDisk : Disk :=
  { entries := [(["icons"], .directory), (["icons", "a.svg"], .file (Text.Utf8.encode "<svg/>")), (["static"], .directory),
      (["static", "components"], .file [120]), (["out"], .directory), (["out", "old.js"], .file [])]
    workingDirectory := [] }

/-- Settings of a build from that disk's icons and static files. -/
def staticSettings (outputDir : Path) : Settings := { twoSlots with outputDir, staticDir? := some ⟨.here, ["static"]⟩ }

/-- That build on the disk alone. -/
def staticRun (outputDir : Path) : Except Failure Result × Session Disk :=
  runBuildBy Schedule.Scheduler.counting.final onDiskOnly (staticSettings outputDir) staticDisk

theorem isTree_staticDisk : staticDisk.IsTree := isTree_of_entries (by decide +kernel)

/-- The static files of the example lie apart from its output directory, however that is written. -/
theorem apart_staticSettings {outputDir : Path} (hplace : staticDisk.place outputDir = ["out"]) :
    ∀ p, (staticSettings outputDir).staticDir? = some p → Apart (staticDisk.place p) (staticDisk.place outputDir) := by
  rintro p ⟨⟩
  rw [hplace]
  exact ⟨by decide, by decide⟩

/-- The static file goes into the directory of the components, and what the earlier build has left is gone. -/
theorem output_tree_moved :
    ∃ result session ms, staticRun ⟨.root, ["out"]⟩ = (.ok result, session) ∧
      OutputTree staticPlace (staticSettings ⟨.root, ["out"]⟩) ms staticDisk session.world ∧
      result.components = [⟨.root, ["out", "components", "A.js"]⟩] ∧
      session.world.get? ["out", "components", "components"] = some (.file [120]) ∧ session.world.get? ["out", "old.js"] = none := by
  have hresult : (staticRun ⟨.root, ["out"]⟩).1.toOption =
      some ⟨[⟨.root, ["out", "components", "A.js"]⟩], ⟨.root, ["out", "index.js"]⟩⟩ := by decide +kernel
  have hmoved : (staticRun ⟨.root, ["out"]⟩).2.world.get? ["out", "components", "components"] = some (.file [120]) := by decide +kernel
  have hgone : (staticRun ⟨.root, ["out"]⟩).2.world.get? ["out", "old.js"] = none := by decide +kernel
  generalize hr : staticRun ⟨.root, ["out"]⟩ = run at hresult hmoved hgone
  obtain ⟨outcome, session⟩ := run
  obtain rfl : outcome = .ok _ := eq_ok_of_toOption hresult
  obtain ⟨-, ms, -, htree⟩ := output_tree onDiskOnly_local Schedule.Scheduler.counting (staticSettings ⟨.root, ["out"]⟩) trivial
    isTree_staticDisk rfl (by decide) rfl (firm_of_forall_ne (by decide)) (apart_staticSettings rfl) hr
  exact ⟨_, session, ms, rfl, htree, rfl, hmoved, hgone⟩

/-- Static files are not all at the places that they had. If ways back up on the path to the output leave directories that are not
there, the output is not removed. -/
theorem output_tree_false :
    (¬∀ (st : Settings) (initial : Disk) (result : Result) (session : Session Disk), initial.IsTree →
      initial.hasDirectory initial.workingDirectory = true → st.outputDir.IsWritten → st.outputDir.isAbsolute = true →
      initial.Firm [] st.outputDir.parts →
      (∀ p, st.staticDir? = some p → Apart (initial.place p) (initial.place st.outputDir)) →
      runBuildBy Schedule.Scheduler.counting.final onDiskOnly st initial = (.ok result, session) →
      ∃ markups ms, Published onDiskOnly st session result markups ms ∧ OutputTree id st ms initial session.world) ∧
    ¬∀ (st : Settings) (initial : Disk) (result : Result) (session : Session Disk), initial.IsTree →
      initial.hasDirectory initial.workingDirectory = true → st.outputDir.IsWritten → st.outputDir.isAbsolute = true →
      (∀ p, st.staticDir? = some p → Apart (initial.place p) (initial.place st.outputDir)) →
      runBuildBy Schedule.Scheduler.counting.final onDiskOnly st initial = (.ok result, session) →
      ∃ markups ms, Published onDiskOnly st session result markups ms ∧ OutputTree staticPlace st ms initial session.world := by
  constructor
  · intro h
    have hresult : (staticRun ⟨.root, ["out"]⟩).1.toOption =
        some ⟨[⟨.root, ["out", "components", "A.js"]⟩], ⟨.root, ["out", "index.js"]⟩⟩ := by decide +kernel
    have hdirectory : (staticRun ⟨.root, ["out"]⟩).2.world.get? ["out", "components"] = some .directory := by decide +kernel
    have hthere : ((staticRun ⟨.root, ["out"]⟩).2.world.isDirectory ⟨.here, ["static"]⟩).toOption = some true := by decide +kernel
    have hstatic : staticDisk.get? ["static", "components"] = some (.file [120]) := by decide +kernel
    generalize hr : staticRun ⟨.root, ["out"]⟩ = run at hresult hdirectory hthere
    obtain ⟨outcome, session⟩ := run
    obtain rfl : outcome = .ok _ := eq_ok_of_toOption hresult
    obtain ⟨-, ms, -, htree⟩ := h (staticSettings ⟨.root, ["out"]⟩) staticDisk _ session isTree_staticDisk rfl (by decide) rfl
      (firm_of_forall_ne (by decide)) (apart_staticSettings rfl) hr
    have hunwritten : ["components"] ∉ (writtenFiles (staticSettings ⟨.root, ["out"]⟩) ms).map (·.1) := by
      simp [writtenFiles, staticSettings, twoSlots, indexFilename]
    have hfile := (htree.files ["components"] [120]).mpr
      (.inr ⟨hunwritten, ["components"], .named (eq_ok_of_toOption hthere) hstatic, rfl⟩)
    cases hfile.symm.trans hdirectory
  · intro h
    have hresult : (staticRun ⟨.root, ["x", "..", "out"]⟩).1.toOption =
        some ⟨[⟨.root, ["x", "..", "out", "components", "A.js"]⟩], ⟨.root, ["x", "..", "out", "index.js"]⟩⟩ := by decide +kernel
    have hkept : (staticRun ⟨.root, ["x", "..", "out"]⟩).2.world.get? ["out", "old.js"] = some (.file []) := by decide +kernel
    have hnone : staticDisk.get? ["static", "old.js"] = none := by decide +kernel
    generalize hr : staticRun ⟨.root, ["x", "..", "out"]⟩ = run at hresult hkept
    obtain ⟨outcome, session⟩ := run
    obtain rfl : outcome = .ok _ := eq_ok_of_toOption hresult
    obtain ⟨-, ms, -, htree⟩ := h (staticSettings ⟨.root, ["x", "..", "out"]⟩) staticDisk _ session isTree_staticDisk rfl (by decide) rfl
      (apart_staticSettings rfl) hr
    rcases (htree.files ["old.js"] []).mp hkept with hmem | ⟨-, origin, hstatic, hplace⟩
    · simp [writtenFiles, staticSettings, twoSlots, indexFilename] at hmem
    · unfold staticPlace at hplace
      split at hplace
      · simp at hplace
      · subst hplace
        cases hstatic with
        | named _ hfile => cases hfile.symm.trans hnone

end IconForge.Build
