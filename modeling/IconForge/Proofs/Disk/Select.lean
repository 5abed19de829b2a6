import IconForge.Disk.Select
import IconForge.Proofs.Disk.Place
import IconForge.Proofs.Path.Pattern

/-!
# What is listed

Listing gives files whose paths go on from the directory that is listed, and they lie below it unless the pattern goes back up
(`below_of_mem_listFiles`). It fails for a pattern that is not accepted, or as a refusal of the disk (`listFiles_error_cases`).
-/

namespace IconForge.Disk

variable {d : Disk} {place : Place} {root p : Path} {segments : List Segment} {pattern name : String} {found paths : List Path} {f : Fault}

/-- A refusal of the disk, but that of a path with a zero byte, which is no path. -/
theorem isStorage_refusal {r : Refusal} (h : r ≠ .zeroByte) (written : String) : (r.fault written).kind.isStorage = true := by
  cases r <;> first | rfl | exact absurd rfl h

/-- A question about an entry is not refused for a zero byte. -/
theorem ne_zeroByte_of_ask {answer : Entry → Bool} {r : Refusal} (h : d.ask p answer = .error r) : r ≠ .zeroByte := by
  rintro rfl
  unfold ask at h
  split at h <;> cases h
  contradiction

/-- Parts that do not go up lead down by their names. -/
theorem descend_eq_append {l : Location} {parts : List String} (h : ".." ∉ parts) : descend l parts = l ++ parts := by
  induction parts generalizing l with
  | nil => simp [descend]
  | cons part rest ih =>
    rw [List.mem_cons, not_or] at h
    have hstep : descend l (part :: rest) = descend (step l part) rest := rfl
    rw [hstep, step_of_ne (Ne.symm h.1), ih h.2, List.append_assoc, List.singleton_append]

/-! ## Following a pattern -/

/-- The directories at and below a place have paths that go on from it by names. -/
theorem of_mem_directoriesFrom (h : d.IsTree) {depth : Nat} {below : Place} (hmem : below ∈ d.directoriesFrom depth place) :
    ∃ names, ".." ∉ names ∧ below.path = ⟨place.path.anchor, place.path.parts ++ names⟩ := by
  induction depth generalizing place with
  | zero =>
    rw [List.mem_singleton.mp hmem]
    exact ⟨[], List.not_mem_nil, by rw [List.append_nil]⟩
  | succ depth ih =>
    rcases List.mem_cons.mp hmem with rfl | hmem
    · exact ⟨[], List.not_mem_nil, by rw [List.append_nil]⟩
    · obtain ⟨name, hname, hmem⟩ := List.mem_flatMap.mp hmem
      obtain ⟨names, hup, hpath⟩ := ih hmem
      have hne := (h.isName_of_mem_names (List.mem_filter.mp hname).1).ne_up
      refine ⟨name :: names, ?_, ?_⟩
      · rw [List.mem_cons, not_or]
        exact ⟨Ne.symm hne, hup⟩
      · rw [hpath, Place.child, Path.child, List.append_assoc, List.singleton_append]

/-- Leaving out what has been seen adds no path. -/
theorem mem_of_mem_distinct {seen : List Path} :
    p ∈ paths.foldl (fun seen p => if seen.contains p then seen else seen ++ [p]) seen → p ∈ seen ∨ p ∈ paths := by
  induction paths generalizing seen with
  | nil => exact .inl
  | cons q rest ih =>
    intro h
    rw [List.foldl_cons] at h
    rcases ih h with hseen | hrest
    · split at hseen
      · exact .inl hseen
      · rcases List.mem_append.mp hseen with hold | hnew
        · exact .inl hold
        · exact .inr (List.mem_singleton.mp hnew ▸ List.mem_cons_self)
    · exact .inr (List.mem_cons_of_mem _ hrest)

/-- A name leads nowhere, is refused for its length, or leads one part down. -/
theorem select_name_cases (d : Disk) (place : Place) (name : String) (rest : List Segment) :
    d.select (.name name :: rest) place = .ok [] ∨
    (∃ written, d.select (.name name :: rest) place = .error (Refusal.nameTooLong.fault written)) ∨
    d.select (.name name :: rest) place = d.select rest (place.child name) := by
  simp only [select]
  generalize (if rest.isEmpty = true then (d.get? (place.child name).location).isSome else _) = there
  split
  · exact .inl rfl
  · split
    · exact .inr (.inl ⟨_, rfl⟩)
    · cases there
      · exact .inl rfl
      · exact .inr (.inr rfl)

/-- A path that is selected from one of several places is selected from a certain one. -/
theorem exists_of_mem_flatten {α : Type} {places : List α} {select : α → Except Fault (List Path)} {more : List (List Path)}
    (hmore : places.mapM select = .ok more) (hp : p ∈ more.flatten) : ∃ next ∈ places, ∃ found, select next = .ok found ∧ p ∈ found := by
  obtain ⟨found, hfound, hmem⟩ := List.mem_flatten.mp hp
  obtain ⟨next, hnext, hselect⟩ := exists_of_mem_mapM hmore hfound
  exact ⟨next, hnext, found, hselect, hmem⟩

/-- What segments lead to has a path that goes on from where they start. It goes up only by a segment that does. -/
theorem of_mem_select (h : d.IsTree) (hfound : d.select segments place = .ok found) (hp : p ∈ found) :
    ∃ rel, p = ⟨place.path.anchor, place.path.parts ++ rel⟩ ∧ (".." ∈ rel → .name ".." ∈ segments) := by
  induction segments generalizing place found with
  | nil =>
    cases hfound
    exact ⟨[], by simpa using hp, nofun⟩
  | cons segment rest ih =>
    -- What is reached in one step, by some names, and then by the other segments.
    have hstep : ∀ {next : Place} {names : List String} {more : List Path}, next.path = ⟨place.path.anchor, place.path.parts ++ names⟩ →
        (".." ∈ names → .name ".." ∈ segment :: rest) → d.select rest next = .ok more → p ∈ more →
        ∃ rel, p = ⟨place.path.anchor, place.path.parts ++ rel⟩ ∧ (".." ∈ rel → .name ".." ∈ segment :: rest) := by
      intro next names more hnext hnames hmore hmem
      obtain ⟨rel, hrel, hup⟩ := ih hmore hmem
      refine ⟨names ++ rel, by rw [hrel, hnext, List.append_assoc], fun hmem => ?_⟩
      rcases List.mem_append.mp hmem with hmem | hmem
      · exact hnames hmem
      · exact List.mem_cons_of_mem _ (hup hmem)
    cases segment with
    | itself =>
      cases hfound
      exact ⟨[], by simpa using hp, nofun⟩
    | name name =>
      rcases select_name_cases d place name rest with hselect | ⟨written, hselect⟩ | hselect <;> rw [hselect] at hfound
      · cases hfound
        cases hp
      · cases hfound
      · exact hstep rfl (fun hmem => by rw [List.mem_singleton.mp hmem]; exact List.mem_cons_self) hfound hp
    | wild glyphs =>
      simp only [select] at hfound
      obtain ⟨more, hmore, hfound⟩ := bind_eq_ok_iff.mp hfound
      cases hfound
      obtain ⟨name, hname, onward, hselect, hmem⟩ := exists_of_mem_flatten hmore hp
      refine hstep rfl (fun hup => ?_) hselect hmem
      exact absurd (List.mem_singleton.mp hup).symm (h.isName_of_mem_names (List.mem_filter.mp hname).1).ne_up
    | everywhere =>
      simp only [select] at hfound
      obtain ⟨more, hmore, hfound⟩ := bind_eq_ok_iff.mp hfound
      cases hfound
      rcases mem_of_mem_distinct hp with hnil | hp
      · cases hnil
      · obtain ⟨next, hnext, onward, hselect, hmem⟩ := exists_of_mem_flatten hmore hp
        obtain ⟨names, hup, hpath⟩ := of_mem_directoriesFrom h hnext
        exact hstep hpath (fun hmem => absurd hmem hup) hselect hmem

/-- Following segments fails only for a name that is too long. -/
theorem of_select_error (h : d.select segments place = .error f) : ∃ written, f = Refusal.nameTooLong.fault written := by
  induction segments generalizing place with
  | nil => cases h
  | cons segment rest ih =>
    cases segment with
    | itself => cases h
    | name name =>
      rcases select_name_cases d place name rest with hselect | ⟨written, hselect⟩ | hselect <;> rw [hselect] at h
      · cases h
      · cases h
        exact ⟨written, rfl⟩
      · exact ih h
    | wild glyphs =>
      simp only [select] at h
      rcases bind_eq_error_iff.mp h with hmore | ⟨more, -, hpure⟩
      · obtain ⟨name, -, hname⟩ := exists_of_mapM_error hmore
        exact ih hname
      · cases hpure
    | everywhere =>
      simp only [select] at h
      rcases bind_eq_error_iff.mp h with hmore | ⟨more, -, hpure⟩
      · obtain ⟨next, -, hnext⟩ := exists_of_mapM_error hmore
        exact ih hnext
      · cases hpure

/-! ## Listing -/

/-- A pattern that is refused is no fault of the storage. -/
theorem not_isStorage_patternFault (f : Pattern.Fault) : (patternFault f).kind.isStorage = false := by
  cases f <;> rfl

/-- A pattern that is not accepted is looked at only for a directory that is there. -/
theorem listFiles_of_refused {g : Pattern.Fault} (hdir : d.isDirectory root = .ok true) (hread : Pattern.read pattern = .error g) :
    d.listFiles root pattern = .error (patternFault g) := by
  unfold listFiles
  rw [hdir, hread]

/-- Listing fails as a refusal of the disk, or for a pattern that is not accepted. -/
theorem listFiles_error_cases (h : d.listFiles root pattern = .error f) : f.kind.isStorage = true ∨
    d.isDirectory root = .ok true ∧ ∃ g, Pattern.read pattern = .error g ∧ f = patternFault g := by
  unfold listFiles at h
  split at h
  · rename_i hask
    cases h
    exact .inl (isStorage_refusal (ne_zeroByte_of_ask hask) _)
  · cases h
    exact .inl rfl
  · rename_i hdir
    obtain ⟨l, hl, -⟩ := isDirectory_eq_ok_iff.mp hdir
    rw [hl] at h
    split at h
    · rename_i g hread
      cases h
      exact .inr ⟨hdir, g, hread, rfl⟩
    · contradiction
    · rename_i segments location _ _
      rcases bind_eq_error_iff.mp h with hfound | ⟨found, -, hpure⟩
      · obtain ⟨written, rfl⟩ := of_select_error hfound
        exact .inl rfl
      · cases hpure

/-- What is listed has been selected from the directory, and leads to a file. -/
theorem listFiles_eq_ok (h : d.listFiles root pattern = .ok paths) : d.isDirectory root = .ok true ∧
    ∃ segments location found, Pattern.read pattern = .ok segments ∧ d.select segments ⟨location, root⟩ = .ok found ∧
      ∀ p ∈ paths, p ∈ found ∧ d.isFile p = .ok true := by
  unfold listFiles at h
  split at h
  · cases h
  · cases h
  · rename_i hdir
    refine ⟨hdir, ?_⟩
    split at h
    · cases h
    · cases h
    · rename_i segments location hread _
      obtain ⟨found, hfound, hpure⟩ := bind_eq_ok_iff.mp h
      cases hpure
      refine ⟨segments, location, found, hread, hfound, fun p hp => ?_⟩
      rw [(d.platform.arrange_perm _).mem_iff, List.mem_filter] at hp
      refine ⟨hp.1, ?_⟩
      cases hfile : d.isFile p with
      | error r => simp [hfile, Except.toOption] at hp
      | ok b => simpa [hfile, Except.toOption] using hp.2

/-- What is listed leads to a file. -/
theorem file_of_mem_listFiles (h : d.listFiles root pattern = .ok paths) (hp : p ∈ paths) :
    ∃ l content, d.locate p = .ok l ∧ d.get? l = some (.file content) := by
  obtain ⟨-, _, _, _, -, -, hall⟩ := listFiles_eq_ok h
  exact isFile_eq_ok_iff.mp (hall p hp).2

/-- What is listed has a path that goes on from the directory, and lies below it unless the pattern goes back up. -/
theorem below_of_mem_listFiles (h : d.IsTree) (hlist : d.listFiles root pattern = .ok paths) (hp : p ∈ paths) :
    ∃ rel, rel ≠ [] ∧ p = ⟨root.anchor, root.parts ++ rel⟩ ∧
      (".." ∉ (Path.ofString pattern).parts → d.place p = d.place root ++ rel) := by
  obtain ⟨hdir, segments, location, found, hread, hselect, hall⟩ := listFiles_eq_ok hlist
  obtain ⟨hfound, hfile⟩ := hall p hp
  obtain ⟨rel, rfl, hup⟩ := of_mem_select h hselect hfound
  refine ⟨rel, ?_, rfl, fun hpattern => ?_⟩
  · -- A path without more parts leads to the directory itself, which is no file.
    rintro rfl
    obtain ⟨l, hl, hdirectory⟩ := isDirectory_eq_ok_iff.mp hdir
    obtain ⟨m, content, hm, hcontent⟩ := isFile_eq_ok_iff.mp hfile
    have hsame : (⟨root.anchor, root.parts ++ []⟩ : Path) = root := by rw [List.append_nil]
    rw [hsame, hl] at hm
    cases hm
    rw [hasDirectory_iff, hcontent] at hdirectory
    cases hdirectory
  · have hdown : ".." ∉ rel := fun hmem => hpattern (Pattern.mem_parts_of_read hread (hup hmem))
    have hstart : d.start ⟨root.anchor, root.parts ++ rel⟩ = d.start root := rfl
    rw [place, hstart, descend_append, descend_eq_append hdown, place]

end IconForge.Disk
