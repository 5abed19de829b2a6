import IconForge.Proofs.Build.Index
import IconForge.Proofs.Build.Input

/-!
# Finding the icons

The files that are found become icons when their names pass the check; otherwise the first file whose name offends is named by the error
(`first_offender_named`). Only names count for that: files that lie in different directories, or whose stems differ, can have the same
one.

Icons that cannot be listed on a disk are a failure of this stage, as names that offend are (`discovery_ends`). A pattern that is not
accepted is not: what looking for it ends with goes through the build as it is (`discovery_ends_false`).
-/

namespace IconForge.Build

open Component Disk

/-! ## The first file that offends -/

/-- The name of the file at some place cannot be used, or a file before it has the same name. -/
def OffendsAt (naming : Naming) (paths : List Path) (i : Nat) : Prop :=
  ∃ path, paths[i]? = some path ∧ (isUsable (identifier naming path) = false ∨
    ∃ j earlier, j < i ∧ paths[j]? = some earlier ∧ identifier naming earlier = identifier naming path)

/-- The least place at which a file offends. -/
def OffendsFirstAt (naming : Naming) (paths : List Path) (i : Nat) : Prop :=
  OffendsAt naming paths i ∧ ∀ j < i, ¬OffendsAt naming paths j

section
variable {naming : Naming} {before after paths : List Path} {path earlier other : Path} {e : BuildError} {i j : Nat}

/-- Files of one name that are well named are at one place. -/
theorem WellNamed.place_unique (h : WellNamed naming paths) (hi : paths[i]? = some earlier) (hj : paths[j]? = some other)
    (hname : identifier naming earlier = identifier naming other) : i = j := by
  have hlt : i < (paths.map (identifier naming)).length := by
    rw [List.length_map]
    exact (List.getElem?_eq_some_iff.mp hi).1
  refine (List.getElem?_inj hlt h.distinct).mp ?_
  rw [List.getElem?_map, List.getElem?_map, hi, hj, Option.map_some, Option.map_some, hname]

/-- Nothing offends where all files are well named. -/
theorem WellNamed.not_offendsAt (h : WellNamed naming paths) (i : Nat) : ¬OffendsAt naming paths i := by
  rintro ⟨path, hpath, hunusable | ⟨j, earlier, hlt, hearlier, hname⟩⟩
  · rw [h.usable path (List.mem_of_getElem? hpath)] at hunusable
    cases hunusable
  · exact absurd (h.place_unique hearlier hpath hname) (Nat.ne_of_lt hlt)

/-- Whether a file offends is decided by the files up to it. -/
theorem offendsAt_append_iff (hi : i < before.length) : OffendsAt naming (before ++ after) i ↔ OffendsAt naming before i := by
  have hfront : ∀ {k}, k ≤ i → (before ++ after)[k]? = before[k]? := fun hk => List.getElem?_append_left (by omega)
  unfold OffendsAt
  rw [hfront (Nat.le_refl i)]
  constructor
  · rintro ⟨path, hpath, hunusable | ⟨j, earlier, hlt, hearlier, hname⟩⟩
    · exact ⟨path, hpath, .inl hunusable⟩
    · exact ⟨path, hpath, .inr ⟨j, earlier, hlt, hfront (Nat.le_of_lt hlt) ▸ hearlier, hname⟩⟩
  · rintro ⟨path, hpath, hunusable | ⟨j, earlier, hlt, hearlier, hname⟩⟩
    · exact ⟨path, hpath, .inl hunusable⟩
    · exact ⟨path, hpath, .inr ⟨j, earlier, hlt, (hfront (Nat.le_of_lt hlt)).trans hearlier, hname⟩⟩

/-- A file that offends behind files that are well named is the first one. -/
theorem Offends.offendsFirstAt (h : Offends naming before path e) (hw : WellNamed naming before) (after : List Path) :
    OffendsFirstAt naming (before ++ path :: after) before.length := by
  refine ⟨⟨path, by simp, ?_⟩, fun j hj hoffends => hw.not_offendsAt j ((offendsAt_append_iff hj).mp hoffends)⟩
  cases h with
  | unusable hunusable => exact .inl hunusable
  | duplicate _ hearlier hname =>
    obtain ⟨j, hj⟩ := List.mem_iff_getElem?.mp hearlier
    have hlt := (List.getElem?_eq_some_iff.mp hj).1
    exact .inr ⟨j, _, hlt, by rw [List.getElem?_append_left hlt, hj], hname⟩

/-- There is only one place at which a file offends first. -/
theorem OffendsFirstAt.unique (h : OffendsFirstAt naming paths i) (h' : OffendsFirstAt naming paths j) : i = j := by
  rcases Nat.lt_trichotomy i j with hlt | heq | hlt
  · exact absurd h.1 (h'.2 i hlt)
  · exact heq
  · exact absurd h'.1 (h.2 j hlt)

end

/-! ## The check in a build -/

section
variable {σ : Type} {c : Collaborators σ} {st : Settings} {s : Session σ} {paths : List Path}

/-- What becomes of the files that are found is decided by the check of their names. -/
theorem discover_of_list (h : (c.listFiles st.inputDir st.pattern s.world).1 = .ok paths) :
    (exec (discover c st) s).1 = (checkNames st.naming [] paths).mapError .build := by
  have hcall := exec_call (.list st.inputDir st.pattern) .files (c.listFiles st.inputDir st.pattern) FaultKind.isStorage
    (.enumerate st.inputDir) s
  rw [h] at hcall
  unfold discover
  rw [exec_bind_of_ok hcall]
  cases checkNames st.naming [] paths <;> rfl

/-- The files that are found become icons, all of them in their order, exactly if their names can be used and told apart. Otherwise there
is a first file that offends, and the error names it: as one whose name cannot be used, or else, with the one file before it that has the
same name. -/
theorem first_offender_named (h : (c.listFiles st.inputDir st.pattern s.world).1 = .ok paths) :
    let found := (exec (discover c st) s).1
    (found = .ok (paths.map (iconOf st.naming)) ↔ WellNamed st.naming paths) ∧
    (WellNamed st.naming paths ∨ ∃ i, OffendsFirstAt st.naming paths i) ∧
    ∀ i path, OffendsFirstAt st.naming paths i → paths[i]? = some path →
      let name := identifier st.naming path
      (isUsable name = false → found = .error (.build (.unusableName path name))) ∧
      (isUsable name = true → ∃ j earlier, j < i ∧ paths[j]? = some earlier ∧ identifier st.naming earlier = name ∧
        (∀ k other, k < i → paths[k]? = some other → identifier st.naming other = name → k = j) ∧
        found = .error (.build (.duplicateName path earlier name))) := by
  intro found
  have hfound : found = (checkNames st.naming [] paths).mapError .build := discover_of_list h
  rcases checkNames_cases paths (WellNamed.nil st.naming) with ⟨hw, hcheck⟩ | ⟨before, path, after, e, hsplit, hw, ho, hcheck⟩
  · rw [List.map_nil, List.nil_append] at hcheck
    rw [List.nil_append] at hw
    rw [hcheck] at hfound
    exact ⟨⟨fun _ => hw, fun _ => hfound⟩, .inl hw, fun i path hi _ => absurd hi.1 (hw.not_offendsAt i)⟩
  · rw [List.map_nil] at hcheck
    rw [List.nil_append] at hw ho
    rw [hcheck] at hfound
    have hfirst : OffendsFirstAt st.naming paths before.length := hsplit ▸ ho.offendsFirstAt hw after
    refine ⟨⟨fun hok => ?_, fun hwell => absurd hfirst.1 (hwell.not_offendsAt _)⟩, .inr ⟨_, hfirst⟩, fun i path' hi hpath' => ?_⟩
    · rw [hfound] at hok
      cases hok
    · obtain rfl := hi.unique hfirst
      obtain rfl : path = path' := by simpa [hsplit] using hpath'
      have hfront : ∀ {k}, k < before.length → paths[k]? = before[k]? := fun hk => by rw [hsplit, List.getElem?_append_left hk]
      cases ho with
      | unusable hunusable => exact ⟨fun _ => hfound, fun husable => by simp [hunusable] at husable⟩
      | duplicate husable hearlier hname =>
        refine ⟨fun hunusable => by simp [husable] at hunusable, fun _ => ?_⟩
        obtain ⟨j, hj⟩ := List.mem_iff_getElem?.mp hearlier
        have hlt := (List.getElem?_eq_some_iff.mp hj).1
        refine ⟨j, _, hlt, (hfront hlt).trans hj, hname, fun k other hk hother hsame => ?_, hfound⟩
        exact hw.place_unique ((hfront hk).symm.trans hother) hj (hsame.trans hname.symm)

end

/-- Icons that lie in three directories, with a stem that is no name among them. -/
def scatteredPaths : List Path :=
  [⟨.here, ["icons", "arrows", "arrow-left.svg"]⟩, ⟨.here, ["icons", "home.svg"]⟩, ⟨.here, ["icons", "old", "Arrow_left.svg"]⟩,
    ⟨.here, ["icons", "1.svg"]⟩]

/-- The third icon has the name of the first one, though their directories and their stems differ, and goes before the one that cannot be
used by its name. -/
theorem first_offender_named_scattered :
    let c : Collaborators Disk := { onDiskOnly with listFiles := fun _ _ d => (.ok scatteredPaths, d) }
    OffendsFirstAt .pascal scatteredPaths 2 ∧ (exec (discover c twoSlots) { world := iconDisk }).1 =
      .error (.build (.duplicateName ⟨.here, ["icons", "old", "Arrow_left.svg"]⟩ ⟨.here, ["icons", "arrows", "arrow-left.svg"]⟩
        "ArrowLeft")) := by
  intro c
  obtain ⟨-, -, hnamed⟩ := @first_offender_named Disk c twoSlots { world := iconDisk } scatteredPaths rfl
  have hw : WellNamed .pascal (scatteredPaths.take 2) := ⟨by decide +kernel, by decide +kernel⟩
  have hearlier : ⟨.here, ["icons", "arrows", "arrow-left.svg"]⟩ ∈ scatteredPaths.take 2 := by decide +kernel
  have ho : Offends .pascal (scatteredPaths.take 2) ⟨.here, ["icons", "old", "Arrow_left.svg"]⟩ _ :=
    .duplicate (by decide +kernel) hearlier (by decide +kernel)
  have hfirst : OffendsFirstAt .pascal scatteredPaths 2 := ho.offendsFirstAt hw (scatteredPaths.drop 3)
  have hname : identifier twoSlots.naming ⟨.here, ["icons", "old", "Arrow_left.svg"]⟩ = "ArrowLeft" := by decide +kernel
  obtain ⟨j, earlier, hlt, hearlier, hsame, -, hfound⟩ := (hnamed 2 _ hfirst rfl).2 (by decide +kernel)
  rw [hname] at hfound
  match j, hlt with
  | 0, _ =>
    cases hearlier
    exact ⟨hfirst, hfound⟩
  | 1, _ =>
    cases hearlier
    exact absurd hsame (by decide +kernel)

/-! ## Listing the icons -/

section
variable {σ : Type} {c : Collaborators σ} {st : Settings} {s : Session σ} {d : Disk}

/-- The path of an offender is its own. -/
theorem Offends.path_eq {naming : Naming} {before : List Path} {path : Path} {e : BuildError} (h : Offends naming before path e) :
    e.path = path := by
  cases h <;> rfl

/-- What becomes of a listing that fails. -/
theorem discover_of_fault {f : Fault} (h : (c.listFiles st.inputDir st.pattern s.world).1 = .error f) :
    (exec (discover c st) s).1 = .error (faultFailure FaultKind.isStorage (.enumerate st.inputDir) f) := by
  have hcall := exec_call (.list st.inputDir st.pattern) .files (c.listFiles st.inputDir st.pattern) FaultKind.isStorage
    (.enumerate st.inputDir) s
  rw [h] at hcall
  unfold discover
  rw [exec_bind_of_error hcall]

/-- Where a pattern is not accepted, nothing is listed. -/
theorem accepted_of_listFiles {root : Path} {pattern : String} {paths : List Path} (h : d.listFiles root pattern = .ok paths) :
    ¬(d.isDirectory root = .ok true ∧ Pattern.Refused pattern) := by
  rintro ⟨hdir, hpattern⟩
  obtain ⟨g, hread⟩ := Pattern.read_error_iff.mpr hpattern
  rw [listFiles_of_refused hdir hread] at h
  cases h

/-- How finding the icons on a disk ends. -/
inductive Found (st : Settings) (d : Disk) : Except Failure (List Icon) → Prop where
  /-- The files cannot be listed. -/
  | unlisted (message : String) : ¬(d.isDirectory st.inputDir = .ok true ∧ Pattern.Refused st.pattern) →
      Found st d (.error (.build (.enumerate st.inputDir message)))
  /-- The pattern is not accepted. -/
  | refused (f : Fault) : d.isDirectory st.inputDir = .ok true → Pattern.Refused st.pattern → Found st d (.error (.unexpected f))
  /-- The name of a file offends. -/
  | offending {paths : List Path} {e : BuildError} : d.listFiles st.inputDir st.pattern = .ok paths → e.isDiscovery = true →
      e.path ∈ paths → Found st d (.error (.build e))
  | icons {paths : List Path} : d.listFiles st.inputDir st.pattern = .ok paths → Found st d (.ok (paths.map (iconOf st.naming)))

/-- The stage of discovery answers what `Found` tells of the disk whose files are listed. -/
theorem discover_found (hlist : (c.listFiles st.inputDir st.pattern s.world).1 = d.listFiles st.inputDir st.pattern) :
    Found st d (exec (discover c st) s).1 := by
  cases hfiles : d.listFiles st.inputDir st.pattern with
  | error f =>
    rw [discover_of_fault (hlist.trans hfiles), faultFailure]
    rcases listFiles_error_cases hfiles with hstorage | ⟨hdir, g, hread, rfl⟩
    · rw [if_pos hstorage]
      refine .unlisted _ fun ⟨hdir, hpattern⟩ => ?_
      obtain ⟨g, hread⟩ := Pattern.read_error_iff.mpr hpattern
      rw [listFiles_of_refused hdir hread] at hfiles
      rw [← Except.error.inj hfiles, not_isStorage_patternFault] at hstorage
      cases hstorage
    · rw [not_isStorage_patternFault]
      exact .refused _ hdir (Pattern.read_error_iff.mp ⟨g, hread⟩)
  | ok paths =>
    rw [discover_of_list (hlist.trans hfiles)]
    cases hcheck : checkNames st.naming [] paths with
    | error e =>
      obtain ⟨before, path, after, hsplit, -, ho⟩ := checkNames_eq_error hcheck
      exact .offending hfiles ho.isDiscovery (by simp [ho.path_eq, hsplit])
    | ok icons =>
      obtain ⟨-, rfl⟩ := checkNames_eq_ok hcheck
      exact .icons hfiles

section
variable {found : Except Failure (List Icon)} {e : BuildError} {icons : List Icon}

/-- A discovery ends with an unforeseen exception exactly for a directory that is there and a pattern that is refused. -/
theorem Found.unexpected_iff (h : Found st d found) :
    (∃ f, found = .error (.unexpected f)) ↔ d.isDirectory st.inputDir = .ok true ∧ Pattern.Refused st.pattern := by
  cases h with
  | unlisted message haccepted => simp [haccepted]
  | refused f hdir hpattern => exact ⟨fun _ => ⟨hdir, hpattern⟩, fun _ => ⟨f, rfl⟩⟩
  | offending hfiles => simp [accepted_of_listFiles hfiles]
  | icons hfiles => simp [accepted_of_listFiles hfiles]

/-- A failure to find the icons is one of this stage, and names the input or a file that was listed. -/
theorem Found.isDiscovery (h : Found st d (.error (.build e))) : e.isDiscovery = true ∧
    (e.path = st.inputDir ∨ ∃ paths, d.listFiles st.inputDir st.pattern = .ok paths ∧ e.path ∈ paths) := by
  cases h with
  | unlisted message => exact ⟨rfl, .inl rfl⟩
  | offending hfiles hstage hpath => exact ⟨hstage, .inr ⟨_, hfiles, hpath⟩⟩

/-- The icons that are found are the files that were listed. -/
theorem Found.listFiles_eq (h : Found st d (.ok icons)) : d.listFiles st.inputDir st.pattern = .ok (icons.map (·.path)) := by
  cases h with
  | @icons paths hfiles =>
    have hpaths : (paths.map (iconOf st.naming)).map (·.path) = paths := by simp [iconOf, Function.comp_def]
    rw [hpaths, hfiles]

end

/-- Finding the icons on a disk gives files whose paths go on from the input, and which lie below it unless the pattern goes back up, or it
is a failure of this stage that names the input or a file that was listed. It ends with another fault exactly for a pattern that is not
accepted, if there is a directory to look for it in. -/
theorem discovery_ends (hlist : (c.listFiles st.inputDir st.pattern s.world).1 = d.listFiles st.inputDir st.pattern) (htree : d.IsTree) :
    let found := (exec (discover c st) s).1
    ((∃ f, found = .error (.unexpected f)) ↔ d.isDirectory st.inputDir = .ok true ∧ Pattern.Refused st.pattern) ∧
    (∀ e, found = .error (.build e) → e.isDiscovery = true ∧
      (e.path = st.inputDir ∨ ∃ paths, d.listFiles st.inputDir st.pattern = .ok paths ∧ e.path ∈ paths)) ∧
    ∀ icons, found = .ok icons → d.listFiles st.inputDir st.pattern = .ok (icons.map (·.path)) ∧
      ∀ icon ∈ icons, ∃ rel content, rel ≠ [] ∧ icon.path = ⟨st.inputDir.anchor, st.inputDir.parts ++ rel⟩ ∧
        d.locate icon.path = .ok (d.place icon.path) ∧ d.get? (d.place icon.path) = some (.file content) ∧
        (".." ∉ (Path.ofString st.pattern).parts → d.place icon.path = d.place st.inputDir ++ rel) := by
  intro found
  have hfound : Found st d found := discover_found hlist
  refine ⟨hfound.unexpected_iff, fun e he => (he ▸ hfound).isDiscovery, fun icons hicons => ?_⟩
  have hfiles : d.listFiles st.inputDir st.pattern = .ok (icons.map (·.path)) := (hicons ▸ hfound).listFiles_eq
  refine ⟨hfiles, fun icon hicon => ?_⟩
  have hpath : icon.path ∈ icons.map (·.path) := List.mem_map_of_mem hicon
  obtain ⟨l, content, hl, hcontent⟩ := file_of_mem_listFiles hfiles hpath
  obtain ⟨rel, hrel, hbase, hbelow⟩ := below_of_mem_listFiles htree hfiles hpath
  obtain rfl := eq_place_of_locate hl
  exact ⟨rel, content, hrel, hbase, hl, hcontent, hbelow⟩

/-- The only icon of a disk is found below the input. -/
theorem discovery_ends_icon :
    let found := (exec (discover onDiskOnly twoSlots) { world := iconDisk }).1
    iconDisk.IsTree ∧ found = .ok [⟨⟨.here, ["icons", "a.svg"]⟩, "A"⟩] ∧ ¬Pattern.Refused twoSlots.pattern := by
  intro found
  obtain ⟨hunexpected, -⟩ := @discovery_ends Disk onDiskOnly twoSlots { world := iconDisk } iconDisk rfl isTree_iconDisk
  have hfound : found = .ok [⟨⟨.here, ["icons", "a.svg"]⟩, "A"⟩] := eq_ok_of_toOption (by decide +kernel)
  refine ⟨isTree_iconDisk, hfound, fun hpattern => ?_⟩
  obtain ⟨f, hf⟩ := hunexpected.mpr ⟨isDirectory_eq_ok_iff.mpr ⟨["icons"], rfl, by decide +kernel⟩, hpattern⟩
  have hboth := hfound.symm.trans hf
  cases hboth

/-- A pattern with two stars that are not a whole part ends the build with a fault that is no failure of this stage. -/
theorem discovery_ends_false :
    ¬∀ (st : Settings) (d : Disk), d.IsTree → ∀ f, (exec (discover onDiskOnly st) { world := d }).1 ≠ .error (.unexpected f) := by
  intro h
  let st : Settings := { twoSlots with pattern := "a**" }
  have hdir : iconDisk.isDirectory st.inputDir = .ok true := isDirectory_eq_ok_iff.mpr ⟨["icons"], rfl, by decide +kernel⟩
  have hpart : "a**" ∈ (Path.ofString st.pattern).parts := by decide +kernel
  obtain ⟨g, hread⟩ := Pattern.read_error_iff.mpr (.doubleStar hpart (by decide) ⟨['a'], [], rfl⟩)
  have hfound : (exec (discover onDiskOnly st) { world := iconDisk }).1 = _ := discover_of_fault (listFiles_of_refused hdir hread)
  rw [faultFailure, not_isStorage_patternFault] at hfound
  exact h st iconDisk isTree_iconDisk _ hfound

end

end IconForge.Build
