import IconForge.Build.Run

/-!
# Checking names

The names of some files pass the check when each is usable and no two are the same (`WellNamed`). Otherwise the check stops
at the first file whose name offends against this, those before it being well named (`checkNames_cases`).
-/

namespace IconForge.Build

open Component

/-- The icon that a file is. -/
def iconOf (naming : Naming) (path : Path) : Icon := ⟨path, identifier naming path⟩

/-- The files of icons are the files that the icons are. -/
theorem map_path_iconOf (naming : Naming) (paths : List Path) : (paths.map (iconOf naming)).map (·.path) = paths := by
  rw [List.map_map]
  exact List.map_id _

/-- The names of icons are those of their files. -/
theorem map_name_iconOf (naming : Naming) (paths : List Path) :
    (paths.map (iconOf naming)).map (·.name) = paths.map (identifier naming) := by
  rw [List.map_map]
  rfl

/-- Files whose names can be used and told apart. -/
structure WellNamed (naming : Naming) (paths : List Path) : Prop where
  usable : ∀ path ∈ paths, isUsable (identifier naming path) = true
  distinct : (paths.map (identifier naming)).Nodup

/-- What is wrong with the name of a file, behind files that are well named. -/
inductive Offends (naming : Naming) (before : List Path) (path : Path) : BuildError → Prop where
  | unusable : isUsable (identifier naming path) = false → Offends naming before path (.unusableName path (identifier naming path))
  | duplicate {earlier : Path} : isUsable (identifier naming path) = true → earlier ∈ before →
      identifier naming earlier = identifier naming path →
      Offends naming before path (.duplicateName path earlier (identifier naming path))

section
variable {naming : Naming} {before paths : List Path} {path : Path}

theorem WellNamed.nil (naming : Naming) : WellNamed naming [] := ⟨by simp, by simp⟩

/-- One more file is well named when its name is usable and new. -/
theorem WellNamed.concat (h : WellNamed naming before) (hu : isUsable (identifier naming path) = true)
    (hn : ∀ earlier ∈ before, identifier naming earlier ≠ identifier naming path) : WellNamed naming (before ++ [path]) where
  usable p hp := by
    rcases List.mem_append.mp hp with hp | hp
    · exact h.usable p hp
    · rw [List.mem_singleton.mp hp]
      exact hu
  distinct := by
    rw [List.map_append, List.nodup_append]
    refine ⟨h.distinct, by simp, ?_⟩
    intro a ha b hb
    obtain ⟨earlier, he, rfl⟩ := List.mem_map.mp ha
    rw [List.map_singleton, List.mem_singleton] at hb
    rw [hb]
    exact hn earlier he

/-- Files are well named and pass the check, or the first one that offends is named by the error. -/
theorem checkNames_cases (paths : List Path) (h : WellNamed naming before) :
    (WellNamed naming (before ++ paths) ∧
      checkNames naming (before.map (iconOf naming)) paths = .ok ((before ++ paths).map (iconOf naming))) ∨
    ∃ more path after e, paths = more ++ path :: after ∧ WellNamed naming (before ++ more) ∧
      Offends naming (before ++ more) path e ∧ checkNames naming (before.map (iconOf naming)) paths = .error e := by
  induction paths generalizing before with
  | nil => exact .inl ⟨by simpa using h, by simp [checkNames]⟩
  | cons path rest ih =>
    unfold checkNames
    by_cases hu : isUsable (identifier naming path) = true
    · simp only [hu, Bool.not_true, Bool.false_eq_true, if_false]
      cases hf : (before.map (iconOf naming)).find? (·.name == identifier naming path) with
      | some icon =>
        refine .inr ⟨[], path, rest, _, rfl, by simpa using h, ?_, rfl⟩
        obtain ⟨earlier, he, rfl⟩ := List.mem_map.mp (List.mem_of_find?_eq_some hf)
        exact .duplicate hu (List.mem_append_left [] he) (by simpa [iconOf] using List.find?_some hf)
      | none =>
        have hnew : ∀ earlier ∈ before, identifier naming earlier ≠ identifier naming path := by
          intro earlier he
          simpa [iconOf] using List.find?_eq_none.mp hf (iconOf naming earlier) (List.mem_map_of_mem he)
        have hseen : before.map (iconOf naming) ++ [⟨path, identifier naming path⟩] = (before ++ [path]).map (iconOf naming) := by
          simp [iconOf]
        simp only [hseen]
        rcases ih (h.concat hu hnew) with ⟨hw, hc⟩ | ⟨more, offender, after, e, hr, hw, ho, hc⟩
        · rw [List.append_assoc] at hw hc
          exact .inl ⟨hw, hc⟩
        · rw [List.append_assoc] at hw ho
          exact .inr ⟨path :: more, offender, after, e, by rw [hr]; rfl, hw, ho, hc⟩
    · simp only [hu, Bool.not_false, if_true]
      exact .inr ⟨[], path, rest, _, rfl, by simpa using h, .unusable (by simpa using hu), rfl⟩

/-- Files that pass the check are well named, and the icons are these files in their order. -/
theorem checkNames_eq_ok {icons : List Icon} (h : checkNames naming [] paths = .ok icons) :
    WellNamed naming paths ∧ icons = paths.map (iconOf naming) := by
  rcases checkNames_cases paths (WellNamed.nil naming) with ⟨hw, hc⟩ | ⟨_, _, _, e, _, _, _, hc⟩
  · exact ⟨hw, Except.ok.inj (h.symm.trans hc)⟩
  · exact nomatch h.symm.trans hc

/-- The check stops at the first file that offends. -/
theorem checkNames_eq_error {e : BuildError} (h : checkNames naming [] paths = .error e) :
    ∃ before path after, paths = before ++ path :: after ∧ WellNamed naming before ∧ Offends naming before path e := by
  rcases checkNames_cases paths (WellNamed.nil naming) with ⟨_, hc⟩ | ⟨before, path, after, e', hp, hw, ho, hc⟩
  · exact nomatch h.symm.trans hc
  · exact ⟨before, path, after, hp, hw, Except.error.inj (h.symm.trans hc) ▸ ho⟩

end

end IconForge.Build
