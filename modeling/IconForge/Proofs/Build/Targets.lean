import IconForge.Proofs.Build.Names

/-!
# Where a build writes

Every component and the index have a file of their own, and the index finds the file of a component under the name by which it
exports it.
-/

namespace IconForge.Build

open Component

/-- The file of a component. -/
def componentTarget (st : Settings) (name : String) : Path := st.componentsDir.child (componentFilename name st.typescript)

/-- The file of the index. -/
def indexTarget (st : Settings) : Path := st.outputDir.child (indexFilename st.typescript)

/-- Components of different names have different files. -/
theorem componentTarget_inj {st : Settings} {a b : String} (h : componentTarget st a = componentTarget st b) : a = b := by
  have hn := congrArg Path.name h
  simp only [componentTarget, Path.name_child, componentFilename] at hn
  exact String.append_left_inj _ |>.mp hn

/-- The index is beside the directory of the components. -/
theorem componentTarget_ne_indexTarget (st : Settings) (name : String) : componentTarget st name ≠ indexTarget st := by
  intro h
  have hl := congrArg (fun p => p.parts.length) h
  simp [componentTarget, indexTarget, Path.child, Settings.componentsDir] at hl

/-- The files of components of different names and of the index are all different. -/
theorem targets_nodup {st : Settings} {names : List String} (h : names.Nodup) :
    (names.map (componentTarget st) ++ [indexTarget st]).Nodup := by
  rw [List.nodup_append]
  refine ⟨List.Pairwise.map _ (fun a b hab heq => hab (componentTarget_inj heq)) h, by simp, ?_⟩
  intro a ha b hb
  obtain ⟨name, -, rfl⟩ := List.mem_map.mp ha
  rw [List.mem_singleton.mp hb]
  exact componentTarget_ne_indexTarget st name

/-! ## The names in the index -/

theorem exportLine_length_pos (name : String) : 0 < (exportLine name).length := by
  have hend : "';\n".length = 3 := by decide
  unfold exportLine
  -- The rest is kept out of the way of unification, which would compute its length.
  generalize "export " ++ Text.braced ("default as " ++ name) ++ " from '" ++ moduleSpecifier name = start
  rw [String.length_append, hend]
  omega

/-- The index of no components is one empty line; every other one is the lines of its components. -/
theorem indexSource_eq (names : List String) :
    indexSource names = if names = [] then "\n" else String.join (names.map exportLine) := by
  cases names with
  | nil => rfl
  | cons name names =>
    have hne : String.join ((name :: names).map exportLine) ≠ "" := by
      rw [List.map_cons, String.join_cons]
      intro h
      have hl := congrArg String.length h
      have hpos := exportLine_length_pos name
      have hempty : "".length = 0 := by decide
      rw [String.length_append, hempty] at hl
      omega
    unfold indexSource
    rw [if_neg (List.cons_ne_nil _ _)]
    exact if_neg hne

/-- A usable name is no path of several parts. -/
theorem slash_not_mem_of_isUsable {name : String} (h : isUsable name = true) : '/' ∉ name.toList := by
  have hform : hasIdentifierForm name.toList = true := (Bool.and_eq_true_iff.mp h).1
  generalize name.toList = cs at hform
  cases cs with
  | nil => simp
  | cons c rest =>
    obtain ⟨hc, hrest⟩ := Bool.and_eq_true_iff.mp hform
    intro hmem
    rcases List.mem_cons.mp hmem with rfl | hmem
    · simp [isIdentifierStart] at hc
    · rw [← List.takeWhile_append_dropWhile (p := isIdentifierChar) (l := rest)] at hmem
      rcases List.mem_append.mp hmem with hm | hm
      · have hs := List.all_eq_true.mp List.all_takeWhile _ hm
        simp [isIdentifierChar] at hs
      · split at hrest
        · rename_i hd
          simp [hd] at hm
        · rename_i hd
          simp [hd] at hm
        · cases hrest

/-- The file name of a component with a usable name is not a path of several parts. -/
theorem slash_not_mem_componentFilename {name : String} (h : isUsable name = true) (typescript : Bool) :
    '/' ∉ (componentFilename name typescript).toList := by
  rw [componentFilename, String.toList_append, List.mem_append]
  rintro (hn | hs)
  · exact slash_not_mem_of_isUsable h hn
  · cases typescript <;> simp [componentSuffix] at hs

/-- No component is written to a file whose name is a step of a path. -/
theorem componentFilename_length (name : String) (typescript : Bool) : 2 < (componentFilename name typescript).toList.length := by
  have hsuffix : 2 < (componentSuffix typescript).toList.length := by cases typescript <;> decide
  rw [componentFilename, String.toList_append, List.length_append]
  omega

/-- The file name of a component does not lead back up. -/
theorem componentFilename_ne_up (name : String) (typescript : Bool) : componentFilename name typescript ≠ ".." := by
  intro h
  have hlen := componentFilename_length name typescript
  simp [h] at hlen

/-- The file name of a component is a part of a path. -/
theorem isPart_componentFilename (name : String) (typescript : Bool) : Path.isPart (componentFilename name typescript) = true := by
  have hlen := componentFilename_length name typescript
  simp only [Path.isPart, Bool.and_eq_true, bne_iff_ne]
  constructor
  · intro h
    simp [h] at hlen
  · intro h
    simp [h] at hlen

/-- Seen from the index, the module of a component is its file without the suffix. -/
theorem join_moduleSpecifier (st : Settings) {name : String} (h : isUsable name = true) :
    st.outputDir.join (Path.ofString (moduleSpecifier name ++ componentSuffix st.typescript)) = componentTarget st name := by
  have hslash := slash_not_mem_componentFilename h st.typescript
  have htext : (moduleSpecifier name ++ componentSuffix st.typescript).toList
      = ['.'] ++ '/' :: ("components".toList ++ '/' :: (componentFilename name st.typescript).toList) := by
    simp [moduleSpecifier, componentFilename]
  have hpath : Path.ofString (moduleSpecifier name ++ componentSuffix st.typescript)
      = ⟨.here, ["components", componentFilename name st.typescript]⟩ := by
    unfold Path.ofString Text.cutString
    rw [htext, Text.cut_append_cons (by simp), Text.cut_append_cons (by simp), Text.cut_of_not_mem hslash]
    have hdot : Path.isPart (String.ofList ['.']) = false := by decide
    have hcomponents : Path.isPart "components" = true := by decide
    simp only [List.map_cons, List.map_nil, String.ofList_toList, List.filter_cons, List.filter_nil, hdot, hcomponents,
      isPart_componentFilename, if_true, Bool.false_eq_true, if_false]
    rfl
  rw [hpath]
  simp [Path.join, Path.isAbsolute, componentTarget, Path.child, Settings.componentsDir]

end IconForge.Build
