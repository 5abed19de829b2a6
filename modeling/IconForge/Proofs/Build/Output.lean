import IconForge.Proofs.Build.Local
import IconForge.Proofs.Disk.Copying

/-!
# Where the output of a build lies

The components and the index lie below the place of the output directory, under fixed names. Once the directory of the components has
been made, the output is a directory at that place, and so the static files that are copied go there as well.
-/

namespace IconForge.Build

open Component Disk

variable {d d' : Disk} {st : Settings} {base : Location}

/-- A component is put below the place of the output directory, among the components. -/
theorem place_componentTarget (d : Disk) (st : Settings) (name : String) :
    d.place (componentTarget st name) = d.place st.outputDir ++ ["components", componentFilename name st.typescript] := by
  rw [componentTarget, place_child _ _ (componentFilename_ne_up _ _), Settings.componentsDir, place_child _ _ (by decide)]
  simp

theorem indexFilename_ne_up (typescript : Bool) : indexFilename typescript ≠ ".." := by cases typescript <;> decide

/-- The index is put in the output directory itself. -/
theorem place_indexTarget (d : Disk) (st : Settings) :
    d.place (indexTarget st) = d.place st.outputDir ++ [indexFilename st.typescript] :=
  place_child _ _ (indexFilename_ne_up _)

theorem isWritten_componentsDir (h : st.outputDir.IsWritten) : st.componentsDir.IsWritten := h.child (by decide) (by decide)

/-- A usable name gives a target that can be written as a path. -/
theorem isWritten_componentTarget (h : st.outputDir.IsWritten) {name : String} (hname : isUsable name = true) :
    (componentTarget st name).IsWritten :=
  (isWritten_componentsDir h).child (isPart_componentFilename _ _) (slash_not_mem_componentFilename hname _)

theorem isWritten_indexTarget (h : st.outputDir.IsWritten) : (indexTarget st).IsWritten :=
  h.child (by cases st.typescript <;> decide) (by cases st.typescript <;> decide)

/-- Once the directory of the components is there, the output is a directory, and its written form leads there. -/
theorem leads_outputDir (hw : st.outputDir.IsWritten) (hstart : SameStart d d') (h : d'.isDirectory st.componentsDir = .ok true) :
    Leads d' st.outputDir.toString (d.place st.outputDir) ∧ d'.hasDirectory (d.place st.outputDir) = true := by
  obtain ⟨l, hl, -⟩ := isDirectory_eq_ok_iff.mp h
  obtain ⟨base, hbase, hdir, hkept, -⟩ := (locate_child_eq_ok_iff (by decide)).mp hl
  have hplace : base = d.place st.outputDir := locate_eq_place hstart hbase (.inr hkept)
  rw [← hplace]
  exact ⟨⟨Path.toString_ne_empty hw, by rw [Path.ofString_toString hw]; exact hbase, hkept⟩, hdir⟩

/-! ## Static files -/

/-- The packaged files have names that no path takes for a step. -/
theorem isName_staticFiles : ∀ file ∈ staticFiles, IsName file.1 := by
  intro file hfile
  obtain rfl := List.mem_singleton.mp hfile
  have hname : IsName "README.md" := by decide
  exact hname

theorem nodup_staticFiles : (staticFiles.map (·.1)).Nodup := List.pairwise_singleton _ _

/-- Copying static files fills the output only. -/
theorem copyStaticOf_fills {target : Path} (htree : d.IsTree) (h : Leads d target.toString base) (source? : Option Path) :
    Fills base d (copyStaticOf source? target d).2 := by
  unfold copyStaticOf
  split
  · exact copyStatic_fills htree h _
  · exact copyFiles_fills htree h Workspace.staticSource isName_staticFiles

end IconForge.Build
