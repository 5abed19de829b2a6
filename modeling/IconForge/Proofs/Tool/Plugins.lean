import IconForge.Proofs.Distinct
import IconForge.Proofs.Json.RoundTrip
import IconForge.Tool.Svgo

/-!
# What the optimizer's settings say

Plugins that are asked for are added one by one, each unless it is there already: those that always run are followed by the others, each
where it is asked for first (`plugins_new`). The text of the settings file reads back to exactly these plugins behind the preset, whatever
their names are (`settings_read_back`).
-/

namespace IconForge.Tool.Svgo

/-- Adding a plugin to plugins that are listed once is listing it with them. -/
theorem addPlugin_eraseDups (plugins : List String) (plugin : String) :
    addPlugin plugins.eraseDups plugin = (plugins ++ [plugin]).eraseDups := by
  rw [addPlugin, eraseDups_concat]
  simp only [List.contains_iff_mem, List.mem_eraseDups]

/-- Adding plugins one by one keeps the first of each. -/
theorem foldl_addPlugin (more plugins : List String) : more.foldl addPlugin plugins.eraseDups = (plugins ++ more).eraseDups := by
  induction more generalizing plugins with
  | nil => rw [List.foldl_nil, List.append_nil]
  | cons plugin more ih => rw [List.foldl_cons, addPlugin_eraseDups, ih, List.append_assoc, List.singleton_append]

/-- The plugins are those that always run and those that are asked for, each once. -/
theorem plugins_new_eq_eraseDups (executable? : Option String) (plugins : List String) :
    (new executable? plugins).plugins = (basePlugins ++ plugins).eraseDups := by
  have hbase : basePlugins.eraseDups = basePlugins := by decide
  have hlisted := foldl_addPlugin plugins basePlugins
  rwa [hbase] at hlisted

/-- The plugins that are asked for beside those that always run, each where it is asked for first. -/
def others (plugins : List String) : List String := (plugins.filter (· ∉ basePlugins)).eraseDups

/-- The plugins that always run are followed by the others that are asked for. -/
theorem plugins_new (executable? : Option String) (plugins : List String) :
    (new executable? plugins).plugins = basePlugins ++ others plugins := by
  have hbase : basePlugins.eraseDups = basePlugins := by decide
  have hothers : plugins.removeAll basePlugins = plugins.filter (· ∉ basePlugins) := by
    refine List.filter_congr fun plugin _ => ?_
    simp
  rw [plugins_new_eq_eraseDups, List.eraseDups_append, hbase, hothers, others]

/-! ## The settings file -/

open Json in
/-- What a settings file says has no numbers and names nothing twice. -/
theorem isPlain_settings (s : Svgo) : IsPlain s.settings := by
  have hplugin : ∀ v ∈ s.plugins.map Value.string, IsPlain v := by
    intro v hv
    obtain ⟨plugin, -, rfl⟩ := List.mem_map.mp hv
    exact .string plugin
  have hoverrides : IsPlain (.object [("overrides", .object [("removeViewBox", .bool false)])]) :=
    .object (by decide) (by simpa using IsPlain.object (by decide) (by simpa using .bool false))
  have hpreset : IsPlain (.object [("name", .string "preset-default"),
      ("params", .object [("overrides", .object [("removeViewBox", .bool false)])])]) := by
    refine .object (by decide) ?_
    simpa using ⟨IsPlain.string _, hoverrides⟩
  refine .object (by simp) ?_
  simpa using IsPlain.array (List.forall_mem_cons.mpr ⟨hpreset, hplugin⟩)

/-- The plugins are those that always run and then the others that are asked for, each where it is asked for first. The settings file is
an assignment of a text that says, when it is read, just this: the preset, which must keep the view box, and behind it these plugins with
their names as they are. -/
theorem settings_read_back (executable? : Option String) (plugins : List String) :
    (new executable? plugins).plugins = basePlugins ++ others plugins ∧ (new executable? plugins).plugins.Nodup ∧
      ∃ text, (new executable? plugins).configSource = "module.exports = " ++ text ++ ";\n" ∧
        Json.read text = .ok (.object [("plugins", .array (
          .object [("name", .string "preset-default"), ("params", .object [("overrides", .object [("removeViewBox", .bool false)])])]
            :: (basePlugins ++ others plugins).map .string))]) := by
  have hplugins := plugins_new executable? plugins
  have hdistinct : (new executable? plugins).plugins.Nodup := plugins_new_eq_eraseDups executable? plugins ▸ nodup_eraseDups _
  have hread : Json.read (Json.laidOut (new executable? plugins).settings) = .ok (new executable? plugins).settings :=
    Json.read_laidOut (isPlain_settings _)
  refine ⟨hplugins, hdistinct, Json.laidOut (new executable? plugins).settings, rfl, ?_⟩
  rw [hread, settings, hplugins]

-- A name with quotes, a control character and a character beyond the first plane is one of the plugins, once.
example : (new none ["removeTitle", "\"\\\n😀", "a", "\"\\\n😀"]).plugins =
    ["removeStyleElement", "removeTitle", "\"\\\n😀", "a"] := by decide

end IconForge.Tool.Svgo
