import IconForge.Proofs.Build.Success
import IconForge.Proofs.Component.Name
import IconForge.Proofs.Component.RoundTrip

/-!
# What a component module binds

A component module begins with two bindings: the name of its import and the constant that is the component. It is hygienic when
the constant can be bound there: its name is a plain name and no reserved word, differs from that of the import, and is none of
those that the module relies on. The check of the names lets pass what breaks this: modules of usable names are hygienic exactly
if the name without its line feed is none of those (`hygienic_iff`), and the component of `react.svg` in the joined style is called
like the import (`hygienic_react_false`).
-/

namespace IconForge.Component

open Text Reading

/-- The names that a module text binds at its top: that of its import, and that of its constant. -/
def bindings? (source : List Char) : Option (List Char × List Char) := do
  let s ← behind? "import ".toList source
  let imported := s.takeWhile isIdentifierChar
  let s ← behind? " from 'react';\n\nconst ".toList (s.dropWhile isIdentifierChar)
  let constant := s.takeWhile isIdentifierChar
  let _ ← behind? ['='] (trimLeft (s.dropWhile isIdentifierChar))
  some (imported, constant)

/-- The names that a module relies on besides those that its own function binds: elements are made by the one, and a size that is
not declared is the other. -/
def reliedNames : List String := ["React", "undefined"]

/-- A module whose constant can be bound where it stands. -/
structure Hygienic (source : String) : Prop where
  bound : ∃ imported constant, bindings? source.toList = some (imported, constant) ∧ IsPlainName constant ∧
    constant ∉ reservedWords.map String.toList ∧ constant ≠ imported ∧ constant ∉ reliedNames.map String.toList

/-- A name without a line feed behind it. -/
def bareName (name : String) : List Char := name.toList.takeWhile isIdentifierChar

/-- A usable name is a plain name, with a line feed behind it at the most. -/
theorem bareName_of_isUsable {name : String} (h : isUsable name = true) :
    IsPlainName (bareName name) ∧ (name.toList = bareName name ∨ name.toList = bareName name ++ ['\n']) := by
  obtain ⟨⟨bare, hbare, hname⟩, -⟩ := (isUsable_iff name).mp h
  have heq : bareName name = bare := by
    unfold bareName
    rcases hname with hname | hname
    · rw [hname]
      exact (takeWhile_of_all hbare.isIdentifierChar).1
    · rw [hname]
      exact (takeWhile_append_cons hbare.isIdentifierChar (by decide) []).1
  rw [heq]
  exact ⟨hbare, hname⟩

/-- A module of a usable name binds its import and the name without its line feed. -/
theorem bindings?_moduleSource {name : String} (h : isUsable name = true) (typescript : Bool) (root : Markup.Node) :
    bindings? (moduleSource name typescript root).toList = some ("React".toList, bareName name) := by
  obtain ⟨hbare, hname⟩ := bareName_of_isUsable h
  obtain ⟨rest, hsource⟩ : ∃ rest, (moduleSource name typescript root).toList =
      "import ".toList ++ ("React".toList ++ (" from 'react';\n\nconst ".toList ++ (name.toList ++ (' ' :: '=' :: rest)))) := by
    have hopen : "import React from 'react';\n\nconst ".toList =
        "import ".toList ++ ("React".toList ++ " from 'react';\n\nconst ".toList) := by decide
    have hprops : " = (props".toList = ' ' :: '=' :: " (props".toList := by decide
    unfold moduleSource
    -- What stands behind the parameter is kept out of the way.
    simp only [String.append_assoc]
    rw [String.toList_append, String.toList_append, String.toList_append, hopen, hprops]
    simp only [List.append_assoc, List.cons_append]
    exact ⟨_, rfl⟩
  have hreact : ∀ c ∈ "React".toList, isIdentifierChar c = true := List.all_eq_true.mp (by decide)
  have himport := takeWhile_append_cons hreact (c := ' ') (by decide)
    ("from 'react';\n\nconst ".toList ++ (name.toList ++ (' ' :: '=' :: rest)))
  obtain ⟨gap, hgap, hsplit⟩ : ∃ gap, trimLeft gap = '=' :: rest ∧
      ((name.toList ++ (' ' :: '=' :: rest)).takeWhile isIdentifierChar = bareName name ∧
        (name.toList ++ (' ' :: '=' :: rest)).dropWhile isIdentifierChar = gap) := by
    rcases hname with hname | hname
    · exact ⟨' ' :: '=' :: rest, rfl, hname ▸ takeWhile_append_cons hbare.isIdentifierChar (by decide) _⟩
    · refine ⟨'\n' :: ' ' :: '=' :: rest, rfl, ?_⟩
      rw [hname, List.append_assoc]
      exact takeWhile_append_cons hbare.isIdentifierChar (by decide) _
  have hfrom : " from 'react';\n\nconst ".toList = ' ' :: "from 'react';\n\nconst ".toList := rfl
  rw [bindings?, hsource, behind?_append, Option.bind_eq_bind, Option.bind_some, hfrom, List.cons_append, himport.1, himport.2,
    ← List.cons_append, ← hfrom, behind?_append]
  simp only [Option.bind_some, hsplit.1, hsplit.2, hgap]
  rfl

/-- What is rendered is the module of a tree. -/
theorem exists_root_of_render {name markup source : String} {typescript : Bool} (h : render name typescript markup = .ok source) :
    ∃ root, source = moduleSource name typescript root := by
  unfold render at h
  cases hp : Markup.parse markup with
  | error e =>
    rw [hp] at h
    cases h
  | ok root =>
    rw [hp] at h
    exact ⟨_, (Except.ok.inj h).symm⟩

/-- The module of a usable name is hygienic exactly if the name without its line feed is neither reserved nor relied on. -/
theorem hygienic_moduleSource_iff {name : String} (h : isUsable name = true) (typescript : Bool) (root : Markup.Node) :
    Hygienic (moduleSource name typescript root) ↔
      bareName name ∉ reservedWords.map String.toList ∧ bareName name ∉ reliedNames.map String.toList := by
  have hread := bindings?_moduleSource h typescript root
  constructor
  · rintro ⟨imported, constant, hbound, -, hreserved, -, hrelied⟩
    obtain ⟨-, rfl⟩ : "React".toList = imported ∧ bareName name = constant := by simpa [hread] using hbound
    exact ⟨hreserved, hrelied⟩
  · rintro ⟨hreserved, hrelied⟩
    refine ⟨_, _, hread, (bareName_of_isUsable h).1, hreserved, ?_, hrelied⟩
    intro himport
    exact hrelied (himport ▸ List.mem_map_of_mem (by decide))

end IconForge.Component

namespace IconForge.Build

open Component

/-- The name that an icon is found under passed the check. -/
theorem isUsable_of_discover {σ : Type} {c : Collaborators σ} {st : Settings} {s t : Session σ} {icons : List Icon}
    (h : exec (discover c st) s = (.ok icons, t)) : ∀ icon ∈ icons, isUsable icon.name = true := by
  obtain ⟨paths, rfl, hw, -⟩ := discover_eq_ok h
  intro icon hicon
  obtain ⟨path, hpath, rfl⟩ := List.mem_map.mp hicon
  exact hw.usable path hpath

/-- Whatever icons are found, the module that is rendered for one of them is hygienic exactly if its name, without a line feed
behind it, is no reserved word and none of the names that a module relies on. -/
theorem hygienic_iff {σ : Type} {c : Collaborators σ} {st : Settings} {s t : Session σ} {icons : List Icon}
    (h : exec (discover c st) s = (.ok icons, t)) {icon : Icon} (hicon : icon ∈ icons) {typescript : Bool}
    {markup source : String} (hrender : render icon.name typescript markup = .ok source) :
    Hygienic source ↔
      bareName icon.name ∉ reservedWords.map String.toList ∧ bareName icon.name ∉ reliedNames.map String.toList := by
  obtain ⟨root, rfl⟩ := exists_root_of_render hrender
  exact hygienic_moduleSource_iff (isUsable_of_discover h icon hicon) typescript root

/-- A directory with one icon of the least markup. -/
def oneIcon (name : String) : Collaborators Unit := obliging [(⟨.here, ["icons", name]⟩, "<svg/>")] fun _ markup => ⟨0, .ok markup⟩

/-- Markup that can be rendered has a module. -/
theorem exists_render {name markup : String} (h : (render name false markup).toOption.isSome = true) :
    ∃ source, render name false markup = .ok source := by
  obtain ⟨source, hs⟩ := Option.isSome_iff_exists.mp h
  exact ⟨source, eq_ok_of_toOption hs⟩

/-- The module of `home.svg` in the joined style. -/
theorem hygienic_iff_home :
    ∃ icons t source, exec (discover (oneIcon "home.svg") twoSlots) { world := () } = (.ok icons, t) ∧
      ⟨⟨.here, ["icons", "home.svg"]⟩, "Home"⟩ ∈ icons ∧ render "Home" false "<svg/>" = .ok source ∧ Hygienic source := by
  have hfound : (exec (discover (oneIcon "home.svg") twoSlots) { world := () }).1 = .ok [⟨⟨.here, ["icons", "home.svg"]⟩, "Home"⟩] :=
    eq_ok_of_toOption (by decide +kernel)
  obtain ⟨source, hrender⟩ := @exists_render "Home" "<svg/>" (by decide +kernel)
  refine ⟨_, _, source, Prod.ext hfound rfl, List.mem_singleton_self _, hrender, ?_⟩
  exact (hygienic_iff (Prod.ext hfound rfl) (List.mem_singleton_self _) hrender).mpr (by decide)

/-- Nothing keeps a component from being called like the import of its module: `react.svg` is found in the joined style. -/
theorem hygienic_react_false :
    ¬∀ (σ : Type) (c : Collaborators σ) (st : Settings) (s t : Session σ) (icons : List Icon),
      exec (discover c st) s = (.ok icons, t) → ∀ icon ∈ icons, ∀ (typescript : Bool) (markup source : String),
        render icon.name typescript markup = .ok source → Hygienic source := by
  intro h
  have hfound : (exec (discover (oneIcon "react.svg") twoSlots) { world := () }).1 =
      .ok [⟨⟨.here, ["icons", "react.svg"]⟩, "React"⟩] := eq_ok_of_toOption (by decide +kernel)
  obtain ⟨source, hrender⟩ := @exists_render "React" "<svg/>" (by decide +kernel)
  have hhygienic := h Unit _ _ _ _ _ (Prod.ext hfound rfl) _ (List.mem_singleton_self _) false "<svg/>" source hrender
  obtain ⟨root, rfl⟩ := exists_root_of_render hrender
  exact ((hygienic_moduleSource_iff (by decide) false root).mp hhygienic).2 (by decide)

end IconForge.Build
