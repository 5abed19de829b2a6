import IconForge.Proofs.Component.Camel
import IconForge.Proofs.Component.Everywhere
import IconForge.Proofs.Markup.Attributes

/-!
# Translation reaches a normal form

An attribute is normal when no rule of the translation applies to it. Camel case leaves a name that another rule applies to exactly of
such a name with separators behind it (`camelize_mem_ruledNames_iff`). A tree without those names becomes normal, at every depth, and
keeps its shape; the trees that stay as they are are the normal ones whose elements have attributes of distinct names. So the
translation of such a tree is not translated any further (`translateTree_normalizes`).

Attributes whose names become one are merged: the first one gives the place and the last one the value (`translateAttributes_merges`).
-/

namespace IconForge.Component

open Markup

/-! ## Attributes -/

/-- An attribute that no rule applies to. -/
structure IsNormalAttribute (a : String × String) : Prop where
  no_hyphen : '-' ∉ a.1.toList
  no_colon : ':' ∉ a.1.toList
  ne_class : a.1 ≠ "class"
  ne_for : a.1 ≠ "for"
  paint : a.1 = "fill" ∨ a.1 = "stroke" → a.2 = "" ∨ a.2 = "none" ∨ a.2 = "currentColor"

/-- The names without separators that a rule applies to. -/
def ruledNames : List String := ["class", "for", "fill", "stroke"]

/-- A name that a rule applies to, with separators behind it. -/
def Clashes (name : String) : Prop :=
  ∃ base ∈ ruledNames, ∃ separators : List Char,
    separators ≠ [] ∧ (∀ c ∈ separators, c = '-' ∨ c = ':') ∧ name.toList = base.toList ++ separators

/-- A name clashes if nothing but separators is behind a front that a rule applies to. -/
theorem clashes_iff {name : String} :
    Clashes name ↔ ∃ base ∈ ruledNames, base.toList.isPrefixOf name.toList = true ∧
      name.toList.drop base.toList.length ≠ [] ∧ (name.toList.drop base.toList.length).all isSeparator = true := by
  have hall : ∀ s : List Char, s.all isSeparator = true ↔ ∀ c ∈ s, c = '-' ∨ c = ':' := by
    simp [List.all_eq_true, isSeparator_iff]
  simp only [hall]
  constructor
  · rintro ⟨base, hmem, separators, hne, hseparators, hsplit⟩
    have hdrop : name.toList.drop base.toList.length = separators := by rw [hsplit, List.drop_left]
    exact ⟨base, hmem, by simp [hsplit], hdrop ▸ hne, hdrop ▸ hseparators⟩
  · rintro ⟨base, hmem, hprefix, hne, hseparators⟩
    obtain ⟨separators, hsplit⟩ := List.isPrefixOf_iff_prefix.mp hprefix
    have hdrop : name.toList.drop base.toList.length = separators := by rw [← hsplit, List.drop_left]
    exact ⟨base, hmem, separators, hdrop ▸ hne, hdrop ▸ hseparators, hsplit.symm⟩

instance (name : String) : Decidable (Clashes name) := decidable_of_iff' _ clashes_iff

/-- The names that have a rule of their own are written small. -/
theorem isLower_of_mem_ruledNames : ∀ base ∈ ruledNames, ∀ c ∈ base.toList, c.isLower = true := by
  have hall : ∀ base ∈ ruledNames, base.toList.all Char.isLower = true := by decide
  exact fun base hbase => List.all_eq_true.mp (hall base hbase)

/-- Of a name with separators camel case leaves one that another rule applies to exactly if it clashes. -/
theorem camelize_mem_ruledNames_iff {name : String} (h : name.toList.any isSeparator = true) :
    camelize name ∈ ruledNames ↔ Clashes name := by
  have hcamel : ∀ base : String, camelize name = base ↔ camelFrom false name.toList = base.toList := by
    intro base
    rw [camelize, ← String.toList_inj, String.toList_ofList]
  constructor
  · intro hmem
    have hlower := isLower_of_mem_ruledNames _ hmem
    obtain ⟨separators, hseparators, hsplit⟩ := (camelFrom_eq_iff hlower).mp ((hcamel _).mp rfl)
    refine ⟨_, hmem, separators, ?_, fun c hc => isSeparator_iff.mp (hseparators c hc), hsplit⟩
    rintro rfl
    rw [List.append_nil] at hsplit
    obtain ⟨c, hc, hseparator⟩ := List.any_eq_true.mp h
    rw [hsplit] at hc
    rw [isSeparator_of_isLower (hlower c hc)] at hseparator
    cases hseparator
  · rintro ⟨base, hmem, separators, -, hseparators, hsplit⟩
    have hlower := isLower_of_mem_ruledNames _ hmem
    have hleft := (camelFrom_eq_iff hlower).mpr ⟨separators, fun c hc => isSeparator_iff.mpr (hseparators c hc), hsplit⟩
    rwa [(hcamel base).mpr hleft]

/-- A name without separators has neither a hyphen nor a colon. -/
theorem any_isSeparator_eq_false_iff {name : String} :
    name.toList.any isSeparator = false ↔ '-' ∉ name.toList ∧ ':' ∉ name.toList := by
  rw [List.any_eq_false]
  constructor
  · intro h
    exact ⟨fun hmem => h _ hmem rfl, fun hmem => h _ hmem rfl⟩
  · rintro ⟨hhyphen, hcolon⟩ c hc hseparator
    rcases isSeparator_iff.mp hseparator with rfl | rfl
    · exact hhyphen hc
    · exact hcolon hc

/-- Camel case has no separators. -/
theorem any_isSeparator_camelize (name : String) : (camelize name).toList.any isSeparator = false := by
  rw [List.any_eq_false, camelize, String.toList_ofList]
  intro c hc
  rw [isSeparator_of_mem_camelFrom hc]
  exact Bool.false_ne_true

/-- Two names are reserved. -/
theorem get?_reservedProperties_eq_none_iff {name : String} :
    Attributes.get? name reservedProperties = none ↔ name ≠ "class" ∧ name ≠ "for" := by
  simp only [reservedProperties, Attributes.get?]
  split <;> simp_all [eq_comm]

/-- The names that stand in for reserved ones need no further rule. -/
theorem reservedProperties_unruled : ∀ r ∈ reservedProperties, r.2.toList.any isSeparator = false ∧ r.2 ∉ ruledNames := by decide

/-- Whatever a name was, no separators are left. -/
theorem any_isSeparator_translateAttribute (name value : String) :
    (translateAttribute name value).1.toList.any isSeparator = false := by
  unfold translateAttribute
  split
  case isTrue => exact any_isSeparator_camelize name
  case isFalse hseparated =>
    split
    case h_1 property hproperty => exact (reservedProperties_unruled _ (Attributes.mem_of_get? hproperty)).1
    case h_2 => split <;> exact Bool.eq_false_iff.mpr hseparated

/-- A name without separators that no rule is about is normal. -/
theorem IsNormalAttribute.of_unruled {a : String × String} (hunseparated : a.1.toList.any isSeparator = false)
    (h : a.1 ∉ ruledNames) : IsNormalAttribute a := by
  obtain ⟨hhyphen, hcolon⟩ := any_isSeparator_eq_false_iff.mp hunseparated
  simp only [ruledNames, List.mem_cons, List.not_mem_nil, or_false, not_or] at h
  obtain ⟨hclass, hfor, hfill, hstroke⟩ := h
  exact ⟨hhyphen, hcolon, hclass, hfor, fun hpaint => (hpaint.elim hfill hstroke).elim⟩

/-- The rules are tried in order: separators, reserved names, paint. The last one leaves every name that the others do not apply to,
and the first two leave names that no rule applies to. -/
theorem isNormalAttribute_translateAttribute {name : String} (h : ¬Clashes name) (value : String) :
    IsNormalAttribute (translateAttribute name value) := by
  unfold translateAttribute
  split
  case isTrue hseparated =>
    exact .of_unruled (any_isSeparator_camelize name) ((camelize_mem_ruledNames_iff hseparated).not.mpr h)
  case isFalse hseparated =>
    split
    case h_1 property hproperty =>
      obtain ⟨hunseparated, hunruled⟩ := reservedProperties_unruled _ (Attributes.mem_of_get? hproperty)
      exact .of_unruled hunseparated hunruled
    case h_2 hnone =>
      obtain ⟨hhyphen, hcolon⟩ := any_isSeparator_eq_false_iff.mp (Bool.eq_false_iff.mpr hseparated)
      obtain ⟨hclass, hfor⟩ := get?_reservedProperties_eq_none_iff.mp hnone
      split
      case isTrue => exact ⟨hhyphen, hcolon, hclass, hfor, fun _ => .inr (.inr rfl)⟩
      case isFalse hpaint =>
        refine ⟨hhyphen, hcolon, hclass, hfor, fun hname => ?_⟩
        have hcontains : paintAttributes.contains name = true := by rcases hname with rfl | rfl <;> decide
        simp only [hcontains, Bool.true_and, Bool.and_eq_true, bne_iff_ne, not_and_or, not_not] at hpaint
        exact hpaint.imp_right .inl

-- A rule may be left to apply to a name that clashes.
example : translateAttribute "fill-" "red" = ("fill", "red") ∧ translateAttribute "fill" "red" = ("fill", "currentColor") := by
  decide

/-- A normal attribute is translated to itself. -/
theorem translateAttribute_of_normal {a : String × String} (h : IsNormalAttribute a) : translateAttribute a.1 a.2 = a := by
  have hunseparated : ¬a.1.toList.any isSeparator = true :=
    Bool.eq_false_iff.mp (any_isSeparator_eq_false_iff.mpr ⟨h.no_hyphen, h.no_colon⟩)
  rw [translateAttribute, if_neg hunseparated, get?_reservedProperties_eq_none_iff.mpr ⟨h.ne_class, h.ne_for⟩]
  simp only
  split
  case isTrue hpaint =>
    simp only [Bool.and_eq_true, bne_iff_ne, paintAttributes, List.contains_iff_mem, List.mem_cons, List.not_mem_nil,
      or_false] at hpaint
    obtain ⟨⟨hname, hempty⟩, hnone⟩ := hpaint
    have hvalue := ((h.paint hname).resolve_left hempty).resolve_left hnone
    exact Prod.ext rfl hvalue.symm
  case isFalse => rfl

/-! ## Attributes whose names become one -/

/-- The names that are left are the translated ones, each where it first arrives, and the value of each is that of the last attribute
that becomes it. No attribute drops out exactly if the translated names are distinct, and exactly then the attributes are translated
place by place. -/
theorem translateAttributes_merges (attrs : Attributes) :
    let translated : Attributes := attrs.map fun a => translateAttribute a.1 a.2
    (translateAttributes attrs).names = translated.names.eraseDups ∧
      (∀ name, Attributes.get? name (translateAttributes attrs) = (translated.filter fun a => a.1 = name).getLast?.map (·.2)) ∧
      ((translateAttributes attrs).length = attrs.length ↔ translated.names.Nodup) ∧
      (translateAttributes attrs = translated ↔ translated.names.Nodup) := by
  intro translated
  have hlength : translated.length = attrs.length := List.length_map _
  refine ⟨Attributes.names_ofPairs translated, fun name => Attributes.get?_ofPairs name translated, ?_, ?_⟩
  · rw [← hlength]
    exact Attributes.length_ofPairs_eq_iff
  · constructor
    · intro hsame
      rw [← hsame]
      exact Attributes.nodup_names_ofPairs translated
    · intro hdistinct
      exact Attributes.ofPairs_of_nodup hdistinct

-- The property of `stroke-width` keeps its place and takes the value of `strokeWidth`, around which other attributes are merged too.
example : translateAttributes
      [("stroke-width", "1"), ("class", "a"), ("strokeWidth", "2"), ("a-b", "3"), ("className", "b"), ("a:b", "4")] =
    [("strokeWidth", "2"), ("className", "b"), ("aB", "4")] := by decide

/-! ## Nodes -/

/-- A node whose attributes are normal. -/
def IsNormal (node : Node) : Prop := ∀ a ∈ node.attributes, IsNormalAttribute a

/-- A node without attributes that clash. -/
def IsUnclashing (node : Node) : Prop := ∀ a ∈ node.attributes, ¬Clashes a.1

instance (node : Node) : Decidable (IsUnclashing node) := inferInstanceAs (Decidable (∀ a ∈ node.attributes, ¬Clashes a.1))

/-- A node whose attributes have distinct names. -/
def HasDistinctNames (node : Node) : Prop := node.attributes.names.Nodup

/-- Every attribute of the translation is the translation of one. -/
theorem exists_of_mem_translateAttributes {attrs : Attributes} {a : String × String} (h : a ∈ translateAttributes attrs) :
    ∃ b ∈ attrs, translateAttribute b.1 b.2 = a := List.mem_map.mp (Attributes.mem_of_mem_ofPairs h)

/-- Normal attributes with distinct names are translated to themselves. -/
theorem translateAttributes_of_normal {attrs : Attributes} (h : ∀ a ∈ attrs, IsNormalAttribute a) (hdistinct : attrs.names.Nodup) :
    translateAttributes attrs = attrs := by
  have hsame : attrs.map (fun a => translateAttribute a.1 a.2) = attrs :=
    (List.map_congr_left fun a ha => translateAttribute_of_normal (h a ha)).trans (List.map_id attrs)
  rw [translateAttributes, hsame]
  exact Attributes.ofPairs_of_nodup hdistinct

/-! ## Trees -/

mutual

/-- A tree without the attributes of its elements. -/
def bare : Node → Node
  | ⟨tag, _, children, text, tail⟩ => ⟨tag, [], bareAll children, text, tail⟩

/-- The trees of a list of siblings without attributes. -/
def bareAll : List Node → List Node
  | [] => []
  | node :: rest => bare node :: bareAll rest

end

mutual

/-- A translated tree has the tags, texts and tails of the tree, and as many children in the same order. -/
theorem bare_translateTree : ∀ tree : Node, bare (translateTree tree) = bare tree
  | ⟨tag, attributes, children, text, tail⟩ => by rw [translateTree, bare, bare, bareAll_translateTrees children]

theorem bareAll_translateTrees : ∀ trees : List Node, bareAll (translateTrees trees) = bareAll trees
  | [] => rfl
  | tree :: rest => by rw [translateTrees, bareAll, bareAll, bare_translateTree tree, bareAll_translateTrees rest]

end

/-- Trees in a row are translated one by one. -/
theorem translateTrees_eq_map (trees : List Node) : translateTrees trees = trees.map translateTree := by
  induction trees with
  | nil => rfl
  | cons tree trees ih => rw [translateTrees, ih, List.map_cons]

/-- A tree keeps its tag and its texts; its attributes and its children are translated. -/
theorem translateTree_eq (tree : Node) :
    translateTree tree =
      { tree with attributes := translateAttributes tree.attributes, children := tree.children.map translateTree } := by
  obtain ⟨tag, attributes, children, text, tail⟩ := tree
  rw [translateTree, translateTrees_eq_map]

/-- What translating a node brings about, translating a tree brings about everywhere. -/
theorem Everywhere.translateTree {p q : Node → Prop} (hpq : ∀ node, p node → q (translateTree node)) {tree : Node}
    (h : Everywhere p tree) : Everywhere q (translateTree tree) := by
  induction h with
  | intro here _ ih =>
    refine .intro (hpq _ here) fun child hchild => ?_
    rw [translateTree_eq] at hchild
    obtain ⟨original, horiginal, rfl⟩ := List.mem_map.mp hchild
    exact ih original horiginal

/-- A node whose names do not clash is normal once it is translated. -/
theorem isNormal_translateTree {node : Node} (h : IsUnclashing node) : IsNormal (translateTree node) := by
  intro a ha
  rw [translateTree_eq] at ha
  obtain ⟨b, hb, rfl⟩ := exists_of_mem_translateAttributes ha
  exact isNormalAttribute_translateAttribute (h b hb) b.2

/-- The attributes of a translated node have distinct names. -/
theorem hasDistinctNames_translateTree (node : Node) : HasDistinctNames (translateTree node) := by
  rw [HasDistinctNames, translateTree_eq]
  exact Attributes.nodup_names_ofPairs _

/-- Names that clash are not left. -/
theorem isUnclashing_translateTree (node : Node) : IsUnclashing (translateTree node) := by
  intro a ha hclash
  rw [translateTree_eq] at ha
  obtain ⟨b, -, rfl⟩ := exists_of_mem_translateAttributes ha
  obtain ⟨base, -, separators, hne, hseparators, hsplit⟩ := hclash
  obtain ⟨c, hc⟩ := List.exists_mem_of_ne_nil separators hne
  have hnone := List.any_eq_false.mp (any_isSeparator_translateAttribute b.1 b.2) c (by rw [hsplit]; exact List.mem_append_right _ hc)
  exact hnone (isSeparator_iff.mpr (hseparators c hc))

/-- A normal tree is translated to itself. -/
theorem translateTree_of_normal {tree : Node} (h : Everywhere (fun node => IsNormal node ∧ HasDistinctNames node) tree) :
    translateTree tree = tree := by
  induction h with
  | @intro node here _ ih =>
    have hchildren : node.children.map translateTree = node.children := (List.map_congr_left ih).trans (List.map_id _)
    have hattributes := translateAttributes_of_normal here.1 here.2
    rw [translateTree_eq, hattributes, hchildren]
    cases node with
    | mk => rfl

/-- A tree whose names do not clash is normal everywhere once it is translated. -/
theorem everywhere_isNormal_translateTree {tree : Node} (h : Everywhere IsUnclashing tree) :
    Everywhere IsNormal (translateTree tree) := h.translateTree fun _ => isNormal_translateTree

/-- What every translated node has, a translated tree has everywhere. -/
theorem everywhere_translateTree {q : Node → Prop} (h : ∀ node, q (translateTree node)) (tree : Node) :
    Everywhere q (translateTree tree) :=
  (Everywhere.of_forall (p := fun _ => True) (fun _ => trivial) tree).translateTree fun node _ => h node

/-- The trees that stay as they are are the normal ones of distinct names. -/
theorem translateTree_eq_self_iff {tree : Node} :
    translateTree tree = tree ↔ Everywhere IsNormal tree ∧ Everywhere HasDistinctNames tree := by
  constructor
  · -- A tree that stays as it is is a translated one, and no name of those has separators left.
    intro h
    have hunclashing : Everywhere IsUnclashing tree := h ▸ everywhere_translateTree isUnclashing_translateTree tree
    exact ⟨h ▸ everywhere_isNormal_translateTree hunclashing, h ▸ everywhere_translateTree hasDistinctNames_translateTree tree⟩
  · rintro ⟨hnormal, hdistinct⟩
    exact translateTree_of_normal (hnormal.and hdistinct)

/-- A tree without names that clash becomes normal, and no tree changes its shape. Exactly the normal trees whose elements have
attributes of distinct names stay as they are. So a tree without names that clash is translated once and for all. -/
theorem translateTree_normalizes (tree : Node) :
    (Everywhere IsUnclashing tree → Everywhere IsNormal (translateTree tree)) ∧
      bare (translateTree tree) = bare tree ∧
      (translateTree tree = tree ↔ Everywhere IsNormal tree ∧ Everywhere HasDistinctNames tree) ∧
      (Everywhere IsUnclashing tree → translateTree (translateTree tree) = translateTree tree) := by
  refine ⟨everywhere_isNormal_translateTree, bare_translateTree tree, translateTree_eq_self_iff, fun h => ?_⟩
  exact translateTree_eq_self_iff.mpr ⟨everywhere_isNormal_translateTree h, everywhere_translateTree hasDistinctNames_translateTree tree⟩

/-- An icon with a reserved name, paint, and names with separators, two of which are left as one. -/
def layeredIcon : Node :=
  ⟨"svg", [("class", "icon"), ("stroke-width", "2"), ("fill", "red")],
    [⟨"use", [("xlink:href", "#a"), ("-fill", "blue"), ("xlinkHref", "#b"), ("stroke", "none")], [], "", "next"⟩], "", ""⟩

/-- An icon with every kind of name in it, in its normal form. -/
theorem translateTree_normalizes_layered :
    Everywhere IsUnclashing layeredIcon ∧ Everywhere IsNormal (translateTree layeredIcon) ∧
      translateTree (translateTree layeredIcon) = translateTree layeredIcon ∧
      translateTree layeredIcon =
        ⟨"svg", [("className", "icon"), ("strokeWidth", "2"), ("fill", "currentColor")],
          [⟨"use", [("xlinkHref", "#b"), ("Fill", "blue"), ("stroke", "none")], [], "", "next"⟩], "", ""⟩ := by
  have hroot : IsUnclashing layeredIcon := by decide
  have hchild : ∀ child ∈ layeredIcon.children, Everywhere IsUnclashing child := by
    intro child hchild
    obtain rfl := List.mem_singleton.mp hchild
    exact .intro (by decide) nofun
  obtain ⟨hnormal, -, -, hstays⟩ := translateTree_normalizes layeredIcon
  exact ⟨.intro hroot hchild, hnormal (.intro hroot hchild), hstays (.intro hroot hchild), rfl⟩

end IconForge.Component
