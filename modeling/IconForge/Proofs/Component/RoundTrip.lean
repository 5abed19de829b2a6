import IconForge.Proofs.Component.Everywhere
import IconForge.Proofs.Component.Reader
import IconForge.Xml.Char

/-!
# Element expressions are read back

Writing a tree as an element expression loses nothing: the reader gives the tree back (`element?_elementChars`), and from the
expression of a component it gives back the tree without the size of its root, together with what the root takes from the component
instead (`read?_expressions`). Every part is read back whatever stands behind it, so the parts can be put together.
-/

namespace IconForge.Xml

/-- A name: a character that may start one, and characters that may go on with it. -/
def isName (s : String) : Bool :=
  match s.toList with
  | [] => false
  | c :: rest => isNameStart c && rest.all isNameChar

theorem isNameChar_of_isNameStart {c : Char} (h : isNameStart c = true) : isNameChar c = true := by
  rw [isNameChar, h, Bool.true_or]

end IconForge.Xml

namespace IconForge.Component

open Markup

namespace Reading

/-! ## Items in a row -/

theorem behind?_append (mark rest : List Char) : behind? mark (mark ++ rest) = some rest := by
  have h : mark.isPrefixOf (mark ++ rest) = true := by simp
  rw [behind?, if_pos h, List.drop_left]

/-- A row of items is read back item by item, up to a rest that does not start with one. What may stand behind an item is said by
`follows`. -/
theorem many_flatMap {α : Type} {item? : List Char → Option (α × List Char)} {chars : α → List Char} {follows : List Char → Prop}
    {rest : List Char} (hrest : follows rest) (hstop : item? rest = none) {items : List α}
    (hitem : ∀ a ∈ items, chars a ≠ [] ∧ ∀ s, follows s → follows (chars a ++ s) ∧ item? (chars a ++ s) = some (a, s)) :
    many item? (items.flatMap chars ++ rest) = (items, rest) ∧ follows (items.flatMap chars ++ rest) := by
  induction items with
  | nil =>
    refine ⟨?_, hrest⟩
    rw [List.flatMap_nil, List.nil_append, many, hstop]
  | cons a items ih =>
    obtain ⟨hmore, hfollows⟩ := ih fun b hb => hitem b (List.mem_cons_of_mem _ hb)
    obtain ⟨hne, hread⟩ := hitem a List.mem_cons_self
    obtain ⟨hahead, hread⟩ := hread _ hfollows
    have hshorter : (items.flatMap chars ++ rest).length < (chars a ++ (items.flatMap chars ++ rest)).length := by
      have hpos := List.length_pos_iff.mpr hne
      have hlength : (chars a ++ (items.flatMap chars ++ rest)).length = (chars a).length + (items.flatMap chars ++ rest).length :=
        List.length_append
      omega
    rw [List.flatMap_cons, List.append_assoc]
    refine ⟨?_, hahead⟩
    rw [many, hread]
    simp only [hshorter, if_true, hmore]

/-- What every item of a row keeps, the row keeps. -/
theorem many_keeps {α : Type} {item? : List Char → Option (α × List Char)} {p : α → Prop} {q : List Char → Prop}
    (hitem : ∀ {s a rest}, item? s = some (a, rest) → q s → p a ∧ q rest) {s : List Char} (hs : q s) :
    (∀ a ∈ (many item? s).1, p a) ∧ q (many item? s).2 := by
  fun_induction many item? s with
  | case1 s hnone => exact ⟨nofun, hs⟩
  | case2 s a rest hsome hshorter more rest' hmore ih =>
    obtain ⟨ha, hrest⟩ := hitem hsome hs
    have hkeeps := ih hrest
    rw [hmore] at hkeeps
    exact ⟨List.forall_mem_cons.mpr ⟨ha, hkeeps.1⟩, hkeeps.2⟩
  | case3 s a rest hsome hlonger => exact ⟨nofun, hs⟩

/-! ## Names -/

/-- A text that is read as a name up to whatever ends it. -/
structure IsName (name : List Char) : Prop where
  ne_nil : name ≠ []
  inside : ∀ c ∈ name, endsName c = false

/-- A name is read up to the first character that ends it. -/
theorem name?_append {name : List Char} (h : IsName name) {c : Char} (hc : endsName c = true) (rest : List Char) :
    name? (name ++ c :: rest) = some (name, c :: rest) := by
  have hinside : ∀ d ∈ name, (!endsName d) = true := by simpa using h.inside
  have hends : (!endsName c) = false := by rw [hc, Bool.not_true]
  obtain ⟨htake, hdrop⟩ := Text.takeWhile_append_cons hinside hends rest
  rw [name?, htake, hdrop]
  cases name with
  | nil => exact absurd rfl h.ne_nil
  | cons d name => rfl

/-- The names of XML hold none of the characters that end a name. -/
theorem endsName_of_isNameChar {c : Char} (h : Xml.isNameChar c = true) : endsName c = false := by
  have hblank : Xml.isNameChar ' ' = false := by decide +kernel
  have hequals : Xml.isNameChar '=' = false := by decide +kernel
  have hslash : Xml.isNameChar '/' = false := by decide +kernel
  have hangle : Xml.isNameChar '>' = false := by decide +kernel
  have hbrace : Xml.isNameChar '{' = false := by decide +kernel
  rw [Bool.eq_false_iff]
  intro hends
  simp only [endsName, Bool.or_eq_true, decide_eq_true_eq] at hends
  rcases hends with (((rfl | rfl) | rfl) | rfl) | rfl <;> simp_all

/-- The names of markup are names of tags and attributes. -/
theorem isName_of_xml {name : String} (h : Xml.isName name = true) : IsName name.toList := by
  unfold Xml.isName at h
  split at h
  case h_1 => cases h
  case h_2 c rest hname =>
    obtain ⟨hstart, hrest⟩ := Bool.and_eq_true_iff.mp h
    rw [hname]
    refine ⟨by simp, fun d hd => endsName_of_isNameChar ?_⟩
    rcases List.mem_cons.mp hd with rfl | hd
    · exact Xml.isNameChar_of_isNameStart hstart
    · exact List.all_eq_true.mp hrest d hd

/-- A node whose tag and attribute names are read as names, without an inline style. -/
structure Plain (node : Node) : Prop where
  tag : IsName node.tag.toList
  attributes : ∀ a ∈ node.attributes, IsName a.1.toList ∧ a.1 ≠ "style"

/-! ## Tags -/

/-- A text that starts with a character that ends a name. -/
def StartsApart (s : List Char) : Prop := ∃ c rest, endsName c = true ∧ s = c :: rest

theorem startsApart_cons {c : Char} (h : endsName c = true) (rest : List Char) : StartsApart (c :: rest) := ⟨c, rest, h, rfl⟩

/-- An attribute is read back, with the text behind it left. -/
theorem attribute?_attributeChars {a : String × String} (hname : IsName a.1.toList) (hstyle : a.1 ≠ "style") (rest : List Char) :
    attribute? (attributeChars a ++ rest) = some (a, rest) := by
  have h : attributeChars a ++ rest = ' ' :: (a.1.toList ++ '=' :: (attributeValue a.1 a.2 ++ rest)) := by simp [attributeChars]
  have hequals : endsName '=' = true := by decide
  simp only [h, attribute?, name?_append hname hequals, value?_attributeValue hstyle, Option.map_some, Value.text_ofText,
    String.ofList_toList]

/-- A binding as it is written. -/
def Binding.chars : Binding → List Char
  | .property name identifier => ' ' :: name.toList ++ '=' :: '{' :: identifier.toList ++ ['}']
  | .spread identifier => ' ' :: '{' :: '.' :: '.' :: '.' :: identifier.toList ++ ['}']

/-- A binding that is read back and not taken for an attribute, whatever stands behind it. -/
structure Binding.Readable (b : Binding) : Prop where
  read : ∀ rest, binding? (b.chars ++ rest) = some (b, rest)
  no_attribute : ∀ rest, attribute? (b.chars ++ rest) = none

/-- What follows the attributes and bindings of a tag: its end, or the end of an element without content. -/
inductive EndsTag : List Char → Prop
  | paired (rest : List Char) : EndsTag ('>' :: rest)
  | closed (rest : List Char) : EndsTag (' ' :: '/' :: rest)

theorem EndsTag.startsApart {s : List Char} (h : EndsTag s) : StartsApart s := by
  cases h with
  | paired rest => exact startsApart_cons (by decide) rest
  | closed rest => exact startsApart_cons (by decide) _

theorem EndsTag.attribute? {s : List Char} (h : EndsTag s) : attribute? s = none := by
  cases h <;> rfl

theorem EndsTag.binding? {s : List Char} (h : EndsTag s) : binding? s = none := by
  cases h <;> rfl

/-- A tag is read back with its attributes and bindings. -/
theorem opening?_append {tag : List Char} {attributes : Attributes} {bindings : List Binding} {body : List Char}
    (htag : IsName tag) (hattributes : ∀ a ∈ attributes, IsName a.1.toList ∧ a.1 ≠ "style") (hbindings : ∀ b ∈ bindings, b.Readable)
    (hbody : EndsTag body) :
    opening? (tag ++ (attributes.flatMap attributeChars ++ (bindings.flatMap Binding.chars ++ body))) =
      some (⟨tag, attributes, bindings⟩, body) := by
  have hblank : endsName ' ' = true := by decide
  have hbinding : ∀ b ∈ bindings, b.chars ≠ [] ∧
      ∀ s, StartsApart s → StartsApart (b.chars ++ s) ∧ binding? (b.chars ++ s) = some (b, s) := by
    intro b hb
    refine ⟨by cases b <;> simp [Binding.chars], fun s _ => ⟨?_, (hbindings b hb).read s⟩⟩
    cases b <;> exact startsApart_cons hblank _
  obtain ⟨hreadBindings, hapart⟩ := many_flatMap hbody.startsApart hbody.binding? hbinding
  have hattribute : ∀ a ∈ attributes, attributeChars a ≠ [] ∧
      ∀ s, StartsApart s → StartsApart (attributeChars a ++ s) ∧ attribute? (attributeChars a ++ s) = some (a, s) := by
    intro a ha
    obtain ⟨hname, hstyle⟩ := hattributes a ha
    exact ⟨by simp [attributeChars], fun s _ => ⟨startsApart_cons hblank _, attribute?_attributeChars hname hstyle s⟩⟩
  have hstop : attribute? (bindings.flatMap Binding.chars ++ body) = none := by
    cases bindings with
    | nil => exact hbody.attribute?
    | cons b bindings =>
      rw [List.flatMap_cons, List.append_assoc]
      exact (hbindings b List.mem_cons_self).no_attribute _
  obtain ⟨hreadAttributes, c, more, hc, happart⟩ := many_flatMap hapart hstop hattribute
  have hread : name? (tag ++ (attributes.flatMap attributeChars ++ (bindings.flatMap Binding.chars ++ body))) =
      some (tag, attributes.flatMap attributeChars ++ (bindings.flatMap Binding.chars ++ body)) := by
    rw [happart]
    exact name?_append htag hc more
  simp only [opening?, hread, hreadAttributes, hreadBindings, Option.bind_eq_bind, Option.bind_some]

/-! ## Content -/

/-- A text that starts a tag. -/
def StartsTag (s : List Char) : Prop := ∃ rest, s = '<' :: rest

/-- A text is read back up to the tag behind it. -/
theorem text?_textChars (s : String) {rest : List Char} (h : StartsTag rest) :
    text? (textChars s ++ rest) = some (s.toList, rest) := by
  obtain ⟨more, rfl⟩ := h
  unfold textChars
  split
  case isTrue hs =>
    rw [hs]
    rfl
  case isFalse => exact bracedLiteral?_bracedLiteral s.toList ('<' :: more)

/-- A child with the text that follows it, as they are written. -/
def childChars (child : Node) : List Char := elementChars [] child ++ textChars child.tail

/-- The children of a node are written one behind the other. -/
theorem childrenChars_eq_flatMap (children : List Node) : childrenChars children = children.flatMap childChars := by
  induction children with
  | nil => rw [childrenChars, List.flatMap_nil]
  | cons child children ih => rw [childrenChars, List.flatMap_cons, ih, childChars]

/-- What is written behind the attributes and bindings of an element. -/
def bodyChars (tag : List Char) (text : String) (children : List Node) : List Char :=
  if (textChars text ++ childrenChars children).isEmpty then [' ', '/', '>']
  else '>' :: (textChars text ++ (children.flatMap childChars ++ '<' :: '/' :: tag ++ ['>']))

/-- An element is a tag with its attributes, what is added to it, and its body. -/
theorem elementChars_eq (extra : List Char) (node : Node) :
    elementChars extra node = '<' :: (node.tag.toList ++ (node.attributes.flatMap attributeChars ++
      (extra ++ bodyChars node.tag.toList node.text node.children))) := by
  obtain ⟨tag, attributes, children, text, tail⟩ := node
  rw [elementChars, bodyChars, ← childrenChars_eq_flatMap]
  split <;> simp

/-- The body of an element begins by ending its tag. -/
theorem bodyChars_endsTag (tag : List Char) (text : String) (children : List Node) (rest : List Char) :
    EndsTag (bodyChars tag text children ++ rest) := by
  unfold bodyChars
  split
  · exact .closed _
  · exact .paired _

/-- An element begins with a tag. -/
theorem elementChars_startsTag (extra : List Char) (node : Node) (rest : List Char) :
    StartsTag (elementChars extra node ++ rest) := by
  rw [elementChars_eq]
  exact ⟨_, rfl⟩

/-- Only an element without text and children has no content. -/
theorem eq_empty_of_isEmpty {text : String} {children : List Node}
    (h : (textChars text ++ childrenChars children).isEmpty = true) : text = "" ∧ children = [] := by
  obtain ⟨htext, hchildren⟩ := List.append_eq_nil_iff.mp (List.isEmpty_iff.mp h)
  constructor
  · unfold textChars at htext
    split at htext
    case isTrue hs => exact hs
    case isFalse => simp [bracedLiteral] at htext
  · cases children with
    | nil => rfl
    | cons child children => simp [childrenChars, elementChars_eq] at hchildren

/-- A child is written before the tag of its parent ends. -/
theorem length_child_lt (extra : List Char) {node child : Node} (h : child ∈ node.children) :
    (elementChars [] child).length < (elementChars extra node).length := by
  obtain ⟨before, after, hsplit⟩ := List.append_of_mem h
  have hinner : (textChars node.text ++ childrenChars node.children).isEmpty = false := by
    rw [childrenChars_eq_flatMap, hsplit]
    simp [childChars, elementChars_eq]
  rw [elementChars_eq extra, bodyChars, hinner, hsplit]
  simp only [List.flatMap_append, List.flatMap_cons, childChars, Bool.false_eq_true, if_false, List.length_cons, List.length_append]
  omega

section
variable {element? : List Char → Option ((Node × List Binding) × List Char)}

/-- A child is read back with its tail when the expression of an element is. -/
theorem child?_childChars {child : Node}
    (h : ∀ s, element? (elementChars [] child ++ s) = some (({ child with tail := "" }, []), s)) {rest : List Char}
    (hrest : StartsTag rest) : child? element? (childChars child ++ rest) = some (child, rest) := by
  obtain ⟨tag, attributes, children, text, tail⟩ := child
  simp only [childChars, List.append_assoc, child?, h, text?_textChars tail hrest, Option.map_some, String.ofList_toList]

/-- The body of an element is read back when the expressions of its children are. -/
theorem body?_bodyChars (tag : List Char) (text : String) {children : List Node}
    (hchild : ∀ child ∈ children, ∀ s, element? (elementChars [] child ++ s) = some (({ child with tail := "" }, []), s))
    (hstop : ∀ s, element? ('<' :: '/' :: s) = none) (rest : List Char) :
    body? element? tag (bodyChars tag text children ++ rest) = some ((text.toList, children), rest) := by
  unfold bodyChars
  split
  case isTrue hempty =>
    obtain ⟨htext, hchildren⟩ := eq_empty_of_isEmpty hempty
    rw [htext, hchildren]
    rfl
  case isFalse =>
    have hchildChars : ∀ child ∈ children, childChars child ≠ [] ∧
        ∀ s, StartsTag s → StartsTag (childChars child ++ s) ∧ child? element? (childChars child ++ s) = some (child, s) := by
      intro child hmem
      refine ⟨by simp [childChars, elementChars_eq], fun s hs => ⟨?_, child?_childChars (hchild child hmem) hs⟩⟩
      rw [childChars, List.append_assoc]
      exact elementChars_startsTag [] child _
    have hend : child? element? ('<' :: '/' :: tag ++ ['>'] ++ rest) = none := by
      rw [child?, List.cons_append, List.cons_append, List.cons_append, List.cons_append, hstop]
    obtain ⟨hchildren, hstarts⟩ := many_flatMap ⟨_, rfl⟩ hend hchildChars
    have hbody : '>' :: (textChars text ++ (children.flatMap childChars ++ '<' :: '/' :: tag ++ ['>'])) ++ rest =
        '>' :: (textChars text ++ (children.flatMap childChars ++ ('<' :: '/' :: tag ++ ['>'] ++ rest))) := by simp
    simp only [hbody, body?, text?_textChars text hstarts, hchildren, behind?_append, Option.bind_eq_bind, Option.bind_some]

end

/-- The expression of an element is read back with its bindings, whatever stands behind it. The induction is on the depth to which
the reader goes, which the length of the expression bounds. -/
theorem element?_elementChars (depth : Nat) : ∀ (bindings : List Binding) (node : Node), (∀ b ∈ bindings, b.Readable) →
    Everywhere Plain node → (elementChars (bindings.flatMap Binding.chars) node).length ≤ depth →
    ∀ rest, element? depth (elementChars (bindings.flatMap Binding.chars) node ++ rest) =
      some (({ node with tail := "" }, bindings), rest) := by
  induction depth with
  | zero =>
    intro bindings node _ _ hlength
    simp [elementChars_eq] at hlength
  | succ depth ih =>
    intro bindings node hbindings hplain hlength rest
    obtain ⟨here, below⟩ := hplain
    have hchild : ∀ child ∈ node.children, ∀ s,
        element? depth (elementChars [] child ++ s) = some (({ child with tail := "" }, []), s) := by
      intro child hmem
      have hlt := length_child_lt (bindings.flatMap Binding.chars) hmem
      exact ih [] child (by simp) (below child hmem) (by simp only [List.flatMap_nil]; omega)
    have hstop : ∀ s, element? depth ('<' :: '/' :: s) = none := by
      intro s
      cases depth <;> rfl
    have hends := bodyChars_endsTag node.tag.toList node.text node.children rest
    rw [elementChars_eq]
    simp only [List.cons_append, List.append_assoc, element?, opening?_append here.tag here.attributes hbindings hends,
      body?_bodyChars node.tag.toList node.text hchild hstop, Option.bind_eq_bind, Option.bind_some, String.ofList_toList]

/-! ## What a component takes -/

/-- What the root of a component takes from it: its size, and then the properties of the caller. -/
def rootBindings : List Binding :=
  [.property "width" "widthFromSvg", .property "height" "heightFromSvg", .spread "props"]

/-- What the root gets besides its attributes is three bindings. -/
theorem rootProperties_eq : rootProperties = rootBindings.flatMap Binding.chars := by rfl

/-- The bindings of the root can be read. -/
theorem rootBindings_readable : ∀ b ∈ rootBindings, b.Readable := by
  simp only [rootBindings, List.forall_mem_cons]
  exact ⟨⟨fun _ => rfl, fun _ => rfl⟩, ⟨fun _ => rfl, fun _ => rfl⟩, ⟨fun _ => rfl, fun _ => rfl⟩, nofun⟩

/-- An element with nothing behind it is a whole text. -/
theorem read?_of_element? {s : List Char} {r : Node × List Binding} (h : element? s.length (s ++ []) = some (r, [])) :
    read? s = some r := by
  rw [List.append_nil] at h
  rw [read?, h]

end Reading

/-- A tree without the size of its root has no other names than the tree. -/
theorem plain_withoutSize {node : Node} (h : Everywhere Reading.Plain node) : Everywhere Reading.Plain (withoutSize node) := by
  obtain ⟨here, below⟩ := h
  refine .intro ⟨here.tag, fun a ha => here.attributes a ?_⟩ below
  exact (List.mem_filter.mp (List.mem_filter.mp ha).1).1

/-- Without its size a node has the other attributes, in order. -/
theorem attributes_withoutSize (node : Node) :
    (withoutSize node).attributes = node.attributes.filter fun a => a.1 ≠ "width" ∧ a.1 ≠ "height" := by
  simp only [withoutSize, Attributes.erase, List.filter_filter]
  refine List.filter_congr fun a _ => ?_
  rw [Bool.eq_iff_iff]
  simp [and_comm]

/-- A node whose tag and attribute names are names of XML, without an inline style. -/
structure Named (node : Node) : Prop where
  tag : Xml.isName node.tag = true
  attributes : ∀ a ∈ node.attributes, Xml.isName a.1 = true ∧ a.1 ≠ "style"

/-- A node with names of markup, and without style, is plain. -/
theorem plain_of_named {node : Node} (h : Named node) : Reading.Plain node where
  tag := Reading.isName_of_xml h.tag
  attributes := fun a ha => ⟨Reading.isName_of_xml (h.attributes a ha).1, (h.attributes a ha).2⟩

/-- A tree comes back from its element expression, apart from what follows its root. From the expression of a component comes the
tree without the size of its root and with the size of everything below, and behind the other attributes of the root stands what
it takes from the component. -/
theorem read?_expressions (node : Node) (h : Everywhere Named node) :
    read? (elementChars [] node) = some ({ node with tail := "" }, []) ∧
      read? (rootChars node) =
        some ({ node with attributes := node.attributes.filter (fun a => a.1 ≠ "width" ∧ a.1 ≠ "height"), tail := "" },
          [.property "width" "widthFromSvg", .property "height" "heightFromSvg", .spread "props"]) := by
  have hplain : Everywhere Reading.Plain node := h.imp fun _ => plain_of_named
  constructor
  · exact Reading.read?_of_element? (Reading.element?_elementChars _ [] node (by simp) hplain (Nat.le_refl _) [])
  · have hread := Reading.element?_elementChars _ Reading.rootBindings (withoutSize node) Reading.rootBindings_readable
      (plain_withoutSize hplain) (Nat.le_refl _) []
    rw [← Reading.rootProperties_eq] at hread
    rw [← attributes_withoutSize]
    exact Reading.read?_of_element? hread

/-- An icon whose texts hold every mark of the notation. -/
def markedIcon : Node :=
  ⟨"svg", [("width", "24"), ("viewBox", "0 0 {24} <24>"), ("d", "say \"\\'\n")],
    [⟨"xlink:g", [("height", "5"), ("width", "")], [⟨"a", [], [], "", "\r</a>"⟩], "it's " ++ Text.braced "'\\n'", ""⟩], " ", "tail"⟩

/-- A tree of the example, with marks of every kind in its texts, is read back. -/
theorem read?_expressions_marked :
    Everywhere Named markedIcon ∧
      read? (elementChars [] markedIcon) = some ({ markedIcon with tail := "" }, []) ∧
      read? (rootChars markedIcon) =
        some (⟨"svg", [("viewBox", "0 0 {24} <24>"), ("d", "say \"\\'\n")], markedIcon.children, " ", ""⟩,
          [.property "width" "widthFromSvg", .property "height" "heightFromSvg", .spread "props"]) := by
  have hnamed : Everywhere Named markedIcon := by
    refine .intro ⟨by decide +kernel, by decide +kernel⟩ fun child hchild => ?_
    rw [List.mem_singleton.mp hchild]
    refine .intro ⟨by decide +kernel, by decide +kernel⟩ fun child hchild => ?_
    rw [List.mem_singleton.mp hchild]
    exact .intro ⟨by decide +kernel, by decide +kernel⟩ nofun
  exact ⟨hnamed, read?_expressions markedIcon hnamed⟩

end IconForge.Component
