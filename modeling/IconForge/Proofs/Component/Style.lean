import IconForge.Proofs.Component.Name
import IconForge.Proofs.Component.RoundTrip
import IconForge.Proofs.Text.Trim

/-!
# Inline styles are read back

A reader of the object expressions that inline styles become, and what it reads of a list of declarations with blanks around their
parts and empty declarations in between. A style is cut at every semicolon, so the declarations come back exactly if no value has one
(`object?_styleObject_iff`); a semicolon between quotes or parentheses is cut at too (`object?_styleObject_false`).
-/

namespace IconForge.Component

open Text

/-! ## Object expressions -/

/-- The key of a member: a name, or any text as a string literal. -/
inductive Key where
  | name (s : List Char)
  | quoted (s : List Char)
  deriving Repr, DecidableEq

/-- A key as it is written. -/
def Key.chars : Key → List Char
  | .name s => s
  | .quoted s => quoteChars s

/-- A key that can be read: a name has to be a plain one. -/
def Key.Readable : Key → Prop
  | .name s => IsPlainName s
  | .quoted _ => True

/-- A member of an object whose values are texts. -/
structure Member where
  key : Key
  value : List Char
  deriving Repr, DecidableEq

/-- A member as it is written. -/
def Member.chars (m : Member) : List Char := m.key.chars ++ ':' :: ' ' :: quoteChars m.value

namespace Reading

/-- A name at the front of a text. -/
def keyName? (s : List Char) : Option (Key × List Char) :=
  match s.takeWhile isIdentifierChar with
  | [] => none
  | c :: name => if isIdentifierStart c then some (.name (c :: name), s.dropWhile isIdentifierChar) else none

/-- A key at the front of a text. -/
def key? : List Char → Option (Key × List Char)
  | '\'' :: s => (literalBody? s).map fun r => (.quoted r.1, r.2)
  | s => keyName? s

/-- A member at the front of a text. -/
def member? (s : List Char) : Option (Member × List Char) := do
  let (key, s) ← key? s
  let s ← behind? [':', ' '] s
  let (value, s) ← literal? s
  some (⟨key, value⟩, s)

/-- A member behind another one. -/
def nextMember? (s : List Char) : Option (Member × List Char) := (behind? [',', ' '] s).bind member?

/-- Members with commas between them. -/
def members (s : List Char) : List Member × List Char :=
  match member? s with
  | none => ([], s)
  | some (m, s) => (m :: (many nextMember? s).1, (many nextMember? s).2)

end Reading

/-- The members of an object expression in braces, if the whole text is one. -/
def object? : List Char → Option (List Member)
  | '{' :: '{' :: s => if (Reading.members s).2 = ['}', '}'] then some (Reading.members s).1 else none
  | _ => none

/-! ## What is written is read -/

namespace Reading

/-- A plain name before a colon is read as a key. -/
theorem keyName?_append {name : List Char} (h : IsPlainName name) (rest : List Char) :
    keyName? (name ++ ':' :: rest) = some (.name name, ':' :: rest) := by
  obtain ⟨htake, hdrop⟩ := takeWhile_append_cons h.isIdentifierChar (by decide : isIdentifierChar ':' = false) rest
  obtain ⟨c, more, rfl, hc, -⟩ := h
  rw [keyName?, htake, hdrop]
  exact if_pos hc

/-- A key is read up to its colon. -/
theorem key?_append {key : Key} (h : key.Readable) (rest : List Char) :
    key? (key.chars ++ ':' :: rest) = some (key, ':' :: rest) := by
  cases key with
  | name s =>
    have hread := keyName?_append h rest
    obtain ⟨c, more, rfl, hc, -⟩ := h
    have hquote : c ≠ '\'' := by
      rintro rfl
      exact absurd hc (by decide)
    rw [← hread]
    simp [Key.chars, key?, hquote]
  | quoted s =>
    have hread := literalBody?_of_denotes (denotes_flatMap_escapeChar s) (':' :: rest)
    simp [Key.chars, quoteChars, key?, hread]

/-- A member is read back, with the text behind it left. -/
theorem member?_append {m : Member} (h : m.key.Readable) (rest : List Char) : member? (m.chars ++ rest) = some (m, rest) := by
  have hsplit : m.chars ++ rest = m.key.chars ++ ':' :: ([' '] ++ (quoteChars m.value ++ rest)) := by simp [Member.chars]
  have hbehind := behind?_append [':', ' '] (quoteChars m.value ++ rest)
  simp only [List.cons_append, List.nil_append] at hbehind
  simp [member?, hsplit, key?_append h, hbehind, literal?_quoteChars]

/-- The members of an object are read back, one behind the other. -/
theorem members_append {ms : List Member} (h : ∀ m ∈ ms, m.key.Readable) :
    members (joinWith [',', ' '] (ms.map Member.chars) ++ ['}', '}']) = (ms, ['}', '}']) := by
  cases ms with
  | nil => rfl
  | cons m ms =>
    have hnext : ∀ n ∈ ms, [',', ' '] ++ n.chars ≠ [] ∧
        ∀ s, True → True ∧ nextMember? ([',', ' '] ++ n.chars ++ s) = some (n, s) := by
      intro n hn
      refine ⟨List.cons_ne_nil _ _, fun s _ => ⟨trivial, ?_⟩⟩
      rw [nextMember?, List.append_assoc, behind?_append, Option.bind_some]
      exact member?_append (h n (List.mem_cons_of_mem _ hn)) s
    have hend : nextMember? ['}', '}'] = none := rfl
    have hrow := (@many_flatMap _ nextMember? (fun n => [',', ' '] ++ n.chars) (fun _ => True) _ trivial hend ms hnext).1
    rw [List.map_cons, joinWith_cons, List.flatMap_map, List.append_assoc, members, member?_append (h m List.mem_cons_self)]
    simp only [hrow]

end Reading

/-- An object expression whose keys can be read is read back. -/
theorem object?_append {ms : List Member} (h : ∀ m ∈ ms, m.key.Readable) :
    object? (['{', '{'] ++ joinWith [',', ' '] (ms.map Member.chars) ++ ['}', '}']) = some ms := by
  simp [object?, Reading.members_append h]

/-! ## What is read was written -/

/-- A semicolon in the text of a literal stands between its quotes. -/
theorem Denotes.semicolon_mem {body text : List Char} (h : Denotes body text) (hmem : ';' ∈ text) : ';' ∈ body := by
  induction h with
  | nil => cases hmem
  | @escape c x body text hc _ ih =>
    rcases List.mem_cons.mp hmem with rfl | hmem
    · have hsame : c = ';' := by
        unfold unescape? at hc
        split at hc <;> simp_all
      exact hsame ▸ List.mem_cons_of_mem _ List.mem_cons_self
    · exact List.mem_cons_of_mem _ (List.mem_cons_of_mem _ (ih hmem))
  | ordinary _ _ ih =>
    rcases List.mem_cons.mp hmem with rfl | hmem
    · exact List.mem_cons_self
    · exact List.mem_cons_of_mem _ (ih hmem)

namespace Reading

/-- A text without semicolons gives a literal without semicolons. -/
theorem semicolon_not_mem_of_literalBody? {s text rest : List Char} (h : literalBody? s = some (text, rest)) (hs : ';' ∉ s) :
    ';' ∉ text ∧ ';' ∉ rest := by
  obtain ⟨body, hbody, rfl⟩ := exists_denotes_of_literalBody? h
  simp only [List.mem_append, List.mem_cons, not_or] at hs
  exact ⟨fun hmem => hs.1 (hbody.semicolon_mem hmem), hs.2.2⟩

theorem semicolon_not_mem_of_key? {s rest : List Char} {key : Key} (h : key? s = some (key, rest)) (hs : ';' ∉ s) : ';' ∉ rest := by
  unfold key? at h
  split at h
  case h_1 s =>
    obtain ⟨⟨text, rest'⟩, hread, hpair⟩ := Option.map_eq_some_iff.mp h
    obtain ⟨-, rfl⟩ := Prod.mk.inj hpair
    exact (semicolon_not_mem_of_literalBody? hread fun hmem => hs (List.mem_cons_of_mem _ hmem)).2
  case h_2 =>
    unfold keyName? at h
    split at h
    case h_1 => cases h
    case h_2 =>
      split at h
      case isTrue =>
        obtain ⟨-, rfl⟩ := Prod.mk.inj (Option.some.inj h)
        exact fun hmem => hs (List.dropWhile_subset _ hmem)
      case isFalse => cases h

theorem semicolon_not_mem_of_behind? {mark s rest : List Char} (h : behind? mark s = some rest) (hs : ';' ∉ s) : ';' ∉ rest := by
  unfold behind? at h
  split at h
  case isTrue =>
    cases h
    exact fun hmem => hs (List.mem_of_mem_drop hmem)
  case isFalse => cases h

/-- A text without semicolons gives a member whose value has none. -/
theorem semicolon_not_mem_of_member? {s rest : List Char} {m : Member} (h : member? s = some (m, rest)) (hs : ';' ∉ s) :
    ';' ∉ m.value ∧ ';' ∉ rest := by
  simp only [member?, Option.bind_eq_bind, Option.bind_eq_some_iff, Option.some.injEq, Prod.mk.injEq] at h
  obtain ⟨⟨key, s₁⟩, hkey, s₂, hbehind, ⟨value, s₃⟩, hvalue, rfl, rfl⟩ := h
  have hs₂ := semicolon_not_mem_of_behind? hbehind (semicolon_not_mem_of_key? hkey hs)
  cases s₂ with
  | nil => cases hvalue
  | cons c s₂ =>
    unfold literal? at hvalue
    split at hvalue
    case h_1 heq =>
      obtain ⟨-, rfl⟩ := List.cons.inj heq
      exact semicolon_not_mem_of_literalBody? hvalue fun hmem => hs₂ (List.mem_cons_of_mem _ hmem)
    case h_2 => cases hvalue

/-- A text without semicolons gives members whose values have none. -/
theorem semicolon_not_mem_of_members {s : List Char} (hs : ';' ∉ s) : ∀ m ∈ (members s).1, ';' ∉ m.value := by
  unfold members
  split
  case h_1 => exact nofun
  case h_2 m rest hread =>
    obtain ⟨hm, hrest⟩ := semicolon_not_mem_of_member? hread hs
    have hnext : ∀ {s m rest}, nextMember? s = some (m, rest) → ';' ∉ s → ';' ∉ m.value ∧ ';' ∉ rest := by
      intro s m rest h hs
      obtain ⟨behind, hbehind, hmember⟩ := Option.bind_eq_some_iff.mp h
      exact semicolon_not_mem_of_member? hmember (semicolon_not_mem_of_behind? hbehind hs)
    exact List.forall_mem_cons.mpr ⟨hm, (many_keeps hnext hrest).1⟩

end Reading

/-- A value with a semicolon is read only from a text with one. -/
theorem semicolon_not_mem_of_object? {s : List Char} {ms : List Member} (h : object? s = some ms) (hs : ';' ∉ s) :
    ∀ m ∈ ms, ';' ∉ m.value := by
  unfold object? at h
  split at h
  case h_1 s =>
    split at h
    case isTrue =>
      rw [← Option.some.inj h]
      refine Reading.semicolon_not_mem_of_members fun hmem => hs ?_
      exact List.mem_cons_of_mem _ (List.mem_cons_of_mem _ hmem)
    case isFalse => cases h
  case h_2 => cases h

/-! ## No semicolon is written -/

/-- Quoting adds no semicolon. -/
theorem mem_of_semicolon_mem_quoteChars {s : List Char} (h : ';' ∈ quoteChars s) : ';' ∈ s := by
  have hbody : ';' ∈ s.flatMap escapeChar := by simpa [quoteChars] using h
  obtain ⟨c, hc, hmem⟩ := List.mem_flatMap.mp hbody
  unfold escapeChar at hmem
  split at hmem
  case h_5 => rwa [List.mem_singleton.mp hmem]
  all_goals exact absurd hmem (by decide)

/-- Camel case adds no semicolon. -/
theorem mem_of_semicolon_mem_camelFrom {raised : Bool} {s : List Char} (h : ';' ∈ camelFrom raised s) : ';' ∈ s := by
  obtain ⟨d, hd, -, rfl | hraised⟩ := exists_of_mem_camelFrom h
  · exact hd
  · rcases toUpper_cases d with ⟨-, hupper⟩ | ⟨-, hsame⟩
    · rw [← hraised] at hupper
      cases hupper
    · rwa [hraised, hsame]

/-- The declaration of a piece without semicolons has none. -/
theorem semicolon_not_mem_of_ofPiece? {piece : List Char} {d : Declaration} (h : Declaration.ofPiece? piece = some d)
    (hpiece : ';' ∉ piece) : ';' ∉ d.property ∧ ';' ∉ d.value := by
  unfold Declaration.ofPiece? at h
  split at h
  case h_1 => cases h
  case h_2 c value hvalue =>
    simp only at h
    split at h
    case isTrue => cases h
    case isFalse =>
      cases h
      refine ⟨fun hmem => hpiece (List.takeWhile_subset _ (mem_of_mem_trim hmem)), fun hmem => hpiece ?_⟩
      refine List.dropWhile_subset (· != ':') ?_
      rw [hvalue]
      exact List.mem_cons_of_mem _ (mem_of_mem_trim hmem)

/-- A declaration without semicolons is written without one. -/
theorem semicolon_not_mem_entry {d : Declaration} (hproperty : ';' ∉ d.property) (hvalue : ';' ∉ d.value) : ';' ∉ d.entry := by
  simp only [Declaration.entry, List.mem_append, List.mem_cons, not_or]
  refine ⟨?_, by decide, by decide, fun hmem => hvalue (mem_of_semicolon_mem_quoteChars hmem)⟩
  unfold propertyKey
  split
  case isTrue => exact fun hmem => hproperty (mem_of_semicolon_mem_quoteChars hmem)
  case isFalse => exact fun hmem => hproperty (mem_of_semicolon_mem_camelFrom hmem)

/-- A style is cut at every semicolon, so none is written. -/
theorem semicolon_not_mem_styleChars (style : List Char) : ';' ∉ styleChars style := by
  simp only [styleChars, List.mem_append, not_or]
  refine ⟨⟨by decide, fun hmem => ?_⟩, by decide⟩
  rcases mem_joinWith hmem with hmem | ⟨entry, hentry, hmem⟩
  · exact absurd hmem (by decide)
  · obtain ⟨d, hd, rfl⟩ := List.mem_map.mp hentry
    obtain ⟨piece, hpiece, hdeclared⟩ := List.mem_filterMap.mp hd
    obtain ⟨hproperty, hvalue⟩ := semicolon_not_mem_of_ofPiece? hdeclared (not_mem_of_mem_cut hpiece)
    exact semicolon_not_mem_entry hproperty hvalue hmem

/-! ## Declarations as they are written -/

/-- The member for a declaration: a custom property is quoted as it is, any other is named in camel case. -/
def Declaration.member (d : Declaration) : Member :=
  ⟨if isCustomProperty d.property then .quoted d.property else .name (camelFrom false d.property), d.value⟩

/-- A declaration is written as its member. -/
theorem Declaration.chars_member (d : Declaration) : d.member.chars = d.entry := by
  unfold Declaration.member Declaration.entry propertyKey
  split <;> rfl

/-- Blanks, or nothing. -/
abbrev Blanks := { s : List Char // ∀ c ∈ s, isBlank c = true }

/-- A declaration with blanks around its property and its value. The property is made of letters and hyphens. -/
structure WrittenDeclaration extends Declaration where
  front : Blanks
  behindProperty : Blanks
  beforeValue : Blanks
  back : Blanks
  property_chars : ∀ c ∈ property, c.isAlpha = true ∨ c = '-'
  property_letter : ∃ c ∈ property, c.isAlpha = true
  value_trimmed : trim value = value

/-- The text of a declaration. -/
def WrittenDeclaration.chars (d : WrittenDeclaration) : List Char :=
  d.front.1 ++ d.property ++ d.behindProperty.1 ++ ':' :: (d.beforeValue.1 ++ d.value ++ d.back.1)

/-- What stands between two semicolons of a style: a declaration, or an empty one. -/
inductive Piece where
  | empty (blanks : Blanks)
  | declaration (d : WrittenDeclaration)

namespace Piece

def chars : Piece → List Char
  | empty blanks => blanks.1
  | declaration d => d.chars

def declaration? : Piece → Option Declaration
  | empty _ => none
  | declaration d => some d.toDeclaration

end Piece

/-- The text of a style. -/
def styleText (pieces : List Piece) : List Char := joinWith [';'] (pieces.map Piece.chars)

/-- The declarations of a style, in order. -/
def declared (pieces : List Piece) : List Declaration := pieces.filterMap Piece.declaration?

theorem isBlank_of_isAlpha {c : Char} (h : c.isAlpha = true) : isBlank c = false := by
  have hrange : (65 ≤ c.toNat ∧ c.toNat ≤ 90) ∨ (97 ≤ c.toNat ∧ c.toNat ≤ 122) := by
    rw [isAlpha_iff, isUpper_iff, isLower_iff] at h
    exact h
  rw [Bool.eq_false_iff]
  intro hblank
  simp only [isBlank, inRanges, blankRanges, List.any_cons, List.any_nil, Bool.or_false, Bool.or_eq_true, Bool.and_eq_true,
    decide_eq_true_eq] at hblank
  omega

/-- The camel case of letters and hyphens is a plain name. -/
theorem isPlainName_camelFrom {s : List Char} (hchars : ∀ c ∈ s, c.isAlpha = true ∨ c = '-') (hletter : ∃ c ∈ s, c.isAlpha = true) :
    IsPlainName (camelFrom false s) := by
  have hletters : ∀ c ∈ camelFrom false s, c.isAlpha = true := by
    intro c hc
    obtain ⟨d, hd, hseparator, hsame⟩ := exists_of_mem_camelFrom hc
    have halpha : d.isAlpha = true := by
      refine (hchars d hd).resolve_right ?_
      rintro rfl
      cases hseparator
    rcases hsame with rfl | rfl
    · exact halpha
    · exact isAlpha_toUpper halpha
  have hne : camelFrom false s ≠ [] := by
    obtain ⟨c, hc, halpha⟩ := hletter
    exact camelFrom_ne_nil ⟨c, hc, isSeparator_of_isAlpha halpha⟩ false
  obtain ⟨c, rest, hs⟩ := List.exists_cons_of_ne_nil hne
  rw [hs] at hletters
  obtain ⟨hc, hrest⟩ := List.forall_mem_cons.mp hletters
  refine ⟨c, rest, hs, by rw [isIdentifierStart, hc, Bool.true_or, Bool.true_or], fun d hd => ?_⟩
  rw [isIdentifierChar, Char.isAlphanum, hrest d hd, Bool.true_or, Bool.true_or, Bool.true_or]

/-- Among blanks there is nothing but blanks. -/
theorem Blanks.not_mem (blanks : Blanks) {c : Char} (h : isBlank c = false) : c ∉ blanks.1 := by
  intro hmem
  rw [blanks.2 c hmem] at h
  cases h

namespace WrittenDeclaration

variable (d : WrittenDeclaration)

theorem readable_key : d.member.key.Readable := by
  unfold Declaration.member
  split
  case isTrue => trivial
  case isFalse => exact isPlainName_camelFrom d.property_chars d.property_letter

theorem isCore_property : IsCore d.property d.property := by
  have hends : ∀ c ∈ d.property, isBlank c = false := by
    intro c hc
    rcases d.property_chars c hc with halpha | rfl
    · exact isBlank_of_isAlpha halpha
    · decide
  exact ⟨⟨[], [], by simp, nofun, nofun⟩, fun c hc => hends c (List.mem_of_mem_head? hc),
    fun c hc => hends c (List.mem_of_getLast? hc)⟩

theorem isCore_value : IsCore d.value d.value := by
  have hcore := isCore_trim d.value
  rwa [d.value_trimmed] at hcore

/-- A declaration as written is found in its piece. -/
theorem ofPiece?_chars : Declaration.ofPiece? d.chars = some d.toDeclaration := by
  have hcolon : ':' ∉ d.front.1 ++ d.property ++ d.behindProperty.1 := by
    simp only [List.mem_append, not_or]
    exact ⟨⟨d.front.not_mem (by decide), fun h => absurd (d.property_chars _ h) (by decide)⟩, d.behindProperty.not_mem (by decide)⟩
  have hbefore : ∀ c ∈ d.front.1 ++ d.property ++ d.behindProperty.1, (c != ':') = true :=
    fun c hc => bne_iff_ne.mpr fun h => hcolon (h ▸ hc)
  obtain ⟨htake, hdrop⟩ := takeWhile_append_cons hbefore (by decide : (':' != ':') = false) (d.beforeValue.1 ++ d.value ++ d.back.1)
  have hne : d.property ≠ [] := by
    obtain ⟨c, hc, -⟩ := d.property_letter
    exact List.ne_nil_of_mem hc
  simp only [Declaration.ofPiece?, chars, hdrop, htake, (d.isCore_property.widen d.front.2 d.behindProperty.2).eq_trim,
    (d.isCore_value.widen d.beforeValue.2 d.back.2).eq_trim, List.isEmpty_iff, hne, if_false]

/-- A written declaration holds a semicolon only in its value. -/
theorem semicolon_mem_chars_iff : ';' ∈ d.chars ↔ ';' ∈ d.value := by
  have hblanks : ∀ b : Blanks, ';' ∉ b.1 := fun b => b.not_mem (by decide)
  have hproperty : ';' ∉ d.property := fun h => absurd (d.property_chars _ h) (by decide)
  simp [chars, hblanks, hproperty]

end WrittenDeclaration

/-- A piece as written is found to declare what it declares. -/
theorem Piece.ofPiece?_chars (piece : Piece) : Declaration.ofPiece? piece.chars = piece.declaration? := by
  cases piece with
  | empty blanks =>
    have hnone : blanks.1.dropWhile (· != ':') = [] := by
      refine (takeWhile_of_all fun c hc => ?_).2
      rw [bne_iff_ne]
      rintro rfl
      exact absurd (blanks.2 _ hc) (by decide)
    simp only [Declaration.ofPiece?, chars, hnone, declaration?]
  | declaration d => exact d.ofPiece?_chars

/-- A style without semicolons in its values is cut into its pieces. -/
theorem declarations_styleText {pieces : List Piece} (h : ∀ d ∈ declared pieces, ';' ∉ d.value) :
    declarations (styleText pieces) = declared pieces := by
  have hpieces : ∀ text ∈ pieces.map Piece.chars, ';' ∉ text := by
    intro text htext
    obtain ⟨piece, hpiece, rfl⟩ := List.mem_map.mp htext
    cases piece with
    | empty blanks => exact blanks.not_mem (by decide)
    | declaration d => exact d.semicolon_mem_chars_iff.not.mpr (h _ (List.mem_filterMap.mpr ⟨_, hpiece, rfl⟩))
  have hread : (pieces.map Piece.chars).filterMap Declaration.ofPiece? = declared pieces := by
    rw [List.filterMap_map, declared]
    exact congrArg (List.filterMap · pieces) (funext Piece.ofPiece?_chars)
  cases pieces with
  | nil => rfl
  | cons piece pieces =>
    have hne : (piece :: pieces).map Piece.chars ≠ [] := List.cons_ne_nil _ _
    rw [declarations, styleText, cut_joinWith hne hpieces, hread]

/-- The declarations of a style come back as the members of its object, in order, exactly if no value holds a semicolon. -/
theorem object?_styleObject_iff (pieces : List Piece) :
    object? (styleObject (String.ofList (styleText pieces))).toList = some ((declared pieces).map Declaration.member) ↔
      ∀ d ∈ declared pieces, ';' ∉ d.value := by
  rw [styleObject, String.toList_ofList, String.toList_ofList]
  constructor
  · -- What is written holds no semicolon, so none is read.
    intro hread d hd
    exact semicolon_not_mem_of_object? hread (semicolon_not_mem_styleChars _) _ (List.mem_map_of_mem hd)
  · intro h
    have hentries : (declared pieces).map Declaration.entry = ((declared pieces).map Declaration.member).map Member.chars := by
      rw [List.map_map]
      exact (List.map_congr_left fun d _ => d.chars_member).symm
    rw [styleChars, declarations_styleText h, hentries]
    refine object?_append fun m hm => ?_
    obtain ⟨d, hd, rfl⟩ := List.mem_map.mp hm
    obtain ⟨piece, -, hpiece⟩ := List.mem_filterMap.mp hd
    cases piece with
    | empty => cases hpiece
    | declaration w =>
      cases hpiece
      exact w.readable_key

/-! ## Semicolons between quotes and parentheses -/

/-- Whether a text closes the quote and the parentheses that are open in front of it, opens none that it does not close, and holds
semicolons only where a quote or a parenthesis is open. A backslash between quotes escapes what follows it. -/
def isGuardedFrom : Option Char → Nat → List Char → Bool
  | none, depth, [] => depth == 0
  | none, depth, c :: rest =>
    if c = '\'' ∨ c = '"' then isGuardedFrom (some c) depth rest
    else if c = '(' then isGuardedFrom none (depth + 1) rest
    else if c = ')' then 0 < depth && isGuardedFrom none (depth - 1) rest
    else (c ≠ ';' || 0 < depth) && isGuardedFrom none depth rest
  | some _, _, [] => false
  | some mark, depth, '\\' :: _ :: rest => isGuardedFrom (some mark) depth rest
  | some mark, depth, c :: rest => isGuardedFrom (if c = mark then none else some mark) depth rest

/-- A value whose quotes and parentheses are balanced and guard its semicolons. -/
def isGuarded (value : List Char) : Bool := isGuardedFrom none 0 value

/-- A background whose image stands in the style itself. -/
def inlineImage : WrittenDeclaration where
  property := "background".toList
  value := "url(data:image/png;base64,AA==)".toList
  front := ⟨[], nofun⟩
  behindProperty := ⟨[], nofun⟩
  beforeValue := ⟨[], nofun⟩
  back := ⟨[], nofun⟩
  property_chars := fun c hc => .inl (List.all_eq_true.mp (by decide : "background".toList.all Char.isAlpha = true) c hc)
  property_letter := ⟨'b', by decide, by decide⟩
  value_trimmed := by decide

example : String.ofList (styleChars inlineImage.chars) = Text.braced (Text.braced "background: 'url(data:image/png'") := by decide

/-- The style is cut at the semicolon between the parentheses, and what follows it is left out. -/
theorem object?_styleObject_false :
    ¬∀ pieces : List Piece, (∀ d ∈ declared pieces, d.value ≠ [] ∧ isGuarded d.value = true) →
      object? (styleObject (String.ofList (styleText pieces))).toList = some ((declared pieces).map Declaration.member) := by
  intro h
  have hread := h [.declaration inlineImage] (by decide)
  rw [styleObject, String.toList_ofList] at hread
  have hfree := semicolon_not_mem_of_object? hread (semicolon_not_mem_styleChars _) inlineImage.member (by decide)
  exact hfree (by decide)

end IconForge.Component
