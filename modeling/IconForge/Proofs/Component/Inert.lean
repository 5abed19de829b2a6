import IconForge.Component.Name
import IconForge.Proofs.Component.Camel
import IconForge.Proofs.Component.Value

/-!
# What an attribute brings into a module

A value is inert when nothing of it stands where the module holds an expression: it is a text between double quotes, one string
literal in braces, or an inline style whose keys and values are literals or plain names. Every attribute other than `style` is
inert. An inline style is inert exactly if the camel case of each of its properties, custom ones apart, can stand as a key
(`inert_attributeValue_iff`): custom properties and all values are quoted, other properties are not
(`inert_attributeValue_false`).
-/

namespace IconForge.Component

open Text

/-! ## Inert values -/

/-- A plain name: an identifier of letters, digits, underscores and dollar signs. -/
def IsPlainName (s : List Char) : Prop :=
  ∃ c rest, s = c :: rest ∧ isIdentifierStart c = true ∧ ∀ d ∈ rest, isIdentifierChar d = true

/-- What may stand in front of the colon of an entry. -/
def IsKey (s : List Char) : Prop := IsLiteral s ∨ IsPlainName s

/-- An entry of an object expression. -/
structure Entry where
  key : List Char
  value : List Char

/-- An entry as it is written. -/
def Entry.chars (e : Entry) : List Char := e.key ++ ':' :: ' ' :: e.value

/-- An entry that evaluates nothing. -/
structure Entry.Inert (e : Entry) : Prop where
  key : IsKey e.key
  value : IsLiteral e.value

/-- Entries as an object expression. -/
def objectChars (entries : List Entry) : List Char := ['{', '{'] ++ joinWith [',', ' '] (entries.map Entry.chars) ++ ['}', '}']

/-- A value behind the equals sign of an attribute that evaluates nothing. -/
inductive Inert (name : String) : List Char → Prop
  | quoted {raw : List Char} (h : '"' ∉ raw) : Inert name ('"' :: raw ++ ['"'])
  | literal {s : List Char} (h : IsLiteral s) : Inert name ('{' :: s ++ ['}'])
  | object (hname : name = "style") {entries : List Entry} (h : ∀ e ∈ entries, e.Inert) : Inert name (objectChars entries)

/-- The entry that is written for a declaration. -/
def Declaration.toEntry (d : Declaration) : Entry := ⟨propertyKey d.property, quoteChars d.value⟩

/-- The object of a style attribute has an entry for each of its declarations. -/
theorem styleChars_eq (style : List Char) :
    styleChars style = objectChars ((declarations style).map Declaration.toEntry) := by
  rw [objectChars, List.map_map]
  rfl

/-- A value other than an inline style is inert. -/
theorem inert_chars_ofText (name : String) (text : List Char) : Inert name (Value.ofText text).chars := by
  unfold Value.ofText
  split
  case isTrue => exact .literal (isLiteral_quoteChars text)
  case isFalse h => exact .quoted fun hq => h (Or.inl hq)

/-- A custom property is quoted. -/
theorem isKey_propertyKey_iff (property : List Char) :
    IsKey (propertyKey property) ↔ isCustomProperty property = true ∨ IsKey (camelFrom false property) := by
  unfold propertyKey
  by_cases h : isCustomProperty property = true
  · simp [h, IsKey, isLiteral_quoteChars]
  · simp [h]

/-! ## Where keys and literals end -/

/-- No literal is the front of another one. -/
theorem IsLiteral.append_inj {s t rest more : List Char} (hs : IsLiteral s) (ht : IsLiteral t) (h : s ++ rest = t ++ more) :
    s = t ∧ rest = more := by
  obtain ⟨body, text, hbody, rfl⟩ := hs
  obtain ⟨other, text', hother, rfl⟩ := ht
  simp only [List.cons_append, List.append_assoc, List.nil_append, List.cons.injEq, true_and] at h
  have hread := literalBody?_of_denotes hbody rest
  rw [h, literalBody?_of_denotes hother more] at hread
  obtain ⟨-, rfl⟩ : text' = text ∧ more = rest := by simpa using hread
  exact ⟨by rw [List.append_cancel_right h], rfl⟩

/-- A plain name holds no colon. -/
theorem colon_not_mem_of_isPlainName {s : List Char} (h : IsPlainName s) : ':' ∉ s := by
  obtain ⟨c, rest, rfl, hc, hrest⟩ := h
  intro hmem
  rcases List.mem_cons.mp hmem with rfl | hmem
  · simp [isIdentifierStart] at hc
  · have := hrest _ hmem
    simp [isIdentifierChar] at this

/-- Colons are separators, and camel case drops them. -/
theorem colon_not_mem_camelFrom (raised : Bool) (s : List Char) : ':' ∉ camelFrom raised s :=
  fun h => absurd (isSeparator_of_mem_camelFrom h) (by decide)

/-- A text that is trimmed does not end with a blank. -/
theorem isBlank_of_trim {s t : List Char} {c : Char} (h : trim s = t ++ [c]) : isBlank c = false := by
  have hreverse : trimLeft (trimLeft s).reverse = c :: t.reverse := by
    rw [← List.reverse_reverse (trimLeft (trimLeft s).reverse)]
    have : (trimLeft (trimLeft s).reverse).reverse = t ++ [c] := h
    rw [this]
    simp
  exact trimLeft_head _ c _ hreverse

/-- The literal of a trimmed text does not go on, behind its opening quote, with a colon, a blank and a quote. -/
theorem escaped_ne_colon_quote {value s : List Char} (hvalue : value = trim s) (rest more : List Char) :
    value.flatMap escapeChar ++ '\'' :: rest ≠ ':' :: ' ' :: '\'' :: more := by
  intro h
  have hbody := denotes_flatMap_escapeChar value
  -- The literal has its quote in third place: it ends there, or an escaped quote stands there.
  match hs : value.flatMap escapeChar with
  | [] => simp [hs] at h
  | [c] => simp [hs] at h
  | [c, d] =>
    obtain ⟨rfl, rfl, -⟩ : c = ':' ∧ d = ' ' ∧ rest = more := by simpa [hs] using h
    rw [hs] at hbody
    have hcolon : value = [':'] ++ [' '] := by
      rcases hbody with _ | _ | ⟨_, hbody⟩
      rcases hbody with _ | _ | ⟨_, hbody⟩
      cases hbody
      rfl
    exact absurd (isBlank_of_trim (hvalue.symm.trans hcolon)) (by decide)
  | c :: d :: e :: body =>
    obtain ⟨rfl, rfl, rfl, -⟩ : c = ':' ∧ d = ' ' ∧ e = '\'' ∧ body ++ '\'' :: rest = more := by simpa [hs] using h
    have hquote : value.flatMap escapeChar = [':'] ++ ' ' :: '\'' :: body := hs
    rw [hquote] at hbody
    exact absurd hbody.eq_backslash (by decide)

/-- A text is told by its first colon. -/
theorem append_colon_inj {s t rest more : List Char} (hs : ':' ∉ s) (ht : ':' ∉ t) (h : s ++ ':' :: rest = t ++ ':' :: more) :
    s = t ∧ rest = more := by
  have hcut := congrArg (cut ':') h
  rw [cut_append_cons hs, cut_append_cons ht] at hcut
  obtain rfl : s = t := (List.cons.inj hcut).1
  exact ⟨rfl, by simpa using h⟩

/-- A literal ends at the first quote that no backslash escapes. -/
theorem IsLiteral.eq_nil_of_quote {before after : List Char} {c : Char} (hc : c ≠ '\\')
    (h : IsLiteral ('\'' :: before ++ c :: '\'' :: after)) : after = [] := by
  obtain ⟨body, text, hbody, hs⟩ := h
  rcases List.eq_nil_or_concat after with hnil | ⟨inner, last, hconcat⟩
  · exact hnil
  · exfalso
    rw [hconcat, List.concat_eq_append] at hs
    have hfront : before ++ c :: '\'' :: inner ++ [last] = body ++ ['\''] := by simpa using hs
    rw [← List.append_inj_left' hfront rfl] at hbody
    exact hc hbody.eq_backslash

/-- No literal starts with the key of a declaration and goes on behind its colon: the quote that opens the value would end it, and no
value is written so that an entry could begin there. -/
theorem not_isLiteral_of_colon {value s key after : List Char} (hvalue : value = trim s) {e : Entry} (he : e.Inert)
    {rest more : List Char} (h : ' ' :: (quoteChars value ++ rest) = after ++ ':' :: ' ' :: (e.value ++ more)) :
    ¬IsLiteral (key ++ ':' :: after) := by
  intro hliteral
  have hlast : (key ++ ':' :: after).getLast? = some '\'' := by
    obtain ⟨body, text, -, hs⟩ := hliteral
    rw [hs, List.getLast?_concat]
  match after with
  | [] => simp at hlast
  | [a] =>
    simp only [List.cons_append, List.cons.injEq] at h
    rw [← h.1] at hlast
    simp at hlast
  | a :: b :: after =>
    obtain ⟨key', rfl⟩ : ∃ key', key = '\'' :: key' := by
      obtain ⟨body, text, -, hs⟩ := hliteral
      cases key with
      | nil => simp at hs
      | cons c key' => exact ⟨key', by rw [(List.cons.inj hs).1]⟩
    obtain ⟨rfl, rfl, hvalues⟩ : ' ' = a ∧ '\'' = b ∧
        value.flatMap escapeChar ++ '\'' :: rest = after ++ ':' :: ' ' :: (e.value ++ more) := by
      simpa [quoteChars] using h
    have hquoted : IsLiteral ('\'' :: (key' ++ [':']) ++ ' ' :: '\'' :: after) := by simpa using hliteral
    have hnil : after = [] := hquoted.eq_nil_of_quote (by decide)
    obtain ⟨body, text, -, hquote⟩ := he.value
    rw [hnil, hquote] at hvalues
    exact escaped_ne_colon_quote hvalue rest _ (by simpa using hvalues)

/-- An inert entry at the front of a row that begins with the entry of a declaration is that entry. -/
theorem isKey_of_entry {property value s : List Char} (hvalue : value = trim s) {e : Entry} (he : e.Inert) {rest more : List Char}
    (h : propertyKey property ++ ':' :: ' ' :: (quoteChars value ++ rest) = e.key ++ ':' :: ' ' :: (e.value ++ more)) :
    IsKey (propertyKey property) ∧ rest = more := by
  have hrest : ∀ {s t : List Char}, s ++ ':' :: ' ' :: (quoteChars value ++ rest) = t ++ ':' :: ' ' :: (e.value ++ more) → s = t →
      rest = more := by
    rintro s t hst rfl
    have hvalues := List.append_cancel_left hst
    simp only [List.cons.injEq, true_and] at hvalues
    exact ((isLiteral_quoteChars value).append_inj he.value hvalues).2
  by_cases hcustom : isCustomProperty property = true
  · have hkey : propertyKey property = quoteChars property := by rw [propertyKey, if_pos hcustom]
    rw [hkey] at h ⊢
    refine ⟨.inl (isLiteral_quoteChars property), ?_⟩
    rcases he.key with hliteral | ⟨c, name, hname, hc, -⟩
    · exact hrest h ((isLiteral_quoteChars property).append_inj hliteral h).1
    · rw [hname] at h
      simp only [quoteChars, List.cons_append, List.cons.injEq] at h
      rw [← h.1] at hc
      exact absurd hc (by decide)
  · have hcolon : ':' ∉ propertyKey property := by
      rw [propertyKey, if_neg hcustom]
      exact colon_not_mem_camelFrom false property
    by_cases hmem : ':' ∈ e.key
    · obtain ⟨key, after, hsplit, hkey⟩ := List.eq_append_cons_of_mem hmem
      rw [hsplit, List.append_assoc, List.cons_append] at h
      rcases he.key with hliteral | hname
      · exact absurd (hsplit ▸ hliteral) (not_isLiteral_of_colon hvalue he (append_colon_inj hcolon hkey h).2)
      · exact absurd hmem (colon_not_mem_of_isPlainName hname)
    · have hkeys := (append_colon_inj hcolon hmem h).1
      exact ⟨hkeys ▸ he.key, hrest h hkeys⟩

/-! ## Rows of entries -/

/-- Entries behind each other, each with a separator in front of it. -/
def row (entries : List Entry) : List Char := entries.flatMap fun e => ',' :: ' ' :: e.chars

/-- A row of entries begins with a separator and goes on with the entries joined. -/
theorem row_eq_joinWith {entries : List Entry} (h : entries ≠ []) :
    row entries = ',' :: ' ' :: joinWith [',', ' '] (entries.map Entry.chars) := by
  cases entries with
  | nil => exact absurd rfl h
  | cons e entries => simp [row, joinWith_cons, List.flatMap_map]

/-- Two lists of entries that are joined to the same text are written as the same row. -/
theorem row_eq_of_joinWith_eq {entries others : List Entry}
    (h : joinWith [',', ' '] (entries.map Entry.chars) = joinWith [',', ' '] (others.map Entry.chars)) :
    row entries = row others := by
  have hnil : ∀ {entries : List Entry}, joinWith [',', ' '] (entries.map Entry.chars) = [] → entries = [] := by
    intro entries hempty
    match entries with
    | [] => rfl
    | [e] => simp [joinWith, Entry.chars] at hempty
    | e :: f :: entries => simp [joinWith, Entry.chars] at hempty
  by_cases hentries : entries = []
  · subst hentries
    rw [hnil h.symm]
  · by_cases hothers : others = []
    · subst hothers
      exact absurd (hnil h) hentries
    · rw [row_eq_joinWith hentries, row_eq_joinWith hothers, h]

/-- If the entries of declarations are written as a row of inert entries, their keys can stand as keys. -/
theorem isKey_of_row {ds : List Declaration} (hds : ∀ d ∈ ds, ∃ s, d.value = trim s) :
    ∀ {entries : List Entry}, (∀ e ∈ entries, e.Inert) → row (ds.map Declaration.toEntry) = row entries →
      ∀ d ∈ ds, IsKey (propertyKey d.property) := by
  induction ds with
  | nil => exact fun _ _ => nofun
  | cons d ds ih =>
    intro entries hentries hrow
    cases entries with
    | nil => simp [row] at hrow
    | cons e entries =>
      obtain ⟨s, hs⟩ := hds d List.mem_cons_self
      have hsplit : propertyKey d.property ++ ':' :: ' ' :: (quoteChars d.value ++ row (ds.map Declaration.toEntry)) =
          e.key ++ ':' :: ' ' :: (e.value ++ row entries) := by
        simpa [row, Entry.chars, Declaration.toEntry] using hrow
      obtain ⟨hkey, hrest⟩ := isKey_of_entry hs (hentries e List.mem_cons_self) hsplit
      intro d' hd'
      rcases List.mem_cons.mp hd' with rfl | hd'
      · exact hkey
      · exact ih (fun d hd => hds d (List.mem_cons_of_mem _ hd)) (fun e he => hentries e (List.mem_cons_of_mem _ he)) hrest d' hd'

/-! ## Inline styles -/

/-- The value of a declaration is trimmed. -/
theorem value_of_mem_declarations {style : List Char} {d : Declaration} (h : d ∈ declarations style) : ∃ s, d.value = trim s := by
  obtain ⟨piece, -, hpiece⟩ := List.mem_filterMap.mp h
  unfold Declaration.ofPiece? at hpiece
  split at hpiece
  case h_1 => cases hpiece
  case h_2 c value hvalue =>
    simp only at hpiece
    split at hpiece
    case isTrue => cases hpiece
    case isFalse =>
      cases hpiece
      exact ⟨value, rfl⟩

theorem isKey_of_inert {name : String} {style : List Char} (h : Inert name (styleChars style)) :
    ∀ d ∈ declarations style, IsKey (propertyKey d.property) := by
  rw [styleChars_eq] at h
  generalize hs : objectChars ((declarations style).map Declaration.toEntry) = s at h
  cases h with
  | quoted => simp [objectChars] at hs
  | literal hliteral =>
    obtain ⟨body, text, -, rfl⟩ := hliteral
    simp [objectChars] at hs
  | object _ hentries =>
    have hjoined := List.append_cancel_right hs
    exact isKey_of_row (fun _ => value_of_mem_declarations) hentries (row_eq_of_joinWith_eq (List.append_cancel_left hjoined))

theorem inert_styleChars {style : List Char} (h : ∀ d ∈ declarations style, IsKey (propertyKey d.property)) :
    Inert "style" (styleChars style) := by
  rw [styleChars_eq]
  refine .object rfl fun e he => ?_
  obtain ⟨d, hd, rfl⟩ := List.mem_map.mp he
  exact ⟨h d hd, isLiteral_quoteChars d.value⟩

/-- What is written behind the equals sign of an attribute is inert unless the attribute is an inline style with a property that is
neither a custom one nor, in camel case, a key. -/
theorem inert_attributeValue_iff (name value : String) :
    Inert name (attributeValue name value) ↔
      (name = "style" →
        ∀ d ∈ declarations value.toList, isCustomProperty d.property = true ∨ IsKey (camelFrom false d.property)) := by
  by_cases hname : name = "style"
  · subst hname
    have hstyle : attributeValue "style" value = styleChars value.toList := by rw [attributeValue, if_pos rfl]
    simp only [hstyle, true_imp_iff, ← isKey_propertyKey_iff]
    exact ⟨isKey_of_inert, inert_styleChars⟩
  · rw [attributeValue_eq_chars hname]
    exact ⟨fun _ h => absurd h hname, fun _ => inert_chars_ofText name value.toList⟩

/-- A property in square brackets is written as it is, and the module evaluates what stands between them. -/
theorem inert_attributeValue_false : ¬∀ name value : String, Inert name (attributeValue name value) := by
  intro h
  have hstyle : attributeValue "style" "[alert(1)]:red" = styleChars "[alert(1)]:red".toList := by rw [attributeValue, if_pos rfl]
  have hmem : ⟨"[alert(1)]".toList, "red".toList⟩ ∈ declarations "[alert(1)]:red".toList := by decide
  have hkey := isKey_of_inert (hstyle ▸ h "style" "[alert(1)]:red") _ hmem
  have hbracket : propertyKey "[alert(1)]".toList = '[' :: "alert(1)]".toList := by decide
  rw [hbracket] at hkey
  rcases hkey with ⟨body, text, -, hs⟩ | ⟨c, rest, hs, hc, -⟩
  · simp at hs
  · rw [← (List.cons.inj hs).1] at hc
    exact absurd hc (by decide)

end IconForge.Component
