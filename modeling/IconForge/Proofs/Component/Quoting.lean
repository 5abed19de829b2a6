import IconForge.Proofs.Component.Literal

/-!
# Quoting

A text is quoted by escaping one mark after the other, the backslash first, so that no escape is escaped again
(`replaceAll_markEscapes`). Scanning what is written gives the text back and stops behind it, whatever follows and whatever escapes the
scanner knows besides those that are written (`scan?_quoteChars`). A scanner that knows no other escape reads nothing else so: the
literal of a text is the only one that it takes for this text (`scan?_written_eq_some_iff`).
-/

namespace IconForge.Component

/-! ## One mark after the other -/

/-- A text with another one in place of every occurrence of a mark. -/
def replace (mark : Char) (image s : List Char) : List Char := s.flatMap fun c => if c = mark then image else [c]

/-- The marks that are escaped, in order, each with its escape. -/
def markEscapes : List (Char × List Char) :=
  [('\\', ['\\', '\\']), ('\'', ['\\', '\'']), ('\n', ['\\', 'n']), ('\r', ['\\', 'r'])]

/-- A text with marks replaced one after the other, all occurrences of one before those of the next. -/
def replaceAll (images : List (Char × List Char)) (s : List Char) : List Char :=
  images.foldl (fun s image => replace image.1 image.2 s) s

/-- Replacing character by character goes through two texts one after the other. -/
theorem replaceAll_append (images : List (Char × List Char)) (s t : List Char) :
    replaceAll images (s ++ t) = replaceAll images s ++ replaceAll images t := by
  induction images generalizing s t with
  | nil => rfl
  | cons image images ih =>
    have hstep : replace image.1 image.2 (s ++ t) = replace image.1 image.2 s ++ replace image.1 image.2 t := List.flatMap_append
    exact (congrArg (replaceAll images) hstep).trans (ih _ _)

/-- A character that is no mark stays as it is. -/
theorem replaceAll_singleton_of_ne {images : List (Char × List Char)} {c : Char} (h : ∀ image ∈ images, c ≠ image.1) :
    replaceAll images [c] = [c] := by
  induction images with
  | nil => rfl
  | cons image images ih =>
    have hstep : replace image.1 image.2 [c] = [c] := by
      simp [replace, h image List.mem_cons_self]
    exact (congrArg (replaceAll images) hstep).trans (ih fun i hi => h i (List.mem_cons_of_mem _ hi))

/-- The chain of replacements does to one character what its escape does. -/
theorem replaceAll_markEscapes_singleton (c : Char) : replaceAll markEscapes [c] = escapeChar c := by
  unfold escapeChar
  split
  case h_5 hbackslash hquote hline hreturn =>
    refine replaceAll_singleton_of_ne ?_
    simp only [markEscapes, List.forall_mem_cons]
    exact ⟨hbackslash, hquote, hline, hreturn, nofun⟩
  all_goals rfl

/-- Escaping one mark after the other escapes every character once. -/
theorem replaceAll_markEscapes (s : List Char) : replaceAll markEscapes s = s.flatMap escapeChar := by
  induction s with
  | nil => rfl
  | cons c s ih =>
    have hsplit := replaceAll_append markEscapes [c] s
    rw [List.singleton_append] at hsplit
    rw [hsplit, ih, replaceAll_markEscapes_singleton, List.flatMap_cons]

-- The backslash has to come first: else it is doubled in the escapes of the others.
example : replaceAll markEscapes.reverse ['\n'] = ['\\', '\\', 'n'] := by decide

/-! ## Scanning -/

/-- The characters that a backslash and another character stand for. Scanners know different escapes, and these four at least. -/
structure Escapes where
  character? : Char → Option Char
  backslash : character? '\\' = some '\\'
  quote : character? '\'' = some '\''
  lineFeed : character? 'n' = some '\n'
  carriageReturn : character? 'r' = some '\r'

/-- The four escapes that are written and no other. -/
def Escapes.written : Escapes where
  character?
    | '\\' => some '\\'
    | '\'' => some '\''
    | 'n' => some '\n'
    | 'r' => some '\r'
    | _ => none
  backslash := rfl
  quote := rfl
  lineFeed := rfl
  carriageReturn := rfl

/-- All escapes of one character that modules know. -/
def Escapes.single : Escapes where
  character? := unescape?
  backslash := by decide
  quote := by decide
  lineFeed := by decide
  carriageReturn := by decide

variable {E : Escapes}

variable (E) in
/-- The text of a literal from behind its opening quote, and what is left behind the closing one. A line that ends before the literal
does, or a backslash that is no escape, makes it none. -/
def scanBody? : List Char → Option (List Char × List Char)
  | [] => none
  | '\\' :: s =>
    match s with
    | [] => none
    | c :: s => (E.character? c).bind fun x => (scanBody? s).map fun r => (x :: r.1, r.2)
  | c :: s =>
    if c = '\'' then some ([], s)
    else if c = '\n' ∨ c = '\r' then none
    else (scanBody? s).map fun r => (c :: r.1, r.2)

variable (E) in
/-- The text of the single-quoted literal at the front of a text, and what is left behind it. -/
def scan? : List Char → Option (List Char × List Char)
  | '\'' :: s => scanBody? E s
  | _ => none

/-- An ordinary character stands for itself in a literal. -/
theorem scanBody?_cons_of_isOrdinary {c : Char} (h : IsOrdinary c) (s : List Char) :
    scanBody? E (c :: s) = (scanBody? E s).map fun r => (c :: r.1, r.2) := by
  rw [scanBody?.eq_def]
  simp [h.ne_backslash, h.ne_quote, h.ne_lineFeed, h.ne_return]

/-- The escape of a character is scanned back as that character, whatever follows. -/
theorem scanBody?_escapeChar_append (c : Char) {s text rest : List Char} (h : scanBody? E s = some (text, rest)) :
    scanBody? E (escapeChar c ++ s) = some (c :: text, rest) := by
  unfold escapeChar
  split
  case h_1 => simp [scanBody?, E.backslash, h]
  case h_2 => simp [scanBody?, E.quote, h]
  case h_3 => simp [scanBody?, E.lineFeed, h]
  case h_4 => simp [scanBody?, E.carriageReturn, h]
  case h_5 hbackslash hquote hline hreturn =>
    rw [List.singleton_append, scanBody?_cons_of_isOrdinary ⟨hbackslash, hquote, hline, hreturn⟩, h, Option.map_some]

/-- Every text comes back from its escaped characters, up to the quote that closes them. -/
theorem scanBody?_flatMap_escapeChar (s rest : List Char) : scanBody? E (s.flatMap escapeChar ++ '\'' :: rest) = some (s, rest) := by
  induction s with
  | nil => rfl
  | cons c s ih =>
    rw [List.flatMap_cons, List.append_assoc]
    exact scanBody?_escapeChar_append c ih

/-- A quoted text is scanned back, and the scan stops at its closing quote. -/
theorem scan?_quoteChars (s rest : List Char) : scan? E (quoteChars s ++ rest) = some (s, rest) := by
  have h : quoteChars s ++ rest = '\'' :: (s.flatMap escapeChar ++ '\'' :: rest) := by simp [quoteChars]
  rw [h]
  exact scanBody?_flatMap_escapeChar s rest

/-- An escape that is written is that of the character it stands for. -/
theorem escapeChar_of_written {c x : Char} (h : Escapes.written.character? c = some x) : escapeChar x = ['\\', c] := by
  simp only [Escapes.written] at h
  split at h
  case h_5 => cases h
  all_goals
    cases h
    rfl

theorem escapeChar_of_isOrdinary {c : Char} (h : IsOrdinary c) : escapeChar c = [c] := by
  unfold escapeChar
  split
  case h_1 => exact absurd rfl h.ne_backslash
  case h_2 => exact absurd rfl h.ne_quote
  case h_3 => exact absurd rfl h.ne_lineFeed
  case h_4 => exact absurd rfl h.ne_return
  case h_5 => rfl

/-- What is scanned with the escapes that are written has been written so. -/
theorem eq_of_scanBody?_written {s text rest : List Char} (h : scanBody? .written s = some (text, rest)) :
    s = text.flatMap escapeChar ++ '\'' :: rest := by
  fun_induction scanBody? Escapes.written s generalizing text with
  | case1 | case2 | case5 => cases h
  | case3 c s ih =>
    obtain ⟨x, hx, hmap⟩ := Option.bind_eq_some_iff.mp h
    obtain ⟨⟨text', rest'⟩, hs, hr⟩ := Option.map_eq_some_iff.mp hmap
    obtain ⟨rfl, rfl⟩ := Prod.mk.inj hr
    rw [List.flatMap_cons, escapeChar_of_written hx, ih hs]
    rfl
  | case4 s =>
    obtain ⟨rfl, rfl⟩ : [] = text ∧ s = rest := by simpa using h
    rfl
  | case6 c s hbackslash hquote hline ih =>
    obtain ⟨⟨text', rest'⟩, hs, hr⟩ := Option.map_eq_some_iff.mp h
    obtain ⟨rfl, rfl⟩ := Prod.mk.inj hr
    have hc : IsOrdinary c := ⟨hbackslash, hquote, fun hc => hline (.inl hc), fun hc => hline (.inr hc)⟩
    rw [List.flatMap_cons, escapeChar_of_isOrdinary hc, ih hs]
    rfl

/-- The literal of a text is the only one that says it with the escapes that are written. -/
theorem scan?_written_eq_some_iff {s text rest : List Char} :
    scan? .written s = some (text, rest) ↔ s = quoteChars text ++ rest := by
  constructor
  · intro h
    unfold scan? at h
    split at h
    case h_1 s =>
      rw [eq_of_scanBody?_written h]
      simp [quoteChars]
    case h_2 => cases h
  · rintro rfl
    exact scan?_quoteChars text rest

/-- A text is quoted by escaping one mark after the other. Whatever stands behind its literal, every scanner of literals gives the text
back and stops right behind it, and a scanner that knows no other escapes takes nothing else for this text. So no literal is that of
another text or the front of another literal. -/
theorem quote_scanned (E : Escapes) (text : String) (rest : List Char) :
    (quote text).toList = '\'' :: replaceAll markEscapes text.toList ++ ['\''] ∧
      scan? E ((quote text).toList ++ rest) = some (text.toList, rest) ∧
      (∀ s, scan? .written s = some (text.toList, rest) ↔ s = (quote text).toList ++ rest) ∧
      ∀ (other : String) (more : List Char),
        (quote other).toList ++ more = (quote text).toList ++ rest → other = text ∧ more = rest := by
  have hquote : ∀ t : String, (quote t).toList = quoteChars t.toList := fun t => String.toList_ofList
  have hscan : ∀ (t : String) (r : List Char), scan? E ((quote t).toList ++ r) = some (t.toList, r) := by
    intro t r
    rw [hquote]
    exact scan?_quoteChars t.toList r
  refine ⟨?_, hscan text rest, ?_, ?_⟩
  · rw [hquote, replaceAll_markEscapes]
    rfl
  · intro s
    rw [hquote]
    exact scan?_written_eq_some_iff
  · intro other more h
    have hsame := hscan other more
    rw [h, hscan text rest, Option.some.injEq, Prod.mk.injEq] at hsame
    exact ⟨String.toList_inj.mp hsame.1.symm, hsame.2.symm⟩

-- A scanner of modules that knows other escapes as well stops behind the literal all the same.
example : scan? .single ((quote "it's\n").toList ++ [';']) = some ("it's\n".toList, [';']) := by decide

end IconForge.Component
