import IconForge.Component.Literal

/-!
# String literals

The single-quoted string literals of the generated modules: which characters may stand between the quotes and what text they denote
(`Denotes`), and a reader that finds the end of a literal and decodes it (`literalBody?_eq_some_iff`). What is written for a text
denotes that text (`denotes_flatMap_escapeChar`), so every text comes back from its literal, whatever stands behind it
(`literal?_quoteChars`).
-/

namespace IconForge.Component

/-! ## What a literal denotes -/

/-- The character that a backslash and another character stand for. Escapes that go on (`\x`, `\u` and digits) and escaped ends of
lines stand for no single character here. -/
def unescape? (c : Char) : Option Char :=
  match c with
  | 'b' => some '\x08'
  | 't' => some '\t'
  | 'n' => some '\n'
  | 'v' => some '\x0b'
  | 'f' => some '\x0c'
  | 'r' => some '\r'
  | 'x' | 'u' | '\n' | '\r' | '\u2028' | '\u2029' => none
  | c => if c.isDigit then none else some c

/-- A character that stands for itself: no quote, no backslash and no end of a line. -/
structure IsOrdinary (c : Char) : Prop where
  ne_backslash : c ≠ '\\'
  ne_quote : c ≠ '\''
  ne_lineFeed : c ≠ '\n'
  ne_return : c ≠ '\r'

/-- The characters between the quotes of a literal, and the text they denote. -/
inductive Denotes : List Char → List Char → Prop
  | nil : Denotes [] []
  | escape {c x : Char} {body text : List Char} (h : unescape? c = some x) (hs : Denotes body text) :
      Denotes ('\\' :: c :: body) (x :: text)
  | ordinary {c : Char} {body text : List Char} (h : IsOrdinary c) (hs : Denotes body text) : Denotes (c :: body) (c :: text)

/-- One single-quoted string literal and nothing else. -/
def IsLiteral (s : List Char) : Prop := ∃ body text, Denotes body text ∧ s = '\'' :: body ++ ['\'']

/-- A quote inside a literal stands behind a backslash. -/
theorem Denotes.before_quote {body text : List Char} (h : Denotes body text) {before after : List Char}
    (hsplit : body = before ++ '\'' :: after) : ∃ earlier, before = earlier ++ ['\\'] := by
  induction h generalizing before with
  | nil => simp at hsplit
  | @escape c x body text _ _ ih =>
    match before with
    | [] => simp at hsplit
    | [b] =>
      simp only [List.cons_append, List.cons.injEq] at hsplit
      exact ⟨[], by rw [← hsplit.1, List.nil_append]⟩
    | b :: d :: before =>
      simp only [List.cons_append, List.cons.injEq] at hsplit
      obtain ⟨earlier, rfl⟩ := ih hsplit.2.2
      exact ⟨b :: d :: earlier, rfl⟩
  | @ordinary c body text hc _ ih =>
    match before with
    | [] =>
      simp only [List.nil_append, List.cons.injEq] at hsplit
      exact absurd hsplit.1 hc.ne_quote
    | b :: before =>
      simp only [List.cons_append, List.cons.injEq] at hsplit
      obtain ⟨earlier, rfl⟩ := ih hsplit.2
      exact ⟨b :: earlier, rfl⟩

/-- The character in front of a quote inside a literal is a backslash. -/
theorem Denotes.eq_backslash {before after text : List Char} {c : Char} (h : Denotes (before ++ c :: '\'' :: after) text) :
    c = '\\' := by
  have hsplit : before ++ c :: '\'' :: after = (before ++ [c]) ++ '\'' :: after := by simp
  obtain ⟨earlier, hearlier⟩ := h.before_quote hsplit
  exact (List.cons.inj (List.append_inj' hearlier rfl).2).1

/-! ## Reading a literal -/

/-- The text of a literal from behind its opening quote, and what is left behind the closing one. -/
def literalBody? : List Char → Option (List Char × List Char)
  | [] => none
  | '\'' :: rest => some ([], rest)
  | '\n' :: _ => none
  | '\r' :: _ => none
  | '\\' :: c :: rest => do
    let c ← unescape? c
    let (text, rest) ← literalBody? rest
    some (c :: text, rest)
  | ['\\'] => none
  | c :: rest => do
    let (text, rest) ← literalBody? rest
    some (c :: text, rest)

/-- The text of the single-quoted literal at the front of a text, and what is left behind it. -/
def literal? : List Char → Option (List Char × List Char)
  | '\'' :: s => literalBody? s
  | _ => none

/-- A body that denotes a text is read as that text, up to the quote behind it. -/
theorem literalBody?_of_denotes {body text : List Char} (h : Denotes body text) (rest : List Char) :
    literalBody? (body ++ '\'' :: rest) = some (text, rest) := by
  induction h with
  | nil => rfl
  | escape hc _ ih => simp [literalBody?, hc, ih]
  | ordinary hc _ ih => simp [literalBody?, hc.ne_backslash, hc.ne_quote, hc.ne_lineFeed, hc.ne_return, ih]

/-- What is read as the body of a literal denotes the text that is read. -/
theorem exists_denotes_of_literalBody? {s text rest : List Char} (h : literalBody? s = some (text, rest)) :
    ∃ body, Denotes body text ∧ s = body ++ '\'' :: rest := by
  fun_induction literalBody? s generalizing text with
  | case1 | case3 | case4 | case6 => simp at h
  | case2 s =>
    obtain ⟨rfl, rfl⟩ : [] = text ∧ s = rest := by simpa using h
    exact ⟨[], .nil, rfl⟩
  | case5 c s ih =>
    simp only [Option.bind_eq_bind, Option.bind_eq_some_iff, Option.some.injEq, Prod.mk.injEq] at h
    obtain ⟨x, hx, ⟨text', rest'⟩, hs, rfl, rfl⟩ := h
    obtain ⟨body, hbody, rfl⟩ := ih hs
    exact ⟨'\\' :: c :: body, .escape hx hbody, rfl⟩
  | case7 c s hquote hline hreturn hescape hlast ih =>
    simp only [Option.bind_eq_bind, Option.bind_eq_some_iff, Option.some.injEq, Prod.mk.injEq] at h
    obtain ⟨⟨text', rest'⟩, hs, rfl, rfl⟩ := h
    obtain ⟨body, hbody, rfl⟩ := ih hs
    refine ⟨c :: body, .ordinary ⟨?_, hquote, hline, hreturn⟩ hbody, rfl⟩
    rintro rfl
    cases body with
    | nil => exact hescape _ _ rfl rfl
    | cons d body => exact hescape _ _ rfl rfl

/-- Reading the body of a literal finds what it denotes, and nothing else. -/
theorem literalBody?_eq_some_iff {s text rest : List Char} :
    literalBody? s = some (text, rest) ↔ ∃ body, Denotes body text ∧ s = body ++ '\'' :: rest := by
  refine ⟨exists_denotes_of_literalBody?, ?_⟩
  rintro ⟨body, hbody, rfl⟩
  exact literalBody?_of_denotes hbody rest

/-! ## The literal of a text -/

/-- The escape of a character denotes that character. -/
theorem denotes_escapeChar (c : Char) {body text : List Char} (h : Denotes body text) :
    Denotes (escapeChar c ++ body) (c :: text) := by
  unfold escapeChar
  split
  case h_5 hbackslash hquote hline hreturn => exact .ordinary ⟨hbackslash, hquote, hline, hreturn⟩ h
  all_goals exact .escape (by decide) h

/-- A text with all its characters escaped denotes the text. -/
theorem denotes_flatMap_escapeChar (s : List Char) : Denotes (s.flatMap escapeChar) s := by
  induction s with
  | nil => exact .nil
  | cons c s ih => exact denotes_escapeChar c ih

/-- A quoted text is a literal. -/
theorem isLiteral_quoteChars (s : List Char) : IsLiteral (quoteChars s) :=
  ⟨_, s, denotes_flatMap_escapeChar s, rfl⟩

/-- Every text comes back from its literal, whatever stands behind it. -/
theorem literal?_quoteChars (s rest : List Char) : literal? (quoteChars s ++ rest) = some (s, rest) := by
  have h : quoteChars s ++ rest = '\'' :: (s.flatMap escapeChar ++ '\'' :: rest) := by simp [quoteChars]
  rw [h]
  exact literalBody?_of_denotes (denotes_flatMap_escapeChar s) rest

end IconForge.Component
