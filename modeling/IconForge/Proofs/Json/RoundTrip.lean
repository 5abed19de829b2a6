import IconForge.Json.Read
import IconForge.Json.Write

/-!
# Reading what has been written

A string is read back from its written form, character by character: every character stands for itself or is what its escape denotes
(`stringChar_cases`, `scanString_flatMap`). So is a plain value, one without numbers, from its laid out form (`read_laidOut`). The fuel
of the readers is spent on characters, so that the length of a text is always enough (`reads_all`).
-/

namespace IconForge.Json

open Text

variable {depth fuel : Nat} {rest : List Char}

/-! ## Units -/

/-- The hexadecimal digit of a value below sixteen. -/
def hexChar (d : Nat) : Char := "0123456789abcdef".toList.getD d '0'

/-- A digit to the base of sixteen is read back. -/
theorem hexDigit?_hexChar {d : Nat} (h : d < 16) : hexDigit? (hexChar d) = some d := by
  have hall : ∀ d < 16, hexDigit? (hexChar d) = some d := by decide
  exact hall d h

/-- The four digits of a code unit. -/
theorem hexDigits_four (n : Nat) :
    hexDigits 4 n = [hexChar (n / 4096 % 16), hexChar (n / 256 % 16), hexChar (n / 16 % 16), hexChar (n % 16)] := by
  simp [hexDigits, hexChar, List.range_succ]

/-- A unit is read back from its four digits. -/
theorem unit?_hexDigits {n : Nat} (h : n < 0x10000) (rest : List Char) : unit? (hexDigits 4 n ++ rest) = some (n, rest) := by
  have hdigit : ∀ m : Nat, hexDigit? (hexChar (m % 16)) = some (m % 16) := fun m => hexDigit?_hexChar (Nat.mod_lt m (by decide))
  rw [hexDigits_four]
  simp only [List.cons_append, List.nil_append, unit?, hdigit, Option.bind_eq_bind, Option.bind_some, Option.pure_def,
    Option.some.injEq, Prod.mk.injEq, and_true]
  omega

/-! ## Characters -/

/-- A unit that is no half of a pair stands for its character. -/
theorem escape?_unit {n : Nat} (h : n < 0x10000) (hhalf : n < 0xD800 ∨ 0xDFFF < n) (rest : List Char) :
    escape? ('u' :: (hexDigits 4 n ++ rest)) = some (Char.ofNat n, rest) := by
  have hhigh : ¬(0xD800 ≤ n ∧ n ≤ 0xDBFF) := by omega
  have hlow : ¬(0xDC00 ≤ n ∧ n ≤ 0xDFFF) := by omega
  simp only [escape?, unit?_hexDigits h, Bool.and_eq_true, decide_eq_true_eq, if_neg hhigh, if_neg hlow]

/-- Two units that form a pair stand for one character. -/
theorem escape?_pair {high low : Nat} (hhigh : 0xD800 ≤ high ∧ high ≤ 0xDBFF) (hlow : 0xDC00 ≤ low ∧ low ≤ 0xDFFF)
    (rest : List Char) :
    escape? ('u' :: (hexDigits 4 high ++ '\\' :: 'u' :: (hexDigits 4 low ++ rest))) =
      some (Char.ofNat (0x10000 + (high - 0xD800) * 0x400 + (low - 0xDC00)), rest) := by
  have hunit : ∀ more, unit? (hexDigits 4 high ++ more) = some (high, more) := unit?_hexDigits (by omega)
  have hunit' : unit? (hexDigits 4 low ++ rest) = some (low, rest) := unit?_hexDigits (by omega) rest
  simp only [escape?, hunit, hunit', Bool.and_eq_true, decide_eq_true_eq, if_pos hhigh, if_pos hlow]

/-- The characters with a short escape, each with what stands for it behind the backslash. -/
def shortEscapes : List (Char × Char) :=
  [('"', '"'), ('\\', '\\'), ('\n', 'n'), ('\r', 'r'), ('\t', 't'), (Char.ofNat 8, 'b'), (Char.ofNat 12, 'f')]

/-- A short escape is read back. -/
theorem stringChar_shortEscape {p : Char × Char} (h : p ∈ shortEscapes) :
    stringChar p.1 = ['\\', p.2] ∧ ∀ rest, escape? (p.2 :: rest) = some (p.1, rest) := by
  simp only [shortEscapes, List.mem_cons, List.not_mem_nil, or_false] at h
  rcases h with rfl | rfl | rfl | rfl | rfl | rfl | rfl <;> exact ⟨rfl, fun _ => rfl⟩

/-- A character without a short escape is written by its number. -/
theorem stringChar_of_not_short {c : Char} (h : ∀ p ∈ shortEscapes, c ≠ p.1) :
    stringChar c = if 0x20 ≤ c.toNat && c.toNat ≤ 0x7E then [c]
      else if c.toNat < 0x10000 then escapedUnit c.toNat
      else escapedUnit (0xD800 + (c.toNat - 0x10000) / 0x400) ++ escapedUnit (0xDC00 + (c.toNat - 0x10000) % 0x400) := by
  have hnumber : ∀ n, c ≠ Char.ofNat n → c.toNat ≠ n := fun n hne hn => hne (by rw [← hn, Char.ofNat_toNat])
  simp only [shortEscapes, List.forall_mem_cons] at h
  obtain ⟨hquote, hbackslash, hfeed, hreturn, htab, hback, hpage, -⟩ := h
  rw [stringChar, if_neg hquote, if_neg hbackslash, if_neg hfeed, if_neg hreturn, if_neg htab, if_neg (hnumber 8 hback),
    if_neg (hnumber 12 hpage)]

/-- What is written for a character: an escape that denotes it, or the character itself, which is then neither a quote, nor a backslash,
nor a control character. -/
theorem stringChar_cases (c : Char) :
    (∃ s, stringChar c = '\\' :: s ∧ ∀ rest, escape? (s ++ rest) = some (c, rest)) ∨
      (stringChar c = [c] ∧ c ≠ '"' ∧ c ≠ '\\' ∧ ¬c.toNat < 0x20) := by
  by_cases hshort : ∃ p ∈ shortEscapes, p.1 = c
  · obtain ⟨p, hp, rfl⟩ := hshort
    obtain ⟨hwritten, hescape⟩ := stringChar_shortEscape hp
    exact .inl ⟨[p.2], hwritten, hescape⟩
  have hne : ∀ p ∈ shortEscapes, c ≠ p.1 := fun p hp hc => hshort ⟨p, hp, hc.symm⟩
  have hvalid : c.toNat < 0xD800 ∨ 0xDFFF < c.toNat ∧ c.toNat < 0x110000 := c.valid
  rw [stringChar_of_not_short hne]
  by_cases hprintable : (decide (0x20 ≤ c.toNat) && decide (c.toNat ≤ 0x7E)) = true
  · rw [if_pos hprintable]
    simp only [Bool.and_eq_true, decide_eq_true_eq] at hprintable
    exact .inr ⟨rfl, hne ('"', '"') (by decide), hne ('\\', '\\') (by decide), by omega⟩
  rw [if_neg hprintable]
  by_cases hunit : c.toNat < 0x10000
  · rw [if_pos hunit]
    refine .inl ⟨'u' :: hexDigits 4 c.toNat, rfl, fun rest => ?_⟩
    rw [List.cons_append, escape?_unit hunit (by omega), Char.ofNat_toNat]
  · -- The character is one beyond the first plane: what is left of it has twenty bits, ten for each half.
    rw [if_neg hunit]
    let n := c.toNat - 0x10000
    have hn : n < 0x100000 := by omega
    refine .inl ⟨'u' :: (hexDigits 4 (0xD800 + n / 0x400) ++ '\\' :: 'u' :: hexDigits 4 (0xDC00 + n % 0x400)), rfl, fun rest => ?_⟩
    have hhigh : 0xD800 ≤ 0xD800 + n / 0x400 ∧ 0xD800 + n / 0x400 ≤ 0xDBFF := by omega
    have hlow : 0xDC00 ≤ 0xDC00 + n % 0x400 ∧ 0xDC00 + n % 0x400 ≤ 0xDFFF := by omega
    have hpair := escape?_pair hhigh hlow rest
    have hsame : 0x10000 + (0xD800 + n / 0x400 - 0xD800) * 0x400 + (0xDC00 + n % 0x400 - 0xDC00) = c.toNat := by omega
    rw [hsame, Char.ofNat_toNat] at hpair
    simpa using hpair

/-! ## Strings -/

/-- No character is written as nothing, so a string is no longer than its written form. -/
theorem length_le_flatMap_stringChar (s : List Char) : s.length ≤ (s.flatMap stringChar).length := by
  induction s with
  | nil => exact Nat.le_refl 0
  | cons c s ih =>
    have hc : 0 < (stringChar c).length := by
      rcases stringChar_cases c with ⟨t, ht, -⟩ | ⟨ht, -⟩ <;> simp [ht]
    rw [List.flatMap_cons, List.length_append, List.length_cons]
    omega

/-- Characters are read back up to the quote that closes them. -/
theorem scanString_flatMap {s : List Char} (h : s.length < fuel) (acc rest : List Char) :
    scanString fuel acc (s.flatMap stringChar ++ '"' :: rest) = .ok (String.ofList (acc.reverse ++ s), rest) := by
  induction s generalizing fuel acc with
  | nil =>
    obtain ⟨fuel, rfl⟩ := Nat.exists_eq_add_of_lt h
    simp [scanString]
  | cons c s ih =>
    obtain ⟨fuel, rfl⟩ : ∃ n, fuel = n + 1 := ⟨fuel - 1, by omega⟩
    have hrest : scanString fuel (c :: acc) (s.flatMap stringChar ++ '"' :: rest) =
        .ok (String.ofList (acc.reverse ++ c :: s), rest) := by
      have hlength : s.length < fuel := by simpa using h
      simpa using ih hlength (c :: acc)
    rw [List.flatMap_cons, List.append_assoc]
    rcases stringChar_cases c with ⟨t, ht, hescape⟩ | ⟨hsame, hquote, hbackslash, hcontrol⟩
    · rw [ht, List.cons_append, scanString, if_neg (by decide), if_pos rfl, hescape]
      exact hrest
    · rw [hsame, List.singleton_append, scanString, if_neg hquote, if_neg hbackslash, if_neg hcontrol]
      exact hrest

/-- A string in its written form, with a rest behind it. -/
theorem stringChars_append (s : String) (rest : List Char) :
    stringChars s ++ rest = '"' :: (s.toList.flatMap stringChar ++ '"' :: rest) := by
  simp [stringChars]

/-- A string is read back from behind its opening quote. -/
theorem scanString_stringChars (s : String) (rest : List Char) :
    scanString ((s.toList.flatMap stringChar ++ '"' :: rest).length + 1) [] (s.toList.flatMap stringChar ++ '"' :: rest) =
      .ok (s, rest) := by
  have hlength : s.toList.length < (s.toList.flatMap stringChar ++ '"' :: rest).length + 1 := by
    have hle := length_le_flatMap_stringChar s.toList
    rw [List.length_append]
    omega
  simpa using scanString_flatMap hlength [] rest

/-! ## Plain values -/

/-- A value without numbers, whose objects have members of distinct names. -/
inductive IsPlain : Value → Prop where
  | null : IsPlain .null
  | bool (b : Bool) : IsPlain (.bool b)
  | string (s : String) : IsPlain (.string s)
  | array {items : List Value} : (∀ item ∈ items, IsPlain item) → IsPlain (.array items)
  | object {members : List (String × Value)} : (members.map (·.1)).Nodup → (∀ m ∈ members, IsPlain m.2) → IsPlain (.object members)

/-- What a plain value starts with is no blank and closes nothing. -/
theorem exists_layout_eq_cons {v : Value} (h : IsPlain v) (depth : Nat) :
    ∃ c s, layout depth v = c :: s ∧ c ∈ ['n', 't', 'f', '"', '[', '{'] := by
  cases h with
  | null => exact ⟨'n', _, rfl, by decide⟩
  | bool b =>
    cases b with
    | true => exact ⟨'t', _, rfl, by decide⟩
    | false => exact ⟨'f', _, rfl, by decide⟩
  | string s => exact ⟨'"', _, rfl, by decide⟩
  | @array items _ => cases items <;> exact ⟨'[', _, rfl, by decide⟩
  | @object members _ _ => cases members <;> exact ⟨'{', _, rfl, by decide⟩

/-! ## Blanks -/

/-- No blanks are skipped before another character. -/
theorem skipBlanks_cons {c : Char} (h : c ∉ [' ', '\t', '\n', '\r']) (s : List Char) : skipBlanks (c :: s) = c :: s := by
  have hc : ¬(decide (c = ' ') || decide (c = '\t') || decide (c = '\n') || decide (c = '\r')) = true := by
    simpa [or_assoc] using h
  exact List.dropWhile_cons_of_neg hc

/-- The break of a line and what sets the next one in are dropped. -/
theorem skipBlanks_lineBreak (depth : Nat) (s : List Char) : skipBlanks (lineBreak depth ++ s) = skipBlanks s := by
  have hblank : ∀ c ∈ lineBreak depth, (decide (c = ' ') || decide (c = '\t') || decide (c = '\n') || decide (c = '\r')) = true := by
    intro c hc
    rcases List.mem_cons.mp hc with rfl | hc
    · decide
    · rw [List.eq_of_mem_replicate hc]
      decide
  exact List.dropWhile_append_of_pos hblank

/-- No blanks are skipped before a value. -/
theorem skipBlanks_layout {v : Value} (h : IsPlain v) (depth : Nat) (rest : List Char) :
    skipBlanks (layout depth v ++ rest) = layout depth v ++ rest := by
  obtain ⟨c, s, hlayout, hc⟩ := exists_layout_eq_cons h depth
  have hblank : c ∉ [' ', '\t', '\n', '\r'] := by
    have hall : (['n', 't', 'f', '"', '[', '{'].all fun c => c ∉ [' ', '\t', '\n', '\r']) = true := by decide
    exact of_decide_eq_true (List.all_eq_true.mp hall c hc)
  rw [hlayout, List.cons_append, skipBlanks_cons hblank]

/-! ## Words and members -/

/-- A word is read back from its written form. -/
theorem scanValue_word {v : Value} (h : v ∈ [Value.null, .bool true, .bool false]) (fuel : Nat) (rest : List Char) :
    scanValue (fuel + 1) (scalarChars v ++ rest) = .ok (v, rest) := by
  have hlengths : "null".length = 4 ∧ "true".length = 4 ∧ "false".length = 5 := by decide
  simp only [List.mem_cons, List.not_mem_nil, or_false] at h
  rcases h with rfl | rfl | rfl <;> simp [scanValue, scanWord, words, afterWord?, scalarChars, hlengths]

/-- A new member goes to the end. -/
theorem putMember_of_not_mem {name : String} (v : Value) {members : List (String × Value)} (h : name ∉ members.map (·.1)) :
    Value.putMember name v members = members ++ [(name, v)] := by
  induction members with
  | nil => rfl
  | cons m members ih =>
    rw [List.map_cons, List.mem_cons, not_or] at h
    rw [Value.putMember, if_neg (Ne.symm h.1), ih h.2, List.cons_append]

/-! ## Values with their parts -/

/-- A member of an object in its written form. -/
def memberChars (depth : Nat) (m : String × Value) : List Char := stringChars m.1 ++ ':' :: ' ' :: layout depth m.2

/-- An array is laid out with its first item, the others, and what follows it. -/
theorem layout_array_append (depth : Nat) (item : Value) (items : List Value) (rest : List Char) :
    layout depth (.array (item :: items)) ++ rest = '[' :: (lineBreak (depth + 1) ++
      (layout (depth + 1) item ++ (layoutItems (depth + 1) items ++ (lineBreak depth ++ ']' :: rest)))) := by
  simp [layout]

/-- An object is laid out with its first member, the others, and what follows it. -/
theorem layout_object_append (depth : Nat) (m : String × Value) (members : List (String × Value)) (rest : List Char) :
    layout depth (.object (m :: members)) ++ rest = '{' :: (lineBreak (depth + 1) ++
      (memberChars (depth + 1) m ++ (layoutMembers (depth + 1) members ++ (lineBreak depth ++ '}' :: rest)))) := by
  simp [layout, memberChars]

/-- The later items follow a comma and a line break each. -/
theorem layoutItems_append (depth : Nat) (item : Value) (items : List Value) (rest : List Char) :
    layoutItems depth (item :: items) ++ rest = ',' :: (lineBreak depth ++ (layout depth item ++ (layoutItems depth items ++ rest))) := by
  simp [layoutItems]

/-- The later members follow a comma and a line break each. -/
theorem layoutMembers_append (depth : Nat) (m : String × Value) (members : List (String × Value)) (rest : List Char) :
    layoutMembers depth (m :: members) ++ rest =
      ',' :: (lineBreak depth ++ (memberChars depth m ++ (layoutMembers depth members ++ rest))) := by
  simp [layoutMembers, memberChars]

/-- A member starts with the quote of its name. -/
theorem memberChars_append (depth : Nat) (m : String × Value) (rest : List Char) :
    memberChars depth m ++ rest = '"' :: (m.1.toList.flatMap stringChar ++ '"' :: (':' :: ' ' :: (layout depth m.2 ++ rest))) := by
  simp [memberChars, stringChars]

theorem skipBlanks_memberChars (depth : Nat) (m : String × Value) (rest : List Char) :
    skipBlanks (memberChars depth m ++ rest) = memberChars depth m ++ rest := skipBlanks_cons (by decide) _

/-- With this fuel every plain value that is not longer is read back, on its own and as one of the items or members of another one. -/
structure Reads (fuel : Nat) : Prop where
  value {v : Value} (depth : Nat) (rest : List Char) : IsPlain v → (layout depth v).length ≤ fuel →
    scanValue fuel (layout depth v ++ rest) = .ok (v, rest)
  items {item : Value} {items : List Value} (depth outer : Nat) (acc : List Value) (rest : List Char) :
    (∀ x ∈ item :: items, IsPlain x) → (layout depth item).length + (layoutItems depth items).length < fuel →
      scanItems fuel acc (layout depth item ++ (layoutItems depth items ++ (lineBreak outer ++ ']' :: rest))) =
        .ok (.array (acc.reverse ++ item :: items), rest)
  members {m : String × Value} {members : List (String × Value)} (depth outer : Nat) (acc : List (String × Value)) (rest : List Char) :
    ((acc ++ m :: members).map (·.1)).Nodup → (∀ x ∈ m :: members, IsPlain x.2) →
      (memberChars depth m).length + (layoutMembers depth members).length < fuel →
        scanMembers fuel acc (memberChars depth m ++ (layoutMembers depth members ++ (lineBreak outer ++ '}' :: rest))) =
          .ok (.object (acc ++ m :: members), rest)

/-- Without fuel there is nothing to read back. -/
theorem reads_zero : Reads 0 where
  value {v} depth rest hplain hlength := by
    obtain ⟨c, s, hlayout, -⟩ := exists_layout_eq_cons hplain depth
    simp [hlayout] at hlength
  items _ _ _ _ _ hlength := absurd hlength (Nat.not_lt_zero _)
  members _ _ _ _ _ _ hlength := absurd hlength (Nat.not_lt_zero _)

namespace Reads

variable (h : Reads fuel)
include h

/-! With one more character to spend, each reader takes its first step and leaves the rest to those with less. -/

/-- The items of an array are read back, if the values in them are. -/
theorem items_succ {item : Value} {items : List Value} (depth outer : Nat) (acc : List Value) (rest : List Char)
    (hplain : ∀ x ∈ item :: items, IsPlain x) (hlength : (layout depth item).length + (layoutItems depth items).length < fuel + 1) :
    scanItems (fuel + 1) acc (layout depth item ++ (layoutItems depth items ++ (lineBreak outer ++ ']' :: rest))) =
      .ok (.array (acc.reverse ++ item :: items), rest) := by
  obtain ⟨hitem, hitems⟩ := List.forall_mem_cons.mp hplain
  have hread := h.value depth (layoutItems depth items ++ (lineBreak outer ++ ']' :: rest)) hitem (by omega)
  rw [scanItems, hread]
  cases items with
  | nil =>
    have hend : skipBlanks (layoutItems depth [] ++ (lineBreak outer ++ ']' :: rest)) = ']' :: rest := by
      rw [layoutItems, List.nil_append, skipBlanks_lineBreak, skipBlanks_cons (by decide)]
    simp [hend]
  | cons next items =>
    have hlonger : (layoutItems depth (next :: items)).length =
        1 + (lineBreak depth).length + (layout depth next).length + (layoutItems depth items).length := by
      simp [layoutItems]
      omega
    have hrest := h.items depth outer (item :: acc) rest hitems (by omega)
    have hcomma : ∀ s, skipBlanks (',' :: s) = ',' :: s := skipBlanks_cons (by decide)
    rw [layoutItems_append]
    simp only [hcomma, skipBlanks_lineBreak, skipBlanks_layout (hitems next List.mem_cons_self), hrest]
    simp

/-- The members of an object with distinct names are read back, if the values in them are. -/
theorem members_succ {m : String × Value} {members : List (String × Value)} (depth outer : Nat) (acc : List (String × Value))
    (rest : List Char) (hnames : ((acc ++ m :: members).map (·.1)).Nodup) (hplain : ∀ x ∈ m :: members, IsPlain x.2)
    (hlength : (memberChars depth m).length + (layoutMembers depth members).length < fuel + 1) :
    scanMembers (fuel + 1) acc (memberChars depth m ++ (layoutMembers depth members ++ (lineBreak outer ++ '}' :: rest))) =
      .ok (.object (acc ++ m :: members), rest) := by
  obtain ⟨name, v⟩ := m
  obtain ⟨hvalue, hmembers⟩ : IsPlain v ∧ ∀ x ∈ members, IsPlain x.2 := List.forall_mem_cons.mp hplain
  have hname : name ∉ acc.map (·.1) := by
    rw [List.map_append, List.nodup_append] at hnames
    intro hmem
    exact hnames.2.2 name hmem name (by simp) rfl
  have hcolon : ∀ s, skipBlanks (':' :: s) = ':' :: s := skipBlanks_cons (by decide)
  have hblank : ∀ s, skipBlanks (' ' :: s) = skipBlanks s := fun s => List.dropWhile_cons_of_pos (by decide)
  have hshorter : (layout depth v).length < (memberChars depth (name, v)).length := by
    simp [memberChars, stringChars]
    omega
  have hread := h.value depth (layoutMembers depth members ++ (lineBreak outer ++ '}' :: rest)) hvalue (by omega)
  rw [memberChars_append, scanMembers]
  simp only [scanString_stringChars, hcolon, hblank, skipBlanks_layout hvalue, hread, putMember_of_not_mem v hname]
  cases members with
  | nil =>
    have hend : skipBlanks (layoutMembers depth [] ++ (lineBreak outer ++ '}' :: rest)) = '}' :: rest := by
      rw [layoutMembers, List.nil_append, skipBlanks_lineBreak, skipBlanks_cons (by decide)]
    simp [hend]
  | cons next members =>
    have hlonger : (layoutMembers depth (next :: members)).length =
        1 + (lineBreak depth).length + (memberChars depth next).length + (layoutMembers depth members).length := by
      simp [layoutMembers, memberChars]
      omega
    have hsplit : (acc ++ (name, v) :: next :: members) = (acc ++ [(name, v)]) ++ next :: members := by simp
    have hrest := h.members depth outer (acc ++ [(name, v)]) rest (hsplit ▸ hnames) hmembers (by omega)
    have hcomma : ∀ s, skipBlanks (',' :: s) = ',' :: s := skipBlanks_cons (by decide)
    rw [layoutMembers_append]
    simp only [hcomma, skipBlanks_lineBreak, skipBlanks_memberChars, hrest, hsplit]

/-- A value is read back, if those inside it are. -/
theorem value_succ {v : Value} (depth : Nat) (rest : List Char) (hplain : IsPlain v) (hlength : (layout depth v).length ≤ fuel + 1) :
    scanValue (fuel + 1) (layout depth v ++ rest) = .ok (v, rest) := by
  cases hplain with
  | null => exact scanValue_word (by simp) fuel rest
  | bool b => exact scanValue_word (by cases b <;> simp) fuel rest
  | string s =>
    rw [layout.eq_def]
    simp only [scalarChars, stringChars_append, scanValue, scanString_stringChars]
    rfl
  | @array items hitems =>
    cases items with
    | nil => rfl
    | cons item items =>
      have hlonger : (layout (depth + 1) item).length + (layoutItems (depth + 1) items).length + 1 <
          (layout depth (.array (item :: items))).length := by
        simp [layout]
        omega
      have hread := h.items (depth + 1) depth [] rest hitems (by omega)
      have hitem := hitems item List.mem_cons_self
      obtain ⟨c, s, hlayout, hc⟩ := exists_layout_eq_cons hitem (depth + 1)
      have hopen : c ≠ ']' := by
        rintro rfl
        exact absurd hc (by decide)
      rw [layout_array_append, scanValue, skipBlanks_lineBreak, skipBlanks_layout hitem]
      rw [hlayout, List.cons_append] at hread ⊢
      split
      case h_1 hclose => exact absurd (List.cons.inj hclose).1 hopen
      case h_2 => exact hread
  | @object members hnames hmembers =>
    cases members with
    | nil => rfl
    | cons m members =>
      have hlonger : (memberChars (depth + 1) m).length + (layoutMembers (depth + 1) members).length + 1 <
          (layout depth (.object (m :: members))).length := by
        simp [layout, memberChars]
        omega
      have hread := h.members (depth + 1) depth [] rest hnames hmembers (by omega)
      rw [layout_object_append, scanValue, skipBlanks_lineBreak, skipBlanks_memberChars]
      rw [memberChars_append] at hread ⊢
      exact hread

end Reads

/-- Whatever the fuel is, it is enough for values that are not longer. -/
theorem reads_all (fuel : Nat) : Reads fuel := by
  induction fuel with
  | zero => exact reads_zero
  | succ fuel ih => exact ⟨ih.value_succ, ih.items_succ, ih.members_succ⟩

/-- A plain value is read back from its laid out form. -/
theorem read_laidOut {v : Value} (h : IsPlain v) : read (laidOut v) = .ok v := by
  have hblanks : skipBlanks (layout 0 v) = layout 0 v := by
    simpa using skipBlanks_layout h 0 []
  have hscan : scanValue (2 * (layout 0 v).length + 2) (layout 0 v) = .ok (v, []) := by
    simpa using (reads_all _).value 0 [] h (by omega)
  have hend : (skipBlanks []).isEmpty = true := rfl
  rw [read, laidOut, String.toList_ofList]
  simp only [hblanks, hscan, hend, if_true]

end IconForge.Json
