import IconForge.Text.Utf8
import Mathlib.Tactic.SplitIfs

/-!
# Which bytes are text

The first byte of a character and those behind it have one of four forms (`Spells`), and these are the encodings of characters
(`spells_iff`) as well as the pieces that decoding takes for characters (`piece_of_spells`, `spells_of_piece`). So bytes are read as a
text exactly if they are its encoding (`decode_eq_ok_iff`).
-/

namespace IconForge.Text.Utf8

open String (utf8EncodeChar)

/-- The first byte of a character and the bytes behind it. -/
inductive Spells (c : Char) : UInt8 → List UInt8 → Prop where
  | one {a : UInt8} (h : a.toNat = c.toNat) (ha : a.toNat < 0x80) : Spells c a []
  | two {a b : UInt8} (ha : 0xC2 ≤ a.toNat ∧ a.toNat < 0xE0) (hb : isTail b = true)
      (h : c.toNat = (a.toNat - 0xC0) * 64 + (b.toNat - 0x80)) : Spells c a [b]
  | three {a b d : UInt8} (ha : 0xE0 ≤ a.toNat ∧ a.toNat < 0xF0) (hb : isSecond a b = true) (hd : isTail d = true)
      (h : c.toNat = ((a.toNat - 0xE0) * 64 + (b.toNat - 0x80)) * 64 + (d.toNat - 0x80)) : Spells c a [b, d]
  | four {a b d e : UInt8} (ha : 0xF0 ≤ a.toNat ∧ a.toNat < 0xF5) (hb : isSecond a b = true) (hd : isTail d = true)
      (he : isTail e = true)
      (h : c.toNat = (((a.toNat - 0xF0) * 64 + (b.toNat - 0x80)) * 64 + (d.toNat - 0x80)) * 64 + (e.toNat - 0x80)) :
      Spells c a [b, d, e]

variable {c : Char} {lead b : UInt8} {tail rest bytes : List UInt8}

/-! ## Bytes as numbers -/

/-- The bytes that go on with a character. -/
theorem isTail_iff : isTail b = true ↔ 0x80 ≤ b.toNat ∧ b.toNat ≤ 0xBF := by
  simp [isTail, UInt8.le_iff_toNat_le]

/-- Which bytes may come second depends on the first one: no character has two forms, and surrogates have none. -/
theorem isSecond_iff : isSecond lead b = true ↔ 0x80 ≤ b.toNat ∧ b.toNat ≤ 0xBF ∧
    (lead.toNat = 0xE0 → 0xA0 ≤ b.toNat) ∧ (lead.toNat = 0xED → b.toNat ≤ 0x9F) ∧ (lead.toNat = 0xF0 → 0x90 ≤ b.toNat) ∧
    (lead.toNat = 0xF4 → b.toNat ≤ 0x8F) := by
  unfold isSecond
  simp only [← UInt8.toNat_inj, UInt8.reduceToNat]
  split_ifs <;> simp only [isTail_iff, Bool.and_eq_true, decide_eq_true_eq, UInt8.le_iff_toNat_le, UInt8.reduceToNat] <;> omega

/-- A number that is no surrogate is that of its character. -/
theorem toNat_ofNat_of_valid {n : Nat} (h : n < 0xD800 ∨ 0xDFFF < n ∧ n < 0x110000) : (Char.ofNat n).toNat = n := by
  rw [Char.ofNat, dif_pos h]
  rfl

/-- Bytes that hold the number of a character are assembled to it. -/
theorem assemble_eq {first : Nat} (h : c.toNat = tail.foldl (fun n b => n * 64 + (b.toNat - 0x80)) first) : assemble first tail = c := by
  rw [assemble, ← h, Char.ofNat_toNat]

/-! ## Characters -/

/-- A character is encoded as it is spelled. -/
theorem spells_iff : Spells c lead tail ↔ utf8EncodeChar c = lead :: tail := by
  have hval : c.val.toNat = c.toNat := rfl
  have hvalid : c.toNat < 0xD800 ∨ 0xDFFF < c.toNat ∧ c.toNat < 0x110000 := c.valid
  constructor
  · intro h
    cases h with
    | one h ha =>
      simp only [utf8EncodeChar, hval]
      rw [if_pos (by omega), ← h, UInt8.ofNat_toNat]
    | two ha hb h =>
      rw [isTail_iff] at hb
      simp only [utf8EncodeChar, hval]
      rw [if_neg (by omega), if_pos (by omega)]
      simp only [List.cons.injEq, ← UInt8.toNat_inj, UInt8.toNat_ofNat', and_true]
      omega
    | three ha hb hd h =>
      rw [isTail_iff] at hd
      rw [isSecond_iff] at hb
      simp only [utf8EncodeChar, hval]
      rw [if_neg (by omega), if_neg (by omega), if_pos (by omega)]
      simp only [List.cons.injEq, ← UInt8.toNat_inj, UInt8.toNat_ofNat', and_true]
      omega
    | four ha hb hd he h =>
      rw [isTail_iff] at hd he
      rw [isSecond_iff] at hb
      simp only [utf8EncodeChar, hval]
      rw [if_neg (by omega), if_neg (by omega), if_neg (by omega)]
      simp only [List.cons.injEq, ← UInt8.toNat_inj, UInt8.toNat_ofNat', and_true]
      omega
  · intro h
    simp only [utf8EncodeChar, hval] at h
    split_ifs at h <;> obtain ⟨rfl, rfl⟩ := List.cons.inj h
    · exact .one (by simp only [UInt8.toNat_ofNat']; omega) (by simp only [UInt8.toNat_ofNat']; omega)
    · refine .two ?_ ?_ ?_ <;> simp only [isTail_iff, UInt8.toNat_ofNat'] <;> omega
    · refine .three ?_ ?_ ?_ ?_ <;> simp only [isTail_iff, isSecond_iff, UInt8.toNat_ofNat'] <;> omega
    · refine .four ?_ ?_ ?_ ?_ ?_ <;> simp only [isTail_iff, isSecond_iff, UInt8.toNat_ofNat'] <;> omega

/-- What is spelled as a character is taken for it, whatever follows. -/
theorem piece_of_spells (h : Spells c lead tail) (rest : List UInt8) : piece lead (tail ++ rest) = .char c (tail.length + 1) := by
  unfold piece
  simp only [UInt8.lt_iff_toNat_lt, UInt8.reduceToNat]
  cases h with
  | one h ha =>
    rw [if_pos ha, h, Char.ofNat_toNat]
    rfl
  | @two b ha hb h =>
    have hchar : assemble (lead.toNat - 0xC0) [b] = c := assemble_eq h
    rw [if_neg (by omega), if_neg (by omega), if_pos (by omega)]
    simp only [List.cons_append, hb, hchar, if_true]
    rfl
  | @three b d ha hb hd h =>
    have hchar : assemble (lead.toNat - 0xE0) [b, d] = c := assemble_eq h
    rw [if_neg (by omega), if_neg (by omega), if_neg (by omega), if_pos (by omega)]
    simp only [List.cons_append, hb, hd, hchar, Bool.not_true, Bool.false_eq_true, if_false]
    rfl
  | @four b d e ha hb hd he h =>
    have hchar : assemble (lead.toNat - 0xF0) [b, d, e] = c := assemble_eq h
    rw [if_neg (by omega), if_neg (by omega), if_neg (by omega), if_neg (by omega), if_pos (by omega)]
    simp only [List.cons_append, hb, hd, he, hchar, Bool.not_true, Bool.false_eq_true, if_false]
    rfl

/-- What is taken for a character is spelled as it. -/
theorem spells_of_piece {n : Nat} (h : piece lead rest = .char c n) :
    ∃ tail more, rest = tail ++ more ∧ n = tail.length + 1 ∧ Spells c lead tail := by
  unfold piece at h
  simp only [UInt8.lt_iff_toNat_lt, UInt8.reduceToNat, Bool.not_eq_true'] at h
  split_ifs at h with hone hstart htwo hthree hfour
  · obtain ⟨rfl, rfl⟩ := Piece.char.inj h
    exact ⟨[], rest, rfl, rfl, .one (toNat_ofNat_of_valid (by omega)).symm hone⟩
  · split at h
    · cases h
    · rename_i b more
      split_ifs at h with hb
      obtain ⟨rfl, rfl⟩ := Piece.char.inj h
      refine ⟨[b], more, rfl, rfl, .two (by omega) hb ?_⟩
      rw [isTail_iff] at hb
      exact toNat_ofNat_of_valid (by simp only [List.foldl]; omega)
  · split at h
    · cases h
    · split_ifs at h
    · rename_i b d more
      split_ifs at h with hb hd
      obtain ⟨rfl, rfl⟩ := Piece.char.inj h
      rw [Bool.not_eq_false] at hb hd
      refine ⟨[b, d], more, rfl, rfl, .three (by omega) hb hd ?_⟩
      rw [isTail_iff] at hd
      rw [isSecond_iff] at hb
      exact toNat_ofNat_of_valid (by simp only [List.foldl]; omega)
  · split at h
    · cases h
    · split_ifs at h
    · split_ifs at h
    · rename_i b d e more
      split_ifs at h with hb hd he
      obtain ⟨rfl, rfl⟩ := Piece.char.inj h
      rw [Bool.not_eq_false] at hb hd he
      refine ⟨[b, d, e], more, rfl, rfl, .four (by omega) hb hd he ?_⟩
      rw [isTail_iff] at hd he
      rw [isSecond_iff] at hb
      exact toNat_ofNat_of_valid (by simp only [List.foldl]; omega)

/-! ## Texts -/

/-- A text is encoded character by character. -/
theorem encode_ofList (cs : List Char) : encode (String.ofList cs) = cs.flatMap utf8EncodeChar := by
  rw [encode, String.toUTF8_eq_toByteArray, String.toByteArray_ofList, List.utf8Encode, List.data_toByteArray]

/-- Bytes that belong to a piece that has been taken are passed over. -/
theorem piecesFrom_append (front rest : List UInt8) : piecesFrom front.length (front ++ rest) = pieces rest := by
  induction front with
  | nil => rfl
  | cons b front ih => exact ih

/-- The pieces of bytes that start as a character is spelled. -/
theorem pieces_cons_of_spells (h : Spells c lead tail) (rest : List UInt8) :
    pieces (lead :: (tail ++ rest)) = .char c (tail.length + 1) :: pieces rest := by
  rw [pieces, piecesFrom, piece_of_spells h, ← piecesFrom_append tail rest]
  rfl

/-- The characters of encoded characters, wherever these stand. -/
theorem charsOf_pieces_flatMap (whole : List UInt8) (cs : List Char) (offset : Nat) :
    charsOf whole offset (pieces (cs.flatMap utf8EncodeChar)) = .ok cs := by
  induction cs generalizing offset with
  | nil => rfl
  | cons c cs ih =>
    cases hc : utf8EncodeChar c with
    | nil =>
      have hlen := String.length_utf8EncodeChar c
      rw [hc] at hlen
      exact absurd hlen.symm (Nat.pos_iff_ne_zero.mp c.utf8Size_pos)
    | cons lead tail =>
      rw [List.flatMap_cons, hc, List.cons_append, pieces_cons_of_spells (spells_iff.mpr hc), charsOf, ih]
      rfl

/-- Bytes whose pieces are characters are their encoding. -/
theorem flatMap_of_charsOf {whole : List UInt8} {cs : List Char} {offset : Nat} (h : charsOf whole offset (pieces bytes) = .ok cs) :
    bytes = cs.flatMap utf8EncodeChar := by
  induction hlen : bytes.length using Nat.strongRecOn generalizing bytes cs offset with
  | ind n ih =>
    cases bytes with
    | nil =>
      cases h
      rfl
    | cons lead rest =>
      cases hp : piece lead rest with
      | bad defect width =>
        simp only [pieces, piecesFrom, hp, charsOf] at h
        cases h
      | char c width =>
        obtain ⟨tail, more, rfl, -, hspells⟩ := spells_of_piece hp
        rw [pieces_cons_of_spells hspells, charsOf] at h
        cases hmore : charsOf whole (offset + (tail.length + 1)) (pieces more) with
        | error f =>
          rw [hmore] at h
          cases h
        | ok cs' =>
          rw [hmore] at h
          cases h
          have hshort : more.length < n := by
            rw [← hlen, List.length_cons, List.length_append]
            omega
          rw [List.flatMap_cons, spells_iff.mp hspells, ← ih _ hshort hmore rfl, List.cons_append]

/-- Bytes are read as a text exactly if they are its encoding. -/
theorem decode_eq_ok_iff {s : String} : decode bytes = .ok s ↔ bytes = encode s := by
  constructor
  · intro h
    cases hcs : charsOf bytes 0 (pieces bytes) with
    | error f =>
      rw [decode, hcs] at h
      cases h
    | ok cs =>
      rw [decode, hcs] at h
      rw [← Except.ok.inj h, encode_ofList]
      exact flatMap_of_charsOf hcs
  · rintro rfl
    have hbytes : encode s = s.toList.flatMap utf8EncodeChar := by rw [← encode_ofList, String.ofList_toList]
    rw [decode, hbytes, charsOf_pieces_flatMap, Except.map, String.ofList_toList]

/-- Bytes that are not read as a text encode none. -/
theorem exists_error_iff : (∃ f, decode bytes = .error f) ↔ ∀ s, bytes ≠ encode s := by
  cases hd : decode bytes with
  | ok s => exact iff_of_false nofun fun h => h s (decode_eq_ok_iff.mp hd)
  | error f =>
    refine iff_of_true ⟨f, rfl⟩ fun s hs => ?_
    rw [decode_eq_ok_iff.mpr hs] at hd
    cases hd

end IconForge.Text.Utf8
