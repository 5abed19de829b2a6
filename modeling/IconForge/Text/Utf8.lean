/-!
# Bytes as text

A byte string is cut from the left into pieces: a piece is the encoding of one character or a maximal prefix that no further byte
can complete. Strict decoding refuses at the first bad piece and says where it stands; lossy decoding shows each bad piece as one
replacement character. Both read the same pieces, so they agree on bytes that hold no bad one (`decodeLossy_of_decode`).
-/

namespace IconForge.Text.Utf8

/-- Why a piece is no character. -/
inductive Defect where
  /-- No character starts with this byte. -/
  | start
  /-- The byte after the piece cannot continue it. -/
  | continuation
  /-- The text ends inside a character. -/
  | truncated
  deriving Repr, DecidableEq

/-- One piece of a byte string, with the number of bytes it takes. -/
inductive Piece where
  | char (c : Char) (width : Nat)
  | bad (defect : Defect) (width : Nat)
  deriving Repr, DecidableEq

/-- The number of bytes that a piece takes. -/
def Piece.width : Piece → Nat
  | .char _ n => n
  | .bad _ n => n

/-- A byte that continues a character. -/
def isTail (b : UInt8) : Bool := 0x80 ≤ b && b ≤ 0xBF

/-- The bytes that may follow a lead byte: overlong forms, surrogates and values beyond the last code point are left out here. -/
def isSecond (lead b : UInt8) : Bool :=
  if lead = 0xE0 then 0xA0 ≤ b && b ≤ 0xBF
  else if lead = 0xED then 0x80 ≤ b && b ≤ 0x9F
  else if lead = 0xF0 then 0x90 ≤ b && b ≤ 0xBF
  else if lead = 0xF4 then 0x80 ≤ b && b ≤ 0x8F
  else isTail b

/-- The character with the six-bit groups of the tail bytes behind the bits of the lead byte. -/
def assemble (lead : Nat) (tail : List UInt8) : Char :=
  Char.ofNat (tail.foldl (fun n b => n * 64 + (b.toNat - 0x80)) lead)

/-- The piece that starts with the byte `lead` and goes on in `rest`. -/
def piece (lead : UInt8) (rest : List UInt8) : Piece :=
  if lead < 0x80 then .char (Char.ofNat lead.toNat) 1
  else if lead < 0xC2 then .bad .start 1
  else if lead < 0xE0 then
    match rest with
    | [] => .bad .truncated 1
    | b :: _ => if isTail b then .char (assemble (lead.toNat - 0xC0) [b]) 2 else .bad .continuation 1
  else if lead < 0xF0 then
    match rest with
    | [] => .bad .truncated 1
    | [b] => if isSecond lead b then .bad .truncated 2 else .bad .continuation 1
    | b :: c :: _ =>
      if !isSecond lead b then .bad .continuation 1
      else if !isTail c then .bad .continuation 2
      else .char (assemble (lead.toNat - 0xE0) [b, c]) 3
  else if lead < 0xF5 then
    match rest with
    | [] => .bad .truncated 1
    | [b] => if isSecond lead b then .bad .truncated 2 else .bad .continuation 1
    | [b, c] =>
      if !isSecond lead b then .bad .continuation 1
      else if !isTail c then .bad .continuation 2
      else .bad .truncated 3
    | b :: c :: d :: _ =>
      if !isSecond lead b then .bad .continuation 1
      else if !isTail c then .bad .continuation 2
      else if !isTail d then .bad .continuation 3
      else .char (assemble (lead.toNat - 0xF0) [b, c, d]) 4
  else .bad .start 1

/-- The pieces of a byte string of which the first `skip` bytes belong to a piece already taken. -/
def piecesFrom : Nat → List UInt8 → List Piece
  | _, [] => []
  | skip + 1, _ :: rest => piecesFrom skip rest
  | 0, b :: rest =>
    let p := piece b rest
    p :: piecesFrom (p.width - 1) rest

/-- The pieces of a byte string, in order. -/
def pieces (bytes : List UInt8) : List Piece := piecesFrom 0 bytes

/-- Why bytes are no text: the first defect, the bytes of its piece and the offset of the first of them. -/
structure Fault where
  defect : Defect
  bytes : List UInt8
  offset : Nat
  deriving Repr, DecidableEq

/-- The characters of the pieces, up to the first bad one if there is one. -/
def charsOf (bytes : List UInt8) (offset : Nat) : List Piece → Except Fault (List Char)
  | [] => .ok []
  | .char c n :: rest => (charsOf bytes (offset + n) rest).map (c :: ·)
  | .bad defect n :: _ => .error ⟨defect, (bytes.drop offset).take n, offset⟩

/-- Strict decoding. -/
def decode (bytes : List UInt8) : Except Fault String :=
  (charsOf bytes 0 (pieces bytes)).map String.ofList

/-- Lossy decoding: one replacement character for each bad piece. -/
def decodeLossy (bytes : List UInt8) : String :=
  String.ofList ((pieces bytes).map fun
    | .char c _ => c
    | .bad _ _ => Char.ofNat 0xFFFD)

/-- The bytes of a text. -/
def encode (s : String) : List UInt8 := s.toUTF8.data.toList

/-- A byte with two hexadecimal digits. -/
def hexByte (b : UInt8) : String :=
  String.ofList ["0123456789abcdef".toList.getD (b.toNat / 16) '0', "0123456789abcdef".toList.getD (b.toNat % 16) '0']

/-- The wording of a defect. -/
def Defect.message : Defect → String
  | .start => "invalid start byte"
  | .continuation => "invalid continuation byte"
  | .truncated => "unexpected end of data"

/-- The wording of a fault: a single byte is shown, several are given by their offsets. -/
def Fault.message (f : Fault) : String :=
  let place := match f.bytes with
    | [b] => "byte 0x" ++ hexByte b ++ " in position " ++ toString f.offset
    | bs => "bytes in position " ++ toString f.offset ++ "-" ++ toString (f.offset + bs.length - 1)
  "'utf-8' codec can't decode " ++ place ++ ": " ++ f.defect.message

/-- The text of pieces without a bad one is the same whether it is read strictly or not. -/
theorem charsOf_eq_ok {bytes : List UInt8} {n : Nat} {ps : List Piece} {cs : List Char}
    (h : charsOf bytes n ps = .ok cs) :
    ps.map (fun | .char c _ => c | .bad _ _ => Char.ofNat 0xFFFD) = cs := by
  induction ps generalizing n cs with
  | nil => simpa [charsOf] using h
  | cons p ps ih =>
    cases p with
    | bad d k => simp [charsOf] at h
    | char c k =>
      simp only [charsOf] at h
      cases hr : charsOf bytes (n + k) ps with
      | error e => simp [hr, Except.map] at h
      | ok r =>
        simp only [hr, Except.map, Except.ok.injEq] at h
        simp [← h, ih hr]

/-- Lossy decoding changes nothing in bytes that decode strictly. -/
theorem decodeLossy_of_decode {bytes : List UInt8} {s : String} (h : decode bytes = .ok s) : decodeLossy bytes = s := by
  unfold decode at h
  cases hc : charsOf bytes 0 (pieces bytes) with
  | error e => simp [hc, Except.map] at h
  | ok cs =>
    simp only [hc, Except.map, Except.ok.injEq] at h
    rw [decodeLossy, charsOf_eq_ok hc, h]

end IconForge.Text.Utf8
