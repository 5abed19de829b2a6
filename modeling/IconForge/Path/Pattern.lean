import IconForge.Path.Basic

/-!
# File patterns

A pattern is a relative path whose parts select entries by name. A part of two stars stands for a directory and all that lie below it;
in other parts a star stands for any text, a question mark for any character, and brackets for a set of characters.
-/

namespace IconForge

/-- A piece of a part with wildcards. -/
inductive Glyph where
  /-- Any text. -/
  | star
  /-- Any one character. -/
  | one
  | char (c : Char)
  /-- A character in one of the closed ranges, or in none of them. -/
  | set (negated : Bool) (ranges : List (Char × Char))
  deriving Repr, DecidableEq

/-- A part of a pattern. -/
inductive Segment where
  /-- The directory and every directory below it. -/
  | everywhere
  | name (s : String)
  | wild (glyphs : List Glyph)
  /-- The directory itself. -/
  | itself
  deriving Repr, DecidableEq

namespace Pattern

/-- The inside of a set, from behind its opening bracket, and what follows the closing one. A bracket that closes at once belongs to
the set. -/
def setBody? (s : List Char) : Option (List Char × List Char) :=
  let (mark, s) := match s with
    | '!' :: rest => (['!'], rest)
    | _ => ([], s)
  let (bracket, s) := match s with
    | ']' :: rest => ([']'], rest)
    | _ => ([], s)
  match s.dropWhile (· != ']') with
  | [] => none
  | _ :: rest => some (mark ++ bracket ++ s.takeWhile (· != ']'), rest)

/-- The inside of a set cut at the hyphens that join ranges: a hyphen counts behind `skip` characters, and then behind two. -/
def chunks : Nat → Nat → List Char → List (List Char)
  | 0, _, s => [s]
  | fuel + 1, skip, s =>
    match (s.drop skip).dropWhile (· != '-') with
    | [] => [s]
    | _ :: rest => (s.take skip ++ (s.drop skip).takeWhile (· != '-')) :: chunks fuel 2 rest

/-- A hyphen at the very end joins nothing. -/
def closeChunks : List (List Char) → List (List Char)
  | [chunk, []] => [chunk ++ ['-']]
  | chunk :: rest => chunk :: closeChunks rest
  | [] => []

/-- Takes out ranges that hold nothing. -/
def dropEmptyRanges : List (List Char) → List (List Char)
  | [] => []
  | chunk :: rest =>
    match dropEmptyRanges rest with
    | [] => [chunk]
    | next :: more =>
      match chunk.getLast?, next.head? with
      | some low, some high => if high < low then (chunk.dropLast ++ next.tail) :: more else chunk :: next :: more
      | _, _ => chunk :: next :: more

/-- The ranges of a set: each character for itself, and the characters from the end of a chunk to the start of the next one. -/
def rangesOf : List (List Char) → List (Char × Char)
  | [] => []
  | [chunk] => chunk.map fun c => (c, c)
  | chunk :: next :: more =>
    let joint := match chunk.getLast?, next.head? with
      | some low, some high => [(low, high)]
      | _, _ => []
    chunk.map (fun c => (c, c)) ++ joint ++ rangesOf (next :: more)

/-- What a set stands for. A set without characters matches nothing, one without excluded characters anything. -/
def setGlyph (body : List Char) : Glyph :=
  let pieces :=
    if body.contains '-' then
      dropEmptyRanges (closeChunks (chunks body.length (if body.head? = some '!' then 2 else 1) body))
    else [body]
  match pieces with
  | [[]] => .set false []
  | [['!']] => .one
  | ('!' :: first) :: rest => .set true (rangesOf (first :: rest))
  | _ => .set false (rangesOf pieces)

/-- The glyphs of a part. A bracket that is never closed stands for itself. -/
def glyphs : Nat → List Char → List Glyph
  | 0, _ => []
  | _ + 1, [] => []
  | fuel + 1, c :: rest =>
    if c = '*' then .star :: glyphs fuel rest
    else if c = '?' then .one :: glyphs fuel rest
    else if c = '[' then
      match setBody? rest with
      | some (body, after) => setGlyph body :: glyphs fuel after
      | none => .char c :: glyphs fuel rest
    else .char c :: glyphs fuel rest

/-- A character matches a glyph for one character. -/
def Glyph.accepts (c : Char) : Glyph → Bool
  | .star => false
  | .one => true
  | .char d => c = d
  | .set negated ranges => negated != ranges.any fun r => r.1 ≤ c && c ≤ r.2

/-- A text matches a sequence of glyphs as a whole. -/
def accepts : List Glyph → List Char → Bool
  | [], s => s.isEmpty
  | .star :: gs, [] => accepts gs []
  | .star :: gs, c :: s => accepts gs (c :: s) || accepts (.star :: gs) s
  | _ :: _, [] => false
  | g :: gs, c :: s => Glyph.accepts c g && accepts gs s
termination_by gs s => gs.length + s.length

/-- Why a pattern is not accepted. -/
inductive Fault where
  | empty
  | absolute
  /-- It has no part at all. -/
  | nowhere
  /-- It only says that it wants a directory. -/
  | noSelector
  | doubleStar
  deriving Repr, DecidableEq

/-- Two stars in a row stand somewhere in a text. -/
def hasDoubleStar : List Char → Bool
  | '*' :: '*' :: _ => true
  | _ :: rest => hasDoubleStar rest
  | [] => false

/-- The segment that a part stands for. -/
def segment (part : String) : Except Fault Segment :=
  let s := part.toList
  if part = "**" then .ok .everywhere
  else if hasDoubleStar s then .error .doubleStar
  else if s.any fun c => c = '*' || c = '?' || c = '[' then .ok (.wild (glyphs s.length s))
  else .ok (.name part)

/-- The segments of a pattern. A slash at the end asks for directories. -/
def read (pattern : String) : Except Fault (List Segment) := do
  let p := Path.ofString pattern
  if pattern = "" then throw .empty
  if p.isAbsolute then throw .absolute
  let last := if pattern.toList.getLast? = some '/' then [Segment.itself] else []
  match p.parts, last with
  | [], [] => throw .nowhere
  | [], _ => throw .noSelector
  | parts, last => pure ((← parts.mapM segment) ++ last)

end Pattern

end IconForge
