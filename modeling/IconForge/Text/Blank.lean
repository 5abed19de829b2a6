/-!
# Blank characters

A character is blank when Unicode calls it white space or when it is one of the four information separators. A text is trimmed
by dropping the blanks at its ends; what is left does not start with a blank (`trimLeft_head`). Where a text is read line by line, all
kinds of line breaks count as one.
-/

namespace IconForge.Text

/-- Closed ranges of code points, ascending and apart: the Unicode property White_Space together with U+001C to U+001F. -/
def blankRanges : List (Nat × Nat) :=
  [(0x09, 0x0D), (0x1C, 0x20), (0x85, 0x85), (0xA0, 0xA0), (0x1680, 0x1680), (0x2000, 0x200A), (0x2028, 0x2029),
   (0x202F, 0x202F), (0x205F, 0x205F), (0x3000, 0x3000)]

/-- A code point lies in one of the closed ranges. -/
def inRanges (ranges : List (Nat × Nat)) (n : Nat) : Bool :=
  ranges.any fun r => r.1 ≤ n && n ≤ r.2

/-- Blank characters are white space and the information separators. -/
def isBlank (c : Char) : Bool := inRanges blankRanges c.toNat

/-- A run of characters is blank when it holds nothing but blanks; the empty run is blank. -/
def allBlank (s : String) : Bool := s.toList.all isBlank

/-- Leading blanks dropped. -/
def trimLeft (s : List Char) : List Char := s.dropWhile isBlank

/-- Trailing blanks dropped. -/
def trimRight (s : List Char) : List Char := (s.reverse.dropWhile isBlank).reverse

/-- Blanks dropped at both ends. -/
def trim (s : List Char) : List Char := trimRight (trimLeft s)

/-- Blanks dropped at both ends of a string. -/
def trimmed (s : String) : String := String.ofList (trim s.toList)

/-- Line breaks of all kinds as line feeds. -/
def unifyBreaks : List Char → List Char
  | '\r' :: '\n' :: rest => '\n' :: unifyBreaks rest
  | '\r' :: rest => '\n' :: unifyBreaks rest
  | c :: rest => c :: unifyBreaks rest
  | [] => []

/-- A string with line feeds in the place of all its line breaks. -/
def unifiedBreaks (s : String) : String := String.ofList (unifyBreaks s.toList)

/-- What is left of a text after its leading blanks does not start with a blank. -/
theorem trimLeft_head (s : List Char) (c : Char) (rest : List Char) (h : trimLeft s = c :: rest) : isBlank c = false := by
  induction s with
  | nil => simp [trimLeft] at h
  | cons a t ih =>
    by_cases ha : isBlank a = true
    · exact ih (by simpa [trimLeft, ha] using h)
    · simp only [trimLeft, List.dropWhile_cons, ha] at h
      simp_all

end IconForge.Text
