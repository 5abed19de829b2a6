import IconForge.Yaml.Cursor

/-!
# Points in time

A point in time is a date, perhaps with a time of day and its distance from universal time. Reading it keeps to the form; whether there
is such a day or such a time is checked apart.
-/

namespace IconForge.Yaml

open Text

namespace Timestamp

/-- A number of exactly as many digits as asked for. -/
def digits? (count : Nat) (s : List Char) : Option (Nat × List Char) :=
  let digits := (s.take count).takeWhile isDigit
  if digits.length = count then some (Nat.ofDigitChars 10 digits 0, s.drop count) else none

/-- A number of two digits, or else of one. -/
def oneOrTwo? (s : List Char) : Option (Nat × List Char) := (digits? 2 s).or (digits? 1 s)

/-- What follows a character, if that comes next. -/
def after? (c : Char) (s : List Char) : Option (List Char) :=
  match s with
  | x :: rest => if x = c then some rest else none
  | [] => none

/-- A blank or a tab. -/
def isSpace (c : Char) : Bool := c = ' ' || c = '\t'

/-- The distance from universal time at the end of a text: nothing, a letter, or hours and perhaps minutes behind a sign. -/
def offset? (s : List Char) : Option Int :=
  if s.isEmpty then some 0
  else match s.dropWhile isSpace with
    | ['Z'] => some 0
    | sign :: rest =>
      if sign = '+' || sign = '-' then do
        let (hours, rest) ← oneOrTwo? rest
        let minutes ← match rest with
          | [] => some 0
          | ':' :: rest => (digits? 2 rest).bind fun r => if r.2.isEmpty then some r.1 else none
          | _ => none
        let n : Int := hours * 60 + minutes
        some (if sign = '-' then -n else n)
      else none
    | [] => none

/-- The time of day behind a date. A fraction of a second may follow the seconds. -/
def readClock? (s : List Char) : Option Clock := do
  let rest ← match s with
    | 'T' :: rest | 't' :: rest => some rest
    | c :: rest => if isSpace c then some (rest.dropWhile isSpace) else none
    | [] => none
  let (hour, rest) ← oneOrTwo? rest
  let (minute, rest) ← digits? 2 (← after? ':' rest)
  let (second, rest) ← digits? 2 (← after? ':' rest)
  let rest := match rest with
    | '.' :: rest => rest.dropWhile isDigit
    | rest => rest
  some ⟨hour, minute, second, ← offset? rest⟩

/-- The point in time that a text writes. -/
def read? (s : List Char) : Option Timestamp := do
  let (year, rest) ← digits? 4 s
  let (month, rest) ← oneOrTwo? (← after? '-' rest)
  let (day, rest) ← oneOrTwo? (← after? '-' rest)
  let full := decide (s.length = rest.length + 10)
  if rest.isEmpty then some ⟨year, month, day, full, none⟩
  else (readClock? rest).map fun c => ⟨year, month, day, full, some c⟩

/-- A text that is taken for a point in time without being told: a date alone must be written in full. -/
def isEvident (s : List Char) : Bool :=
  match read? s with
  | some t => t.full || t.clock?.isSome
  | none => false

/-- Years with a day more: every fourth one, but of the full centuries only every fourth. -/
def isLeap (year : Nat) : Bool := year % 4 = 0 && (year % 100 != 0 || year % 400 = 0)

/-- The days of a month. -/
def daysIn (year month : Nat) : Nat :=
  if month = 2 then (if isLeap year then 29 else 28) else if month = 4 || month = 6 || month = 9 || month = 11 then 30 else 31

/-- A distance of some minutes in days and seconds. -/
def span (minutes : Int) : String :=
  let days := minutes.fdiv 1440
  let seconds := minutes.fmod 1440 * 60
  let parts := (if days = 0 then [] else ["days=" ++ toString days]) ++ (if seconds = 0 then [] else ["seconds=" ++ toString seconds])
  "datetime.timedelta(" ++ (if parts.isEmpty then "0" else Text.joined ", " parts) ++ ")"

/-- What is wrong with a date. -/
def dateFault? (t : Timestamp) : Option String :=
  if t.year = 0 then some "year 0 is out of range"
  else if t.month = 0 || 12 < t.month then some "month must be in 1..12"
  else if t.day = 0 || daysIn t.year t.month < t.day then some "day is out of range for month"
  else none

/-- What is wrong with a distance from universal time, which must be less than a day. -/
def offsetFault? (c : Clock) : Option String :=
  if c.offset.natAbs < 1440 then none
  else some ("offset must be a timedelta strictly between -timedelta(hours=24) and timedelta(hours=24), not " ++ span c.offset ++ ".")

/-- What is wrong with a time of day. -/
def clockFault? (c : Clock) : Option String :=
  if 23 < c.hour then some "hour must be in 0..23"
  else if 59 < c.minute then some "minute must be in 0..59"
  else if 59 < c.second then some "second must be in 0..59"
  else none

/-- What is wrong with a point in time; the distance from universal time comes first. -/
def fault? (t : Timestamp) : Option String :=
  (t.clock?.bind offsetFault?).or ((dateFault? t).or (t.clock?.bind clockFault?))

end Timestamp

end IconForge.Yaml
