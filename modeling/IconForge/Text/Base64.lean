import IconForge.Text.Digit

/-!
# Base 64

Four characters of an alphabet of sixty-four stand for three bytes. Characters outside the alphabet are skipped, and a last group that
is short must be filled up with equals signs.
-/

namespace IconForge.Text.Base64

/-- The value of a character of the alphabet. -/
def value? (c : Char) : Option Nat :=
  if 'A' ≤ c && c ≤ 'Z' then some (c.toNat - 'A'.toNat)
  else if 'a' ≤ c && c ≤ 'z' then some (c.toNat - 'a'.toNat + 26)
  else if isDigit c then some (c.toNat - '0'.toNat + 52)
  else if c = '+' then some 62
  else if c = '/' then some 63
  else none

/-- The bytes of a group of at most four values. -/
def groupBytes (group : List Nat) : List UInt8 :=
  let n := ofDigits 64 (group ++ List.replicate (4 - group.length) 0)
  [UInt8.ofNat (n / 65536), UInt8.ofNat (n / 256), UInt8.ofNat n].take (group.length - 1)

/-- The bytes of a text. `group` are the values since the last full group, and `pads` the equals signs since the last value. -/
def decodeFrom : List Nat → Nat → List Char → Option (List UInt8)
  | group, _, [] => if group.isEmpty then some [] else none
  | group, pads, c :: rest =>
    if c = '=' then
      if 2 ≤ group.length then
        if 4 ≤ group.length + (pads + 1) then some (groupBytes group) else decodeFrom group (pads + 1) rest
      else decodeFrom group pads rest
    else match value? c with
      | none => decodeFrom group pads rest
      | some v =>
        if group.length = 3 then (decodeFrom [] 0 rest).map (groupBytes (group ++ [v]) ++ ·)
        else decodeFrom (group ++ [v]) 0 rest

/-- The bytes that a text stands for. -/
def decode (s : List Char) : Option (List UInt8) := decodeFrom [] 0 s

end IconForge.Text.Base64
