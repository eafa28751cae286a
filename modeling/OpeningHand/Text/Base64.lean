/-!
# Bytes in base 64

Reading bytes from text in base 64. Characters outside the alphabet are passed over; the reading
ends where padding fills up a group of four. A text that ends inside a group is refused.
-/

namespace OpeningHand.Text

/-- The value of a character of the alphabet. -/
def base64Value? (c : Char) : Option Nat :=
  if 'A' ≤ c && c ≤ 'Z' then some (c.toNat - 65)
  else if 'a' ≤ c && c ≤ 'z' then some (c.toNat - 71)
  else if '0' ≤ c && c ≤ '9' then some (c.toNat + 4)
  else if c = '+' then some 62
  else if c = '/' then some 63
  else none

/-- Reads on within a group: `place` characters of it were read, whose last bits are `bits`, and
then `pads` padding characters in a row. -/
def base64From (place bits pads : Nat) : List Char → Option (List UInt8)
  | [] => if place = 0 then some [] else none
  | c :: cs =>
    if c = '=' then
      if 2 ≤ place then
        if 4 ≤ place + pads + 1 then some [] else base64From place bits (pads + 1) cs
      else base64From place bits pads cs
    else
      match base64Value? c with
      | none => base64From place bits pads cs
      | some v =>
        match place with
        | 0 => base64From 1 v 0 cs
        | 1 => (base64From 2 (v % 16) 0 cs).map (UInt8.ofNat (bits * 4 + v / 16) :: ·)
        | 2 => (base64From 3 (v % 4) 0 cs).map (UInt8.ofNat (bits * 16 + v / 4) :: ·)
        | _ => (base64From 0 0 0 cs).map (UInt8.ofNat (bits * 64 + v) :: ·)

/-- The bytes that a text in base 64 stands for. -/
def decodeBase64 (cs : List Char) : Option (List UInt8) :=
  base64From 0 0 0 cs

end OpeningHand.Text
