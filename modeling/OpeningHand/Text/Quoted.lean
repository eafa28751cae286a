import OpeningHand.Text.Printable

/-!
# Quoted texts

How a message shows a text so that its ends and its invisible characters can be seen. The quote is
the apostrophe, or the double quote when the text holds apostrophes and no double quote; the
backslash and the quote in use are escaped, and unprintable characters are written by number in the
shortest of three widths.
-/

namespace OpeningHand.Text

/-- The lower-case hexadecimal digits of a number, filled up with zeros to at least `width`. -/
def hexDigits (width n : Nat) : List Char :=
  let digits := Nat.toDigits 16 n
  List.replicate (width - digits.length) '0' ++ digits

/-- A code point by number: two, four or eight hexadecimal digits. -/
def escapedByNumber (n : Nat) : List Char :=
  if n < 0x100 then '\\' :: 'x' :: hexDigits 2 n
  else if n < 0x10000 then '\\' :: 'u' :: hexDigits 4 n
  else '\\' :: 'U' :: hexDigits 8 n

/-- One character inside quotes. -/
def quotedChar (quote c : Char) : List Char :=
  if c = quote || c = '\\' then ['\\', c]
  else if c = '\t' then ['\\', 't']
  else if c = '\n' then ['\\', 'n']
  else if c = '\r' then ['\\', 'r']
  else if isPrintable c then [c]
  else escapedByNumber c.toNat

/-- The quote that needs the fewest escapes, the apostrophe when it is free to choose. -/
def quoteFor (cs : List Char) : Char :=
  if cs.contains '\'' && !cs.contains '"' then '"' else '\''

/-- A text between quotes, readable on one line. -/
def quoted (cs : List Char) : List Char :=
  let quote := quoteFor cs
  quote :: (cs.flatMap (quotedChar quote) ++ [quote])

/-- `quoted` on texts. -/
def quote (s : String) : String :=
  String.ofList (quoted s.toList)

/-- One byte inside quotes: ASCII as in a quoted text, every other byte by number. -/
def quotedByte (quote : Char) (b : UInt8) : List Char :=
  if b < 0x7f then quotedChar quote (Char.ofNat b.toNat) else escapedByNumber b.toNat

/-- A string of bytes between quotes, with the mark that tells it from a text. -/
def quotedBytes (bs : List UInt8) : List Char :=
  let quote := quoteFor (bs.map fun b => Char.ofNat b.toNat)
  'b' :: quote :: (bs.flatMap (quotedByte quote) ++ [quote])

end OpeningHand.Text
