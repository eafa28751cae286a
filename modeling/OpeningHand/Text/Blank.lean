/-!
# Blank characters

Which characters separate words, and how a text loses the ones at its ends. The blanks are those
of the Unicode property White_Space together with the four information separators U+001C to
U+001F, which end a line or a field and so separate words too.
-/

namespace OpeningHand.Text

/-- A character that separates words. -/
def isBlank (c : Char) : Bool :=
  let n := c.toNat
  (9 ≤ n && n ≤ 13) || (28 ≤ n && n ≤ 32) || n == 0x85 || n == 0xa0 || n == 0x1680 ||
    (0x2000 ≤ n && n ≤ 0x200a) || n == 0x2028 || n == 0x2029 || n == 0x202f || n == 0x205f ||
    n == 0x3000

/-- The characters after the longest run of trailing ones with `p` is cut off. -/
def dropEndWhile (p : Char → Bool) (cs : List Char) : List Char :=
  (cs.reverse.dropWhile p).reverse

/-- The text without the characters with `p` at either end. -/
def trimBy (p : Char → Bool) (cs : List Char) : List Char :=
  dropEndWhile p (cs.dropWhile p)

/-- The text without the blanks at either end. -/
def trim (cs : List Char) : List Char :=
  trimBy isBlank cs

/-- A text of blanks alone, the empty text included. -/
def isBlankText (cs : List Char) : Bool :=
  cs.all isBlank

/-- `cs` starts with `lead`; the answer is what follows it. -/
def after? : (lead cs : List Char) → Option (List Char)
  | [], cs => some cs
  | _ :: _, [] => none
  | l :: ls, c :: cs => if l = c then after? ls cs else none

end OpeningHand.Text
