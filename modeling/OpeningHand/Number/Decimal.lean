import OpeningHand.Number.Binary64
import OpeningHand.Number.Whole

/-!
# Decimals as text

Reading a floating-point number: blanks around it, a sign, digits of any script with a point and an
exponent, single underscores between digits, or the words for infinity and for no number, in any
case. The nearest number is the answer.
-/

namespace OpeningHand.Number

/-- Drops underscores, each of which must stand between two digits; `before` tells whether a digit
came just before. -/
def dropUnderscores? (before : Bool) : List Char → Option (List Char)
  | [] => some []
  | '_' :: c :: cs =>
    if before && Text.isDecimal c then (dropUnderscores? true cs).map (c :: ·) else none
  | ['_'] => none
  | c :: cs => (dropUnderscores? (Text.isDecimal c) cs).map (c :: ·)

/-- An exponent: its mark, a sign, digits, and nothing after; no text for no exponent. -/
def exponentOf? : List Char → Option Int
  | [] => some 0
  | c :: cs =>
    if c = 'e' || c = 'E' then
      let (negative, digits) := splitSign cs
      if digits.isEmpty || !digits.all Text.isDecimal then none
      else
        let n := Text.decimalValue digits
        some (if negative then -(n : Int) else n)
    else none

/-- Digits, a point with more digits, an exponent. -/
def unsignedDecimal? (negative : Bool) (cs : List Char) : Option Binary64 :=
  let whole := cs.takeWhile Text.isDecimal
  let rest := cs.dropWhile Text.isDecimal
  let (fraction, tail) := match rest with
    | '.' :: more => (more.takeWhile Text.isDecimal, more.dropWhile Text.isDecimal)
    | _ => ([], rest)
  if whole.isEmpty && fraction.isEmpty then none
  else
    (exponentOf? tail).map fun e =>
      .ofDecimal negative (Text.decimalValue (whole ++ fraction)) (e - fraction.length)

/-- The floating-point number that a text writes. -/
def readDecimal? (text : List Char) : Option Binary64 := do
  let (negative, cs) := splitSign (← dropUnderscores? false (Text.trimBy isNumeralBlank text))
  let word := String.ofList (cs.map Char.toLower)
  if word = "inf" || word = "infinity" then return .infinite negative
  else if word = "nan" then return .nan
  else unsignedDecimal? negative cs

end OpeningHand.Number
