import OpeningHand.Condition.Basic
import OpeningHand.Number.Whole

/-!
# Writing conditions

From a condition back to its text. Groups always stand in parentheses. An exact single copy needs
no quantity, unless the name itself starts with what would be read as one. Quantities are written
whatever their length: conditions that were read have short ones, and for trees that were not checked
`Sketch.render?` sees to it.
-/

namespace OpeningHand.Condition

/-- A name that starts with digits and then a plus sign or a blank would lose them to a quantity. -/
def startsLikeQuantity (name : List Char) : Bool :=
  match name.takeWhile Text.isDecimal, name.dropWhile Text.isDecimal with
  | _ :: _, c :: _ => c = '+' || Text.isBlank c
  | _, _ => false

/-- A quantity before a name: a plus sign for a least one, nothing for a single copy. -/
def quantityText (quantity : Int) (isLeast : Bool) (name : List Char) : List Char :=
  if isLeast then Number.wholeDigits quantity ++ ['+', ' ']
  else if quantity ≠ 1 || startsLikeQuantity name then Number.wholeDigits quantity ++ [' ']
  else []

/-- The text of a card test. -/
def testChars (t : CardTest) : List Char :=
  quantityText t.quantity (t.bound = .atLeast) t.name.toList ++ t.name.toList

/-- Members between parentheses with the connective's word between neighbours. -/
def groupText (connective : Connective) (members : List (List Char)) : List Char :=
  '(' :: List.intercalate (' ' :: connective.word.toList ++ [' ']) members ++ [')']

mutual

/-- The characters of a condition's text. -/
def chars : Condition → List Char
  | .card test => testChars test
  | .group connective members => groupText connective (charsAll members)

/-- The texts of conditions in order. -/
def charsAll : List Condition → List (List Char)
  | [] => []
  | c :: cs => c.chars :: charsAll cs

end

/-- The text of a condition. -/
def render (c : Condition) : String :=
  String.ofList c.chars

end OpeningHand.Condition
