import OpeningHand.Condition.Basic
import OpeningHand.Text.Point
import OpeningHand.Number.Limit

/-!
# Faults in a condition's text

Why a text is no condition, and where: each fault has its reason in words and the position the
reader stopped at. One fault lies outside the grammar, a quantity with more digits than a numeral
may have.
-/

namespace OpeningHand.Condition

/-- How deep parentheses may nest. -/
def maxNesting : Nat := 100

/-- Why a text is no condition. -/
inductive Fault where
  | empty
  | unexpectedClosing
  | trailing (word : List Char)
  | mixed (first second : Connective)
  | missingCard
  | missingCardBefore (word : List Char)
  | tooDeep
  | emptyGroup
  | unclosed
  | missingName
  | malformedQuantity (word : List Char)
  deriving Repr, DecidableEq

/-- The reason in words, given how a word of the text is quoted. -/
def Fault.reasonBy (quote : List Char → List Char) : Fault → String
  | .empty => "Empty condition"
  | .unexpectedClosing => "Unbalanced parentheses: unexpected ')'"
  | .trailing word => "Unexpected trailing input " ++ String.ofList (quote word)
  | .mixed first second =>
    "Cannot mix " ++ first.word ++ " and " ++ second.word ++ " at the same level; use parentheses"
  | .missingCard => "Expected a card condition"
  | .missingCardBefore word =>
    "Expected a card condition before " ++ String.ofList (quote word)
  | .tooDeep =>
    "Nesting too deep; at most " ++ toString maxNesting ++ " levels of parentheses"
  | .emptyGroup => "Empty group"
  | .unclosed => "Unbalanced parentheses: missing ')'"
  | .missingName => "Missing card name after quantity"
  | .malformedQuantity word =>
    "Malformed quantity " ++ String.ofList (quote word) ++ "; expected a space after '+'"

/-- The reason in words. -/
def Fault.reason : Fault → String :=
  reasonBy Text.quoted

/-- The reason in words for a text of points: a word is quoted as it stands at the fault's position.
-/
def Fault.reasonAt (text : List Text.Point) (position : Nat) : Fault → String :=
  reasonBy fun word => Text.quotedPoints ((text.drop position).take word.length)

/-- Why reading a condition stopped. -/
inductive ReadError where
  | fault (fault : Fault) (position : Nat)
  | tooManyDigits (count : Nat)
  deriving Repr, DecidableEq

/-- Why reading a text of points stopped, in words. -/
def ReadError.message (text : List Text.Point) : ReadError → String
  | .fault f position => f.reasonAt text position ++ " at position " ++ toString position
  | .tooManyDigits count => Number.tooManyDigitsMessage count

end OpeningHand.Condition
