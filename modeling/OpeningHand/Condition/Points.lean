import OpeningHand.Condition.Parser

/-!
# Reading conditions from points

A text may hold halves of surrogate pairs. To the reader a half is one more character of a word, so
the items of such a text are those of the text as it is shown, and they are refused for the same
faults. But a card test is only made if its name is a text of characters, and the check is made when
the words of the test have been read: it comes before the faults of everything behind them.
-/

namespace OpeningHand.Condition

open Text (Point)

/-- Why points are no condition: their reading stops at a fault, or a card's name is torn. -/
inductive Refusal where
  | unread (error : ReadError)
  | tornName
  deriving Repr, DecidableEq

/-- The words of a phrase that make its name: all but those of a quantity. -/
def nameWords (first : Token) (more : List Token) : List Token :=
  match Lead.ofWord first.chars, more with
  | .least _, _ => more
  | .count _, _ :: _ => more
  | _, _ => first :: more

/-- The points from the start of the first of some tokens to the stop of the last. -/
def cutOut (text : List Point) : List Token → List Point
  | [] => []
  | first :: more =>
    (text.drop first.start).take (((first :: more).getLast (List.cons_ne_nil _ _)).stop - first.start)

/-- The name that an item gives a card; empty for a token that is no word. -/
def Item.name (text : List Point) : Item → List Point
  | .phrase first more => cutOut text (nameWords first more)
  | _ => []

/-- Reads one item of a text of points. A card test that was read is made only if its name is one of
characters. -/
def Reader.readPoint (text : List Point) (r : Reader) (item : Item) : Except Refusal Reader := do
  let next ← (r.read (Text.shown text).toList item).mapError .unread
  if (item.name text).all Point.isChar then return next else throw .tornName

/-- Reads items of a text of points one after the other. -/
def Reader.readPoints (text : List Point) (r : Reader) : List Item → Except Refusal Reader
  | [] => .ok r
  | item :: items => do (← r.readPoint text item).readPoints text items

/-- The condition that points write. -/
def parsePoints (text : List Point) : Except Refusal Condition :=
  match Item.ofTokens (tokens (Text.shown text)) with
  | [] => .error (.unread (.fault .empty 0))
  | items@(_ :: _) => do
    let r ← Reader.start.readPoints text items
    (r.finish (Text.shown text).toList).mapError .unread

end OpeningHand.Condition
