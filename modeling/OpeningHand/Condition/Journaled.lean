import OpeningHand.Condition.Points
import OpeningHand.Failure
import OpeningHand.Journal

/-!
# Reading conditions with a journal

Every condition that was read leaves one record, with its text and the kind of its root; a text that
is no condition leaves none. A card's name that is no text is told as the problem of a card test's
field, for it is the test that cannot be made.
-/

namespace OpeningHand.Condition

open Text (Point)

/-- The problem of a card test whose name is torn. -/
def tornNameProblem : Problem := ⟨.undecodableText, [.field "card_name"]⟩

/-- A refusal as the failure of a job that reads the text. -/
def Refusal.failure (text : List Point) : Refusal → Failure
  | .unread e => .condition text e
  | .tornName => .problems [tornNameProblem]

/-- Reads a condition and records it. -/
def readPoints (text : List Point) : Recorded Failure Condition :=
  match parsePoints text with
  | .error e => .ofExcept (.error (e.failure text))
  | .ok c =>
    ⟨[⟨.conditions, .debug,
        "Parsed condition " ++ String.ofList (Text.quotedPoints text) ++ " as " ++ c.tag⟩], .ok c⟩

/-- Reads a condition that is a text of characters. -/
def read (text : String) : Recorded Failure Condition :=
  readPoints (Text.points text)

/-- Reads conditions in order, up to the first failure. -/
def readAll : List (List Point) → Recorded Failure (List Condition)
  | [] => .pure []
  | text :: texts => do
    let c ← readPoints text
    let cs ← readAll texts
    return c :: cs

end OpeningHand.Condition
