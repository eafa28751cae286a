import OpeningHand.Document
import OpeningHand.Settings

/-!
# Loading and saving under settings

Documents as the settings ask for them: decks of at least the least size, and saved texts sorted or
not. A setting that cannot be read fails before anything else is done, and its failure is passed on
as it is.
-/

namespace OpeningHand.Library

/-- Loads a document. -/
def load (settings : Settings) (builder : DeckBuilder) (source text : String) :
    Recorded Failure Scenario :=
  match settings.minDeckSize with
  | .error e => .ofExcept (.error e)
  | .ok minSize => Document.load builder minSize source text

/-- Saves a deck. -/
def saveDeck (settings : Settings) (d : Deck) : Except Failure String := do
  return Document.writeDeck (← settings.sortKeys) d

/-- Saves conditions, which may be unchecked. -/
def saveConditions (settings : Settings) (ss : List Sketch) : Except Failure String := do
  let texts ← Document.conditionTexts? ss
  return Document.writeConditions (← settings.sortKeys) texts

/-- Saves a deck and conditions, which may be unchecked. -/
def saveAll (settings : Settings) (d : Deck) (ss : List Sketch) : Recorded Failure String := do
  let texts ← .ofExcept (Document.conditionTexts? ss)
  .note .documents .info
    ("Serialized simulation input with " ++ toString d.holdings.length ++ " unique cards")
  let sortKeys ← .ofExcept settings.sortKeys
  return Document.writeAll sortKeys d texts

/-- Saves a scenario. -/
def save (settings : Settings) (s : Scenario) : Recorded Failure String :=
  saveAll settings s.deck (Sketch.ofConditions s.conditions)

end OpeningHand.Library
