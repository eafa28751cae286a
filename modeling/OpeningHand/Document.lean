import OpeningHand.Condition.Journaled
import OpeningHand.Deck
import OpeningHand.Document.Shape
import OpeningHand.Yaml.Writer
import OpeningHand.Yaml.Value

/-!
# Documents

A document describes an opening-hand scenario: a deck, and the conditions that hands are tested
against. Loading goes through fixed stages (the YAML, the shape, the names, the deck, the conditions
in order), and whatever stops it becomes one failure that names the source. Saving writes the deck's
holdings and the conditions' texts.
-/

namespace OpeningHand

/-- A deck together with the conditions to test its hands against. -/
structure Scenario where
  deck : Deck
  conditions : List Condition

/-- Makes a deck of at least some size from cards by name. -/
abbrev DeckBuilder := List (String × Data) → Int → Recorded Failure Deck

namespace Document

/-- Reads a document, with the failures of each stage as they are. -/
def read (builder : DeckBuilder) (minSize : Int) (text : String) : Recorded Failure Scenario := do
  let data ← .ofExcept (Yaml.load text)
  let shape ← .ofExcept (Shape.ofData data)
  let cards ← .ofExcept (named shape.deck)
  let deck ← builder cards minSize
  let conditions ← Condition.readAll shape.conditions
  return ⟨deck, conditions⟩

/-- Loads a document and records the outcome under the name of its source. -/
def load (builder : DeckBuilder) (minSize : Int) (source text : String) :
    Recorded Failure Scenario :=
  let job := read builder minSize text
  match job.result with
  | .ok s =>
    ⟨job.records ++ [⟨.documents, .info, "Loaded " ++ source ++ " with " ++
        toString s.deck.realSize ++ " cards and " ++ toString s.conditions.length ++
        " conditions"⟩], .ok s⟩
  | .error e =>
    if e.isOfDocument then
      let failure := Failure.load source e
      ⟨job.records ++ [⟨.documents, .error, failure.message⟩], .error failure⟩
    else ⟨job.records, .error e⟩

/-! ## Saving -/

/-- What is written about a name: copies, labels, flag. -/
def holdingEntry (h : Holding) : String × Outline :=
  (h.name, .record [("qty", .number h.qty), ("tags", .list (h.tags.map .text)),
    ("free", .flag h.free)])

/-- The entry for a deck. -/
def deckEntry (d : Deck) : String × Outline :=
  ("deck", .record (d.holdings.map holdingEntry))

/-- The entry for the texts of conditions. -/
def conditionsEntry (texts : List String) : String × Outline :=
  ("conditions", .list (texts.map .text))

/-- Writes entries as a document, in order of names at every level if asked for. -/
def write (sortKeys : Bool) (entries : List (String × Outline)) : String :=
  if sortKeys then
    match (Outline.record entries).sorted with
    | .record entries => Yaml.render entries
    | _ => Yaml.render entries
  else Yaml.render entries

/-- Writes a deck alone. -/
def writeDeck (sortKeys : Bool) (d : Deck) : String :=
  write sortKeys [deckEntry d]

/-- The texts of conditions, which may be unchecked. -/
def conditionTexts? (ss : List Sketch) : Except Failure (List String) :=
  (Sketch.renderAll ss).mapError .sketch

/-- Writes the texts of conditions alone. -/
def writeConditions (sortKeys : Bool) (texts : List String) : String :=
  write sortKeys [conditionsEntry texts]

/-- Writes a deck and the texts of conditions as one document. -/
def writeAll (sortKeys : Bool) (d : Deck) (texts : List String) : String :=
  write sortKeys [deckEntry d, conditionsEntry texts]

end Document

end OpeningHand
