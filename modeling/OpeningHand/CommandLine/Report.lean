import OpeningHand.CommandLine.Invocation
import OpeningHand.Condition.Journaled
import OpeningHand.Condition.Outlined
import OpeningHand.Json
import OpeningHand.Session

/-!
# Reports

What a command comes to, before any of it is shown: a text, and the file it should go to if one was
named. A command reads at most one file, and its whole text is known before anything is written.
-/

namespace OpeningHand.CommandLine

/-- The text that a command produces, and where it goes. -/
structure Report where
  text : String
  output : Option String
  deriving Repr, DecidableEq

/-- The file that a command reads. -/
def Command.file? : Command → Option String
  | .check file => some file
  | .normalize file _ => some file
  | .parse _ _ => none
  | .convert file _ => some file

/-- Lines as a text. -/
def unlines (lines : List String) : String :=
  String.join (lines.map (· ++ "\n"))

/-- The summary of a scenario. -/
def summary (s : Scenario) : List String :=
  ("Deck: " ++ toString s.deck.realSize ++ " cards (" ++ toString s.deck.size ++ " slots), " ++
      toString s.deck.counts.length ++ " unique") ::
    ("Conditions: " ++ toString s.conditions.length) ::
    s.conditions.map fun c => "  " ++ c.render

/-- The text of a condition alone. -/
def conditionText (asJson : Bool) (c : Condition) : String :=
  if asJson then Json.render c.outline else c.render

/-- What a command comes to, given what is in the file it reads. -/
def Command.report (tools : Tools) (contents : Contents) : Command → Recorded Failure Report
  | .check file => do
    let p := Files.Path.ofText file
    let loaded ← tools.loadFile p (contents p)
    return ⟨unlines (summary loaded.scenario), none⟩
  | .normalize file output => do
    let p := Files.Path.ofText file
    let loaded ← tools.loadFile p (contents p)
    return ⟨← Library.save tools.settings loaded.scenario, output⟩
  | .parse expression asJson => do
    return ⟨unlines [conditionText asJson (← Condition.read expression)], none⟩
  | .convert file output => do
    return ⟨← tools.convertFile (contents (.ofText file)), output⟩

end OpeningHand.CommandLine
