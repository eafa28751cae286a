import OpeningHand.Files.Path
import OpeningHand.Library
import OpeningHand.PasscodeList
import OpeningHand.Text.Lines
import OpeningHand.Text.Utf8

/-!
# Sessions

A session answers requests to load, convert and save, with the settings, the deck builder and the
converter it was opened with. It keeps the text and the scenario of the last load that succeeded;
nothing else it does changes them, and no answer depends on them.
-/

namespace OpeningHand

/-- What a session works with. -/
structure Tools where
  settings : Settings
  builder : DeckBuilder
  convert : String → Recorded Failure String

/-- The contents of files, or why they cannot be had. -/
abbrev Contents := Files.Path → Except Files.Fault (List UInt8)

/-- A text that was loaded, and what it says. -/
structure Loaded where
  text : String
  scenario : Scenario

namespace Tools

/-- The library's own builder and converter, under settings. -/
def ofSettings (settings : Settings) : Tools :=
  ⟨settings, Deck.ofEntries, PasscodeList.convert []⟩

/-- The text of a file, with every newline as `\n`. -/
def textOf (bytes : Except Files.Fault (List UInt8)) : Except Failure String :=
  match bytes with
  | .error fault => .error (.file fault)
  | .ok bytes =>
    match Text.decodeUtf8 bytes with
    | .error fault => .error (.undecodable fault)
    | .ok cs => .ok (String.ofList (Text.unifyNewlines cs))

/-- Loads a text. -/
def load (t : Tools) (source text : String) : Recorded Failure Loaded := do
  return ⟨text, ← Library.load t.settings t.builder source text⟩

/-- Loads what is in a file, under the last name of its path. -/
def loadFile (t : Tools) (p : Files.Path) (bytes : Except Files.Fault (List UInt8)) :
    Recorded Failure Loaded := do
  t.load p.name (← .ofExcept (textOf bytes))

/-- Converts the passcode list that is in a file. -/
def convertFile (t : Tools) (bytes : Except Files.Fault (List UInt8)) :
    Recorded Failure String := do
  t.convert (← .ofExcept (textOf bytes))

end Tools

namespace Session

/-- What a session can be asked for. -/
inductive Request where
  | load (source text : String)
  | loadFile (path : String)
  | convertFile (path : String)
  | saveDeck (d : Deck)
  | saveConditions (ss : List Sketch)
  | saveAll (d : Deck) (ss : List Sketch)

/-- What a session answers. -/
inductive Reply where
  | loaded (l : Loaded)
  | text (s : String)

/-- The answer to a request. -/
def answer (t : Tools) (contents : Contents) : Request → Recorded Failure Reply
  | .load source text => do return .loaded (← t.load source text)
  | .loadFile path => do
    let p := Files.Path.ofText path
    return .loaded (← t.loadFile p (contents p))
  | .convertFile path => do return .text (← t.convertFile (contents (.ofText path)))
  | .saveDeck d => do return .text (← .ofExcept (Library.saveDeck t.settings d))
  | .saveConditions ss => do return .text (← .ofExcept (Library.saveConditions t.settings ss))
  | .saveAll d ss => do return .text (← Library.saveAll t.settings d ss)

end Session

/-- A session: its tools, and the last load that succeeded. -/
structure Session where
  tools : Tools
  last : Option Loaded

namespace Session

/-- A session before its first request. -/
def start (t : Tools) : Session :=
  ⟨t, none⟩

/-- What the last load is after a request was answered. -/
def remember (last : Option Loaded) : Except Failure Reply → Option Loaded
  | .ok (.loaded l) => some l
  | _ => last

/-- Answers a request, with the files as they are at that time. -/
def step (s : Session) (contents : Contents) (r : Request) : Recorded Failure Reply × Session :=
  let job := answer s.tools contents r
  (job, { s with last := remember s.last job.result })

/-- Answers requests in order, each with the files as they are at its time. -/
def run (s : Session) : List (Contents × Request) → List (Recorded Failure Reply) × Session
  | [] => ([], s)
  | (contents, r) :: rest =>
    let (job, s) := s.step contents r
    let (jobs, s) := s.run rest
    (job :: jobs, s)

end Session

end OpeningHand
