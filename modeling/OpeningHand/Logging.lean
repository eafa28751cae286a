import OpeningHand.Host
import OpeningHand.Journal
import OpeningHand.Settings

/-!
# Logging

Where the records of jobs go. Logging has a threshold and handlers; a record at or above the
threshold goes to each handler once, as a line with the time, the channel, the severity and the
message. A log file that gets too long becomes the first of a few backups, and a new one is started.
Setting logging up replaces all handlers, so it may be repeated. Without any handler, warnings and
what is worse are still said, by their messages alone.
-/

namespace OpeningHand

namespace Severity

/-- The plain capital of a Latin letter; the dotless i and the long s have plain capitals too. -/
def capital (c : Char) : Char :=
  if c = 'ı' then 'I' else if c = 'ſ' then 'S' else c.toUpper

/-- The severity with a name in letters of any size. -/
def ofName? (name : String) : Option Severity :=
  all.find? fun s => s.label.toList = name.toList.map capital

/-- The severity with a name; a name that none has stands for `info`. -/
def ofName (name : String) : Severity :=
  (ofName? name).getD .info

end Severity

namespace Logging

/-- What is done with a record. -/
inductive Handler where
  | console
  | file (path : Files.Path)
  deriving Repr, DecidableEq

/-- The handlers of records and the least severity they see. -/
structure State where
  threshold : Severity
  handlers : List Handler
  deriving Repr, DecidableEq

/-- Logging before it is set up. -/
def State.initial : State :=
  ⟨.warning, []⟩

namespace State

/-- The state with another threshold and no handlers. -/
def restart (s : State) (threshold : Severity) : State :=
  { s with threshold := threshold, handlers := [] }

/-- The state with one more handler, after those it has. -/
def add (s : State) (h : Handler) : State :=
  { s with handlers := s.handlers ++ [h] }

end State

/-- How logging should be. What is not given is taken from the settings; an empty level counts as
not given. -/
structure Request where
  settings : Settings
  toFile : Option Bool
  toConsole : Bool
  level : Option String

/-- The name of the log file in its directory. -/
def fileName : String := "ygo_hand_sim.log"

namespace Request

/-- Whether to log to a file. -/
def wantsFile (r : Request) : Except Failure Bool :=
  match r.toFile with
  | some b => .ok b
  | none => r.settings.logToFile

/-- The name of the level that is asked for. -/
def levelName (r : Request) : Except Failure String :=
  match r.level with
  | none => r.settings.logLevel
  | some name => if name.isEmpty then r.settings.logLevel else .ok name

/-- What a request asks for: the threshold, and the directory of the log file if there is one. -/
def plan (r : Request) : Except Failure (Severity × Option Files.Path) := do
  let wantsFile ← r.wantsFile
  let threshold := Severity.ofName (← r.levelName)
  if wantsFile then return (threshold, some (← r.settings.logDir))
  else return (threshold, none)

end Request

variable {m : Type → Type} [Monad m] [Host m]

/-- Makes the directory of a log file and opens the file, which stays as it is or starts empty. -/
def openFile (directory : Files.Path) : m (Except Failure Unit) := do
  match ← Host.makeDirectories directory with
  | .error fault => return .error (.file fault)
  | .ok () => return (← Host.append (directory.below fileName) []).mapError .file

/-- Sets logging up anew: no handler of the former state stays. -/
def setUp (r : Request) (former : State) : m (Except Failure State) := do
  match r.plan with
  | .error e => return .error e
  | .ok (threshold, directory?) =>
    let silent := former.restart threshold
    let state := if r.toConsole then silent.add .console else silent
    match directory? with
    | none => return .ok state
    | some directory =>
      return (← openFile directory).map fun _ => state.add (.file (directory.below fileName))

/-! ## Records -/

/-- A record as a line of a log. -/
def line (time : String) (r : Record) : String :=
  time ++ " - " ++ r.channel.label ++ " - " ++ r.severity.label ++ " - " ++ r.message ++ "\n"

/-! ## Log files -/

/-- The number of bytes that a log file does not reach. -/
def maxBytes : Nat := 10485760

/-- How many backups of a log file there are. -/
def backupCount : Nat := 5

/-- The path of a backup of the log file at a path; the log file itself has the number zero. -/
def backup (path : Files.Path) : Nat → Files.Path
  | 0 => path
  | i + 1 => path.extended ("." ++ toString (i + 1))

/-- Moves what is at a path, if anything is, to another, in place of the file that is there. -/
def moveUp (p q : Files.Path) : m (Except Files.Fault Unit) := do
  if !(← Host.isThere p) then return .ok ()
  else if !(← Host.isThere q) then Host.rename p q
  else
    match ← Host.remove q with
    | .error fault => return .error fault
    | .ok () => Host.rename p q

/-- Moves a log file and the backups below a number up by one, the last first. -/
def turnOver (path : Files.Path) : Nat → m (Except Files.Fault Unit)
  | 0 => return .ok ()
  | i + 1 => do
    match ← moveUp (backup path i) (backup path (i + 1)) with
    | .error fault => return .error fault
    | .ok () => turnOver path i

/-- Whether a file of a size would get too long with a line, whose characters are counted for bytes.
What is no file does not get too long. -/
def isFull (size? : Option Nat) (text : String) : Bool :=
  match size? with
  | none => false
  | some size => maxBytes ≤ size + text.length

/-- Puts a line at the end of a log file, which becomes a backup before if it would get too long. -/
def note (path : Files.Path) (text : String) : m (Except Files.Fault Unit) := do
  if isFull (← Host.size? path) text then
    match ← turnOver path backupCount with
    | .error fault => return .error fault
    | .ok () => Host.append path (Text.encodeUtf8 text.toList)
  else Host.append path (Text.encodeUtf8 text.toList)

/-- What is complained about when a line is lost. Where in the program that was, is left out. -/
def lossNotice : String := "--- Logging error ---"

/-! ## Handling records -/

/-- Gives a line to a handler. A line that cannot be put into a log file is lost, and the program goes
on. -/
def Handler.handle (text : String) : Handler → m Unit
  | .console => Host.complain text
  | .file path => do
    match ← note path text with
    | .ok () => return ()
    | .error _ => Host.complain (lossNotice ++ "\n")

/-- Gives a line to handlers in order. -/
def handleAll (text : String) : List Handler → m Unit
  | [] => return ()
  | h :: hs => do
    h.handle text
    handleAll text hs

namespace State

/-- Logs a record. -/
def log (s : State) (r : Record) : m Unit := do
  if r.severity.rank < s.threshold.rank then return ()
  else if s.handlers.isEmpty then
    if r.severity.rank < Severity.warning.rank then return ()
    else Host.complain (r.message ++ "\n")
  else handleAll (line (← Host.time) r) s.handlers

/-- Logs records in order. -/
def logAll (s : State) : List Record → m Unit
  | [] => return ()
  | r :: rs => do
    s.log r
    s.logAll rs

end State

end Logging

end OpeningHand
