import OpeningHand.CommandLine.Report
import OpeningHand.Logging

/-!
# Running command lines

A run reads the settings, sets logging up, works out the report of the command, and only then
delivers it. A failure that the user can mend is said in one line and ends the run with code one; any
other ends the program.
-/

namespace OpeningHand.CommandLine

/-- How a run ends: with a code that is returned, by leaving early with a code, or by a failure that
nothing answers for. -/
inductive Ending where
  | returned (code : Nat)
  | left (code : Nat)
  | failed (e : Failure)
  deriving Repr, DecidableEq

variable {m : Type → Type} [Monad m] [Host m]

/-- The settings of a file, or the defaults if none is named. -/
def settingsOf (config : Option String) : m (Except Failure Settings) := do
  match config with
  | none => return .ok .default
  | some text =>
    if text.isEmpty then return .ok .default
    let p := Files.Path.ofText text
    match ← Host.isFile p with
    | .error fault => return .error (.file fault)
    | .ok false => return .error (.file (.noSettings p.toText))
    | .ok true =>
      match ← Host.read p with
      | .error fault => return .error (.file fault)
      | .ok bytes => return Settings.ofFile p bytes

/-- What is in the file that a command reads. -/
def contentsFor (c : Command) : m Contents := do
  match c.file? with
  | none => return fun p => .error (.missing p.toText)
  | some file =>
    let bytes ← Host.read (.ofText file)
    return fun _ => bytes

/-- Says what went wrong. -/
def sayFailure (e : Failure) : m Ending := do
  Host.complain ("Error: " ++ e.message ++ "\n")
  return .returned 1

/-- The record of a written file. -/
def wroteRecord (output : String) : Record :=
  ⟨.commandLine, .info, "Wrote " ++ output⟩

/-- Delivers a report: to its file, or by saying it if no file is named. -/
def deliver (logging : Logging.State) (r : Report) : m Ending := do
  let output := r.output.getD ""
  if output.isEmpty then
    Host.say r.text
    return .returned 0
  else
    match ← Host.write (.ofText output) (Text.encodeUtf8 r.text.toList) with
    | .error fault => sayFailure (.file fault)
    | .ok () =>
      logging.log (wroteRecord output)
      return .returned 0

/-- Carries out a command. -/
def carryOut (tools : Tools) (logging : Logging.State) (c : Command) : m Ending := do
  let contents ← contentsFor c
  let job := c.report tools contents
  logging.logAll job.records
  match job.result with
  | .ok report => deliver logging report
  | .error e => if e.isReported then sayFailure e else return .failed e

/-- Carries out what a command line asks for. -/
def invoke (i : Invocation) : m Ending := do
  match ← settingsOf i.config with
  | .error (.file (.noSettings path)) => sayFailure (.file (.noSettings path))
  | .error e => return .failed e
  | .ok settings =>
    match ← Logging.setUp ⟨settings, none, true, i.logLevel⟩ .initial with
    | .error e => return .failed e
    | .ok logging => carryOut (.ofSettings settings) logging i.command

/-- Runs a command line. -/
def run (words : List String) : m Ending := do
  match Invocation.read words with
  | .error refusal =>
    match refusal.stop with
    | .help =>
      Host.say refusal.text
      return .left 0
    | .misuse _ =>
      Host.complain refusal.text
      return .left 2
  | .ok i => invoke i

end OpeningHand.CommandLine
