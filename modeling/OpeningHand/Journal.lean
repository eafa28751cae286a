/-!
# Journals

What the library records while it works. A job answers with the records it made, in order, and
either a value or the reason it stopped; a job that stops keeps the records made before. Jobs follow
each other in the order of `bind`, so the records of the first stand before those of the second.
-/

namespace OpeningHand

/-- How much a record matters. -/
inductive Severity where
  | debug
  | info
  | warning
  | error
  | critical
  deriving Repr, DecidableEq

namespace Severity

/-- All severities, from the least. -/
def all : List Severity := [.debug, .info, .warning, .error, .critical]

/-- The name of a severity. -/
def label : Severity → String
  | .debug => "DEBUG"
  | .info => "INFO"
  | .warning => "WARNING"
  | .error => "ERROR"
  | .critical => "CRITICAL"

/-- The rank of a severity, on a scale that leaves room between neighbours. -/
def rank : Severity → Nat
  | .debug => 10
  | .info => 20
  | .warning => 30
  | .error => 40
  | .critical => 50

end Severity

/-- The part of the library that makes a record. -/
inductive Channel where
  | conditions
  | decks
  | documents
  | passcodes
  | commandLine
  | probe
  deriving Repr, DecidableEq

/-- The name of a channel in log lines. -/
def Channel.label : Channel → String
  | .conditions => "ygo_hand_sim.conditions.parser"
  | .decks => "ygo_hand_sim.models.deck"
  | .documents => "ygo_hand_sim.simulation_io"
  | .passcodes => "ygo_hand_sim.ydk_io"
  | .commandLine => "ygo_hand_sim.cli"
  | .probe => "ygo_hand_sim.probe"

/-- One record of a journal. -/
structure Record where
  channel : Channel
  severity : Severity
  message : String
  deriving Repr, DecidableEq

/-- A record as a short line: its severity and its message. -/
def Record.brief (r : Record) : String :=
  r.severity.label ++ " " ++ r.message

/-- The outcome of a job: the records it made, and its value or the reason it stopped. -/
structure Recorded (ε α : Type) where
  records : List Record
  result : Except ε α

namespace Recorded

variable {ε α β : Type}

/-- A job that only answers. -/
def pure (a : α) : Recorded ε α := ⟨[], .ok a⟩

/-- One job after another; the second runs only if the first answered. -/
def bind (job : Recorded ε α) (next : α → Recorded ε β) : Recorded ε β :=
  match job.result with
  | .error e => ⟨job.records, .error e⟩
  | .ok a => ⟨job.records ++ (next a).records, (next a).result⟩

instance : Monad (Recorded ε) where
  pure := Recorded.pure
  bind := Recorded.bind

/-- A job that makes one record. -/
def note (channel : Channel) (severity : Severity) (message : String) : Recorded ε Unit :=
  ⟨[⟨channel, severity, message⟩], .ok ()⟩

/-- A value or a reason to stop, with nothing recorded. -/
def ofExcept (result : Except ε α) : Recorded ε α := ⟨[], result⟩

end Recorded

end OpeningHand
