import OpeningHand.Files.Path
import OpeningHand.Ini.Reader
import OpeningHand.Number.Whole

/-!
# Settings

What can be set: the least size of a deck, how and where to log, and whether saved documents are
sorted. Every setting has a default; a settings file is read over the defaults, option by option.
A value is a text and is read as a number or a truth value only when asked for, so a wrong value
fails there.
-/

namespace OpeningHand

/-- Settings are a store of options. -/
structure Settings where
  store : Ini.Store
  deriving Repr, DecidableEq

namespace Settings

/-- The defaults. -/
def default : Settings :=
  ⟨⟨[], [("Deck", [("min_size", "40")]),
    ("Logging", [("log_level", "INFO"), ("log_to_file", "false"), ("log_dir", "logs")]),
    ("Yaml", [("sort_keys", "false")])]⟩⟩

/-- Settings from a file's bytes over the defaults. -/
def ofFile (path : Files.Path) (bytes : List UInt8) : Except Failure Settings :=
  (Ini.read path.toText bytes default.store).map Settings.mk

/-- A setting as text, if it is there. -/
def text? (s : Settings) (sectionName option : String) : Except Failure (Option String) :=
  (s.store.value? sectionName option).mapError .ini

/-- A setting as text, or a fallback for one that is not there. -/
def textOr (s : Settings) (sectionName option : String) (fallback : Option String) :
    Except Failure (Option String) := do
  return (← s.text? sectionName option).or fallback

/-- The words for truth values. -/
def flagWords : List (String × Bool) :=
  [("1", true), ("yes", true), ("true", true), ("on", true),
    ("0", false), ("no", false), ("false", false), ("off", false)]

/-- A setting as truth value, if it is there. -/
def flag? (s : Settings) (sectionName option : String) : Except Failure (Option Bool) := do
  match ← s.text? sectionName option with
  | none => return none
  | some value =>
    match flagWords.lookup (String.ofList (Text.lower value.toList)) with
    | some b => return some b
    | none => throw (.value (.flag value))

/-- A setting as whole number, if it is there. -/
def whole? (s : Settings) (sectionName option : String) : Except Failure (Option Int) := do
  match ← s.text? sectionName option with
  | none => return none
  | some value =>
    match Number.readWhole .ten value.toList with
    | .ok n => return some n
    | .error e => throw (.value (.whole e))

/-- A text, or a default for one that is absent or empty. -/
def orDefault (value : Option String) (default : String) : String :=
  match value with
  | none => default
  | some s => if s.isEmpty then default else s

/-- The least size of a deck. -/
def minDeckSize (s : Settings) : Except Failure Int := do
  return (← s.whole? "Deck" "min_size").getD 40

/-- The name of the log level. -/
def logLevel (s : Settings) : Except Failure String := do
  return orDefault (← s.text? "Logging" "log_level") "INFO"

/-- Whether to log to a file. -/
def logToFile (s : Settings) : Except Failure Bool := do
  return (← s.flag? "Logging" "log_to_file").getD false

/-- Where log files go. -/
def logDir (s : Settings) : Except Failure Files.Path := do
  return .ofText (orDefault (← s.text? "Logging" "log_dir") "logs")

/-- Whether saved documents are sorted by name. -/
def sortKeys (s : Settings) : Except Failure Bool := do
  return (← s.flag? "Yaml" "sort_keys").getD false

end Settings

end OpeningHand
