import OpeningHand.CommandLine.Help
import OpeningHand.CommandLine.Reading
import OpeningHand.Journal

/-!
# Invocations

The forms of this program, and what its command line asks for: a settings file, a log level, and one
of four commands. The words after a command's name are read by that command's own form; words that
neither form has a use for are refused together, once everything else fits.
-/

namespace OpeningHand.CommandLine

/-- The names of commands. -/
inductive CommandName where
  | check
  | normalize
  | parse
  | convert
  deriving Repr, DecidableEq

/-- What to do. -/
inductive Command where
  | check (file : String)
  | normalize (file : String) (output : Option String)
  | parse (expression : String) (asJson : Bool)
  | convert (file : String) (output : Option String)
  deriving Repr, DecidableEq

/-- What a command line asks for. -/
structure Invocation where
  config : Option String
  logLevel : Option String
  command : Command
  deriving Repr, DecidableEq

namespace CommandName

/-- All names, in the order in which they are listed. -/
def all : List CommandName := [.check, .normalize, .parse, .convert]

/-- The word for a command. -/
def word : CommandName → String
  | .check => "check"
  | .normalize => "normalize"
  | .parse => "parse"
  | .convert => "convert-ydk"

/-- What a command does. -/
def help : CommandName → String
  | .check => "Load a simulation YAML file and summarize it"
  | .normalize => "Load a simulation YAML file and write it back in canonical form"
  | .parse => "Parse a single condition string"
  | .convert => "Convert a YDK deck file to simulation YAML"

end CommandName

/-! ## Forms -/

/-- The wish for help. -/
def helpOpt : Opt :=
  ⟨.help, ["-h", "--help"], false, [], "", "show this help message and exit"⟩

/-- The settings file. -/
def configOpt : Opt :=
  ⟨.config, ["--config"], true, [], "CONFIG", "Path to an INI settings file"⟩

/-- The log level. -/
def logLevelOpt : Opt :=
  let levels := Severity.all.map Severity.label
  ⟨.logLevel, ["--log-level"], true, levels, "\x7b" ++ ",".intercalate levels ++ "\x7d",
    "Override the configured log level"⟩

/-- The output file. -/
def outputOpt : Opt :=
  ⟨.output, ["-o", "--output"], true, [], "OUTPUT", "Output file (default: stdout)"⟩

/-- The wish for a tree. -/
def jsonOpt : Opt :=
  ⟨.json, ["--json"], false, [], "", "Print the condition tree as JSON"⟩

/-- The name of the program. -/
def programName : String := "ygo-hand-sim"

/-- The form of the whole command line. -/
def mainForm : Form :=
  ⟨programName,
    ["usage: ygo-hand-sim [-h] [--config CONFIG]",
      "                    [--log-level \x7bDEBUG,INFO,WARNING,ERROR,CRITICAL\x7d]",
      "                    \x7bcheck,normalize,parse,convert-ydk\x7d ..."],
    some "Check and convert Yu-Gi-Oh! hand simulation inputs",
    [helpOpt, configOpt, logLevelOpt],
    ⟨"command", CommandName.all.map fun n => ⟨n.word, n.help⟩, ""⟩⟩

/-- The form of the words after the name of a command. -/
def CommandName.form (n : CommandName) : Form :=
  let program := programName ++ " " ++ n.word
  match n with
  | .check =>
    ⟨program, ["usage: " ++ program ++ " [-h] file"], none, [helpOpt],
      ⟨"file", [], "Simulation input YAML file"⟩⟩
  | .normalize =>
    ⟨program, ["usage: " ++ program ++ " [-h] [-o OUTPUT] file"], none, [helpOpt, outputOpt],
      ⟨"file", [], "Simulation input YAML file"⟩⟩
  | .parse =>
    ⟨program, ["usage: " ++ program ++ " [-h] [--json] expression"], none, [helpOpt, jsonOpt],
      ⟨"expression", [], "Condition, e.g. \"2+ CardA AND (CardB OR CardC)\""⟩⟩
  | .convert =>
    ⟨program, ["usage: " ++ program ++ " [-h] [-o OUTPUT] file"], none, [helpOpt, outputOpt],
      ⟨"file", [], "YDK deck file"⟩⟩

/-! ## Reading -/

/-- Why a command line asks for nothing: it stopped in a form. -/
structure Refusal where
  form : Form
  stop : Stop
  deriving Repr, DecidableEq

/-- What a command asks for by the reading of its words. -/
def CommandName.command (n : CommandName) (r : Reading) : Command :=
  let operand := r.operand.headD ""
  match n with
  | .check => .check operand
  | .normalize => .normalize operand (r.value? .output)
  | .parse => .parse operand (r.value? .json).isSome
  | .convert => .convert operand (r.value? .output)

/-- Reads a command line. -/
def Invocation.read (words : List String) : Except Refusal Invocation := do
  let outer ← (mainForm.read words).mapError (Refusal.mk mainForm)
  let word := outer.operand.headD ""
  match CommandName.all.find? fun n => n.word = word with
  | none =>
    throw ⟨mainForm, .misuse (.badChoice "command" word (CommandName.all.map CommandName.word))⟩
  | some name =>
    let inner ← (name.form.read (outer.operand.drop 1)).mapError (Refusal.mk name.form)
    let unused := outer.unused ++ inner.unused
    if !unused.isEmpty then throw ⟨mainForm, .misuse (.unknown unused)⟩
    return ⟨outer.value? .config, outer.value? .logLevel, name.command inner⟩

/-- What is said about a refusal: the help that was asked for, or the misuse. -/
def Refusal.text (r : Refusal) : String :=
  match r.stop with
  | .help => r.form.helpText
  | .misuse m => r.form.misuseText m

end OpeningHand.CommandLine
