import OpeningHand.Text.Quoted

/-!
# Forms of command lines

What the words of a command line may be: options with their names and values, and one operand,
which is a single word or takes all that follows. A misuse is a way in which words fail to fit a
form.
-/

namespace OpeningHand.CommandLine

/-- What an option is about. -/
inductive Key where
  | help
  | config
  | logLevel
  | output
  | json
  deriving Repr, DecidableEq

/-- An option: its names, whether a value belongs to it, and the values it may have, any value if
none are listed. -/
structure Opt where
  key : Key
  names : List String
  takesValue : Bool
  choices : List String
  valueName : String
  help : String
  deriving Repr, DecidableEq

/-- The names of an option in messages. -/
def Opt.label (o : Opt) : String :=
  "/".intercalate o.names

/-- A word that an operand may be, with its description. -/
structure Choice where
  word : String
  help : String
  deriving Repr, DecidableEq

/-- The operand of a form. One with listed choices takes all words that follow it. -/
structure Operand where
  label : String
  choices : List Choice
  help : String
  deriving Repr, DecidableEq

/-- An operand that takes all words that follow it. -/
def Operand.takesRest (o : Operand) : Bool :=
  !o.choices.isEmpty

/-- The words that a program understands. -/
structure Form where
  program : String
  usage : List String
  description : Option String
  options : List Opt
  operand : Operand
  deriving Repr, DecidableEq

/-- How words fail to fit a form. -/
inductive Misuse where
  | noValue (option : String)
  | badChoice (what value : String) (choices : List String)
  | unusedValue (option value : String)
  | ambiguous (word : String) (names : List String)
  | missing (operand : String)
  | unknown (words : List String)
  deriving Repr, DecidableEq

/-- A misuse in words. -/
def Misuse.message : Misuse → String
  | .noValue option => "argument " ++ option ++ ": expected one argument"
  | .badChoice what value choices =>
    "argument " ++ what ++ ": invalid choice: " ++ Text.quote value ++ " (choose from " ++
      ", ".intercalate (choices.map Text.quote) ++ ")"
  | .unusedValue option value =>
    "argument " ++ option ++ ": ignored explicit argument " ++ Text.quote value
  | .ambiguous word names =>
    "ambiguous option: " ++ word ++ " could match " ++ ", ".intercalate names
  | .missing operand => "the following arguments are required: " ++ operand
  | .unknown words => "unrecognized arguments: " ++ " ".intercalate words

/-- Why reading words by a form stops: they ask for help, or they do not fit. -/
inductive Stop where
  | help
  | misuse (m : Misuse)
  deriving Repr, DecidableEq

end OpeningHand.CommandLine
