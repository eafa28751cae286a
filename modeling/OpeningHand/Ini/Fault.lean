import OpeningHand.Text.Quoted

/-!
# Faults of settings files

Why a settings file cannot be read, or a value in it not be given: a line outside any section, lines
that are no option, a name used twice, or a reference inside a value that leads nowhere.
-/

namespace OpeningHand.Ini

/-- Why a file cannot be read or a value not be given. -/
inductive Fault where
  | noHeader (file : String) (line : Nat) (text : String)
  | badLines (file : String) (lines : List (Nat × String))
  | sectionTwice (file : String) (line : Nat) (sectionName : String)
  | optionTwice (file : String) (line : Nat) (sectionName option : String)
  | tooDeep (sectionName option raw : String)
  | unknownReference (sectionName option key raw : String)
  | badReference (rest : String)
  | loosePercent (rest : String)
  deriving Repr, DecidableEq

/-- How many references deep a value may reach. -/
def maxDepth : Nat := 10

/-- A line number in brackets, two characters wide at least. -/
def lineMark (line : Nat) : String :=
  let digits := toString line
  "[line " ++ (if digits.length < 2 then " " else "") ++ digits ++ "]"

/-- A fault in words. -/
def Fault.message : Fault → String
  | .noHeader file line text =>
    "File contains no section headers.\nfile: " ++ Text.quote file ++ ", line: " ++ toString line ++
      "\n" ++ Text.quote text
  | .badLines file lines =>
    "Source contains parsing errors: " ++ Text.quote file ++
      String.join (lines.map fun l => "\n\t" ++ lineMark l.1 ++ ": " ++ Text.quote l.2)
  | .sectionTwice file line sectionName =>
    "While reading from " ++ Text.quote file ++ " " ++ lineMark line ++ ": section " ++
      Text.quote sectionName ++ " already exists"
  | .optionTwice file line sectionName option =>
    "While reading from " ++ Text.quote file ++ " " ++ lineMark line ++ ": option " ++
      Text.quote option ++ " in section " ++ Text.quote sectionName ++ " already exists"
  | .tooDeep sectionName option raw =>
    "Recursion limit exceeded in value substitution: option " ++ Text.quote option ++
      " in section " ++ Text.quote sectionName ++
      " contains an interpolation key which cannot be substituted in " ++ toString maxDepth ++
      " steps. Raw value: " ++ Text.quote raw
  | .unknownReference sectionName option key raw =>
    "Bad value substitution: option " ++ Text.quote option ++ " in section " ++
      Text.quote sectionName ++ " contains an interpolation key " ++ Text.quote key ++
      " which is not a valid option name. Raw value: " ++ Text.quote raw
  | .badReference rest => "bad interpolation variable reference " ++ Text.quote rest
  | .loosePercent rest => "'%' must be followed by '%' or '(', found: " ++ Text.quote rest

end OpeningHand.Ini
