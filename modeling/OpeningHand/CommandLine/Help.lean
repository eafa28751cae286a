import OpeningHand.CommandLine.Form
import OpeningHand.Text.Blank

/-!
# Help texts

The help of a form: how to use it, what it is for, then its operand and its options in two columns.
The second column starts as far right as the longest term of the first asks for, but no further than
a fixed column; a term that is too long stands on a line of its own. Lines are broken between words.
-/

namespace OpeningHand.CommandLine

/-- A term with its description, `indent` columns from the left. -/
structure HelpRow where
  indent : Nat
  term : String
  help : String
  deriving Repr, DecidableEq

/-- The columns of a help text. -/
def helpWidth : Nat := 78

/-- The column beyond which no description starts. -/
def maxHelpColumn : Nat := 24

namespace Help

/-- Some spaces. -/
def spaces (n : Nat) : List Char :=
  List.replicate n ' '

/-- Words in lines of at most `width` columns, `line` being the line so far. -/
def fill (width : Nat) (line : List Char) : List (List Char) → List (List Char)
  | [] => if line.isEmpty then [] else [line]
  | word :: words =>
    if line.isEmpty then fill width word words
    else if line.length + 1 + word.length ≤ width then fill width (line ++ ' ' :: word) words
    else line :: fill width word words

/-- The lines of a row whose description starts at a column. -/
def rowLines (column : Nat) (r : HelpRow) : List (List Char) :=
  let term := spaces r.indent ++ r.term.toList
  match fill (helpWidth - column) [] (List.splitOn ' ' r.help.toList) with
  | [] => [term]
  | first :: more =>
    (if term.length + 2 ≤ column then [term ++ spaces (column - term.length) ++ first]
     else [term, spaces column ++ first]) ++ more.map (spaces column ++ ·)

/-- Where descriptions start. -/
def columnOf (rows : List HelpRow) : Nat :=
  min maxHelpColumn (rows.foldl (fun n r => max n (r.indent + r.term.length + 2)) 0)

/-- The rows of an operand: itself, or the words that it may be under a list of them. -/
def operandRows (o : Operand) : List HelpRow :=
  if o.choices.isEmpty then [⟨2, o.label, o.help⟩]
  else
    ⟨2, "\x7b" ++ ",".intercalate (o.choices.map Choice.word) ++ "\x7d", ""⟩ ::
      o.choices.map fun c => ⟨4, c.word, c.help⟩

/-- The row of an option: each name, followed by the name of its value if it takes one. -/
def optionRow (o : Opt) : HelpRow :=
  ⟨2, ", ".intercalate (o.names.map fun name =>
    if o.takesValue then name ++ " " ++ o.valueName else name), o.help⟩

/-- A section of a help text. -/
def sectionLines (title : String) (column : Nat) (rows : List HelpRow) : List (List Char) :=
  [] :: title.toList :: rows.flatMap (rowLines column)

end Help

open Help

/-- Lines as a text. -/
def textOfLines (lines : List (List Char)) : String :=
  String.ofList (lines.flatMap (· ++ ['\n']))

/-- How to use a form. -/
def Form.usageText (f : Form) : String :=
  textOfLines (f.usage.map String.toList)

/-- The help of a form. -/
def Form.helpText (f : Form) : String :=
  let operandRows := operandRows f.operand
  let optionRows := f.options.map optionRow
  let column := columnOf (operandRows ++ optionRows)
  textOfLines (f.usage.map String.toList ++
    (match f.description with
     | none => []
     | some text => [[], text.toList]) ++
    sectionLines "positional arguments:" column operandRows ++
    sectionLines "options:" column optionRows)

/-- What is said about a misuse of a form. -/
def Form.misuseText (f : Form) (m : Misuse) : String :=
  f.usageText ++ f.program ++ ": error: " ++ m.message ++ "\n"

end OpeningHand.CommandLine
