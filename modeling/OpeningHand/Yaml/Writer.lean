import OpeningHand.Outline
import OpeningHand.Text.Digit
import OpeningHand.Yaml.Writer.Scalar

/-!
# Writing YAML

An outline as a YAML document, with one entry or item a line. The items of a list under a name stand
at the name's own column, a record under a name two columns further; empty collections are written
on one line. A name that is too long or takes several lines stands after a question mark, its value
on a line of its own after a colon.
-/

namespace OpeningHand.Yaml

namespace Writer

/-- The name of an entry before its colon, in a record that stands at a column. -/
def simpleName (column : Nat) (name : List Char) : List Char :=
  scalarText ⟨false, column⟩ column name

/-- A name after a question mark, and the start of the line for its value. -/
def longName (column : Nat) (name : List Char) : List Char :=
  '?' :: ' ' :: scalarText ⟨true, column + 2⟩ (column + 2) name ++ newLine column

mutual

/-- A value after the colon of a name that starts at `indent`; the colon ends at `column`. -/
def afterName (indent column : Nat) : Outline → List Char
  | .text s => ' ' :: scalarText ⟨true, indent + 2⟩ (column + 1) s.toList
  | .number n => ' ' :: Text.decimalDigits n
  | .flag b => ' ' :: (if b then "true" else "false").toList
  | .list [] => " []".toList
  | .record [] => " \x7b\x7d".toList
  | .list (o :: os) => newLine indent ++ items indent (o :: os)
  | .record (e :: es) => newLine (indent + 2) ++ entries (indent + 2) (e :: es)

/-- A value after a mark of one character that stands at `indent`. -/
def afterMark (indent : Nat) : Outline → List Char
  | .text s => ' ' :: scalarText ⟨true, indent + 2⟩ (indent + 2) s.toList
  | .number n => ' ' :: Text.decimalDigits n
  | .flag b => ' ' :: (if b then "true" else "false").toList
  | .list [] => " []".toList
  | .record [] => " \x7b\x7d".toList
  | .list (o :: os) => ' ' :: items (indent + 2) (o :: os)
  | .record (e :: es) => ' ' :: entries (indent + 2) (e :: es)

/-- Items of a list at a column, each after a hyphen. -/
def items (indent : Nat) : List Outline → List Char
  | [] => []
  | o :: os =>
    '-' :: afterMark indent o ++
      (match os with
       | [] => []
       | _ :: _ => newLine indent ++ items indent os)

/-- Entries of a record at a column. -/
def entries (indent : Nat) : List (String × Outline) → List Char
  | [] => []
  | (name, o) :: es =>
    let cs := name.toList
    (if isSimpleKey cs then
      let written := simpleName indent cs
      written ++ ':' :: afterName indent (indent + written.length + 1) o
     else longName indent cs ++ ':' :: afterMark indent o) ++
      (match es with
       | [] => []
       | _ :: _ => newLine indent ++ entries indent es)

end

end Writer

/-- The text of a record as a document. -/
def render (es : List (String × Outline)) : String :=
  String.ofList (Writer.entries 0 es ++ ['\n'])

end OpeningHand.Yaml
