import OpeningHand.Outline
import OpeningHand.Text.Digit
import OpeningHand.Text.Quoted

/-!
# Writing JSON

An outline as JSON text, one entry or item a line, two columns a level. Texts are written in ASCII:
what is beyond it stands as its UTF-16 units by number.
-/

namespace OpeningHand.Json

/-- A UTF-16 unit by number. -/
def escapedUnit (n : Nat) : List Char :=
  '\\' :: 'u' :: Text.hexDigits 4 n

/-- A code point by its one or two units. -/
def escapedByUnits (n : Nat) : List Char :=
  if n < 0x10000 then escapedUnit n
  else escapedUnit (0xd800 + (n - 0x10000) / 0x400) ++ escapedUnit (0xdc00 + (n - 0x10000) % 0x400)

/-- One character of a text. -/
def charText (c : Char) : List Char :=
  if c = '"' || c = '\\' then ['\\', c]
  else if c = '\n' then ['\\', 'n']
  else if c = '\r' then ['\\', 'r']
  else if c = '\t' then ['\\', 't']
  else if c = '\x0c' then ['\\', 'f']
  else if c = '\x08' then ['\\', 'b']
  else if ' ' ≤ c && c ≤ '~' then [c]
  else escapedByUnits c.toNat

/-- A text between double quotes. -/
def quoted (s : String) : List Char :=
  '"' :: (s.toList.flatMap charText ++ ['"'])

/-- The start of a line at a column. -/
def newLine (column : Nat) : List Char :=
  '\n' :: List.replicate column ' '

mutual

/-- A value whose own line starts at a column. -/
def value (column : Nat) : Outline → List Char
  | .text s => quoted s
  | .number n => Text.decimalDigits n
  | .flag b => (if b then "true" else "false").toList
  | .list [] => ['[', ']']
  | .list (o :: os) =>
    '[' :: newLine (column + 2) ++ value (column + 2) o ++ moreItems (column + 2) os ++
      newLine column ++ [']']
  | .record [] => ['\x7b', '\x7d']
  | .record ((name, o) :: es) =>
    '\x7b' :: newLine (column + 2) ++ quoted name ++ [':', ' '] ++ value (column + 2) o ++
      moreEntries (column + 2) es ++ newLine column ++ ['\x7d']

/-- The items of a list after its first. -/
def moreItems (column : Nat) : List Outline → List Char
  | [] => []
  | o :: os => ',' :: newLine column ++ value column o ++ moreItems column os

/-- The entries of a record after its first. -/
def moreEntries (column : Nat) : List (String × Outline) → List Char
  | [] => []
  | (name, o) :: es =>
    ',' :: newLine column ++ quoted name ++ [':', ' '] ++ value column o ++ moreEntries column es

end

/-- The text of an outline. -/
def render (o : Outline) : String :=
  String.ofList (value 0 o)

end OpeningHand.Json
