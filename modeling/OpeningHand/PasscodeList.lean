import OpeningHand.Failure
import OpeningHand.Journal
import OpeningHand.Text.Lines
import OpeningHand.Yaml.Writer

/-!
# Passcode lists

A deck as a list of passcodes, one copy a line, in sections. Only the main section counts: from the
line `#main` to a line that starts the extra or side deck. Other lines that start with a number sign
are comments; a line that is no number is passed over with a warning. A passcode is a number, so
leading zeros and the script of its digits make no difference.

A list converts to a document without conditions. Passcodes become names by a lookup, or stay as
they are; passcodes with one name count as one card.
-/

namespace OpeningHand.PasscodeList

/-- The line that starts the main section. -/
def mainHeader : List Char := "#main".toList

/-- The starts of lines that end the main section. -/
def sectionEnds : List (List Char) := ["#extra".toList, "!side".toList]

/-- The lines of a list without blanks at their ends; blank lines are left out. -/
def contentLines (text : List Char) : List (List Char) :=
  ((Text.lines text).map Text.trim).filter fun line => !line.isEmpty

/-- The lines after the first main header. -/
def afterHeader : List (List Char) → Option (List (List Char))
  | [] => none
  | line :: lines => if line = mainHeader then some lines else afterHeader lines

/-- A line that ends the main section. -/
def endsSection (line : List Char) : Bool :=
  sectionEnds.any fun lead => (Text.after? lead line).isSome

/-- The lines of the main section. -/
def mainLines (text : List Char) : Option (List (List Char)) :=
  (afterHeader (contentLines text)).map fun lines => lines.takeWhile fun line => !endsSection line

/-- Reads a passcode as the digits of its number. -/
def passcodeOf (line : List Char) : Except Failure String :=
  match Number.readWhole .ten line with
  | .ok n => .ok (String.ofList (Number.wholeDigits n))
  | .error e => .error (.value (.whole e))

/-- Reads the passcodes of lines in order, with a warning for each line that is no number. -/
def passcodes : List (List Char) → Recorded Failure (List String)
  | [] => .pure []
  | line :: lines =>
    if line.head? = some '#' then passcodes lines
    else if !line.all Text.isDigitSign then do
      .note .passcodes .warning
        ("Skipping non-numeric line in YDK main deck: " ++ String.ofList (Text.quoted line))
      passcodes lines
    else do
      let passcode ← .ofExcept (passcodeOf line)
      return passcode :: (← passcodes lines)

/-- Counts with `n` more of a name, which keeps its place. -/
def addCount (name : String) (n : Nat) : List (String × Nat) → List (String × Nat)
  | [] => [(name, n)]
  | (name', m) :: counts =>
    if name' = name then (name', m + n) :: counts else (name', m) :: addCount name n counts

/-- Counts added up by name, in order of first appearance. -/
def sumCounts (counts : List (String × Nat)) : List (String × Nat) :=
  counts.foldl (fun acc e => addCount e.1 e.2 acc) []

/-- Reads a list: the copies of each passcode in the main section, in order of first appearance. -/
def read (text : String) : Recorded Failure (List (String × Nat)) :=
  match mainLines text.toList with
  | none => .ofExcept (.error .noMainSection)
  | some lines => do
    let codes ← passcodes lines
    return sumCounts (codes.map fun code => (code, 1))

/-- The name of a passcode: that of the lookup, or the passcode itself. -/
def nameOf (names : List (String × String)) (passcode : String) : String :=
  (names.lookup passcode).getD passcode

/-- The warnings for passcodes that a lookup should know and does not; an empty lookup knows none
and warns of none. -/
def unknownNames (names : List (String × String)) (counts : List (String × Nat)) : List Record :=
  if names.isEmpty then []
  else
    (counts.filter fun e => (names.lookup e.1).isNone).map fun e =>
      ⟨.passcodes, .warning, "No card name known for passcode " ++ e.1⟩

/-- The copies of each name. -/
def countsByName (names : List (String × String)) (counts : List (String × Nat)) :
    List (String × Nat) :=
  sumCounts (counts.map fun e => (nameOf names e.1, e.2))

/-- The cards of all counts together. -/
def total (counts : List (String × Nat)) : Nat :=
  counts.foldl (fun n e => n + e.2) 0

/-- A document with the counted cards and no conditions. -/
def document (counts : List (String × Nat)) : List (String × Outline) :=
  [("deck", .record (counts.map fun e =>
      (e.1, .record [("qty", .number e.2), ("tags", .list [])]))),
    ("conditions", .list [])]

/-- Converts a list to a document. -/
def convert (names : List (String × String)) (text : String) : Recorded Failure String := do
  let counts ← read text
  ⟨unknownNames names counts ++ [⟨.passcodes, .info, "Converted YDK main deck with " ++
      toString (total counts) ++ " cards"⟩],
    .ok (Yaml.render (document (countsByName names counts)))⟩

end OpeningHand.PasscodeList
