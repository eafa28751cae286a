import OpeningHand.Failure
import OpeningHand.Ini.Store
import OpeningHand.Text.Lines

/-!
# Reading settings files

A file is read line by line into a store, over what the store holds already. A line in brackets
starts a section; a name, an equals sign or colon, and a value make an option; a line that is
indented more than the option before it goes on with that option's value; a number sign or semicolon
starts a comment line. A section or option may come only once in a file. Lines that are none of this
are collected and refused at the end.

The bytes are decoded in blocks, and a block at fault is met only when the lines of the blocks
before it are done.
-/

namespace OpeningHand.Ini

/-- An option that is being read: its section, its name, and the lines of its value, last first. -/
structure OpenOption where
  sectionName : String
  name : String
  lines : List (List Char)

/-- The state of reading: the store without the open option, the current section, the open option,
the indentation of the last line that was no continuation, what the file has set so far, and the
lines that are no option. -/
structure Reader where
  store : Store
  current : Option String
  openOption : Option OpenOption
  indent : Nat
  sections : List String
  options : List (String × String)
  badLines : List (Nat × String)

namespace Reader

/-- Nothing read yet, over a store. -/
def start (s : Store) : Reader := ⟨s, none, none, 0, [], [], []⟩

/-- The value that lines make: joined, without blanks at the end. -/
def joinLines (lines : List (List Char)) : String :=
  String.ofList (Text.dropEndWhile Text.isBlank (List.intercalate ['\n'] lines.reverse))

/-- Puts the open option into the store. -/
def flush (r : Reader) : Reader :=
  match r.openOption with
  | none => r
  | some o =>
    { r with store := r.store.set o.sectionName o.name (joinLines o.lines), openOption := none }

/-- The open option with one more line; an option without a name takes none. -/
def extend (line : List Char) (r : Reader) : Reader :=
  match r.openOption with
  | some o => if o.name.isEmpty then r else { r with openOption := some { o with lines := line :: o.lines } }
  | none => r

/-- Whether a line at an indentation goes on with the open option. -/
def continues (indent : Nat) (r : Reader) : Bool :=
  r.indent < indent && r.openOption.any fun o => !o.name.isEmpty

/-- The name in brackets at the start of a line, up to the last closing bracket. -/
def sectionName? : List Char → Option (List Char)
  | '[' :: cs =>
    match cs.reverse.dropWhile (· ≠ ']') with
    | ']' :: name => if name.isEmpty then none else some name.reverse
    | _ => none
  | _ => none

/-- A sign between an option's name and its value. -/
def isDelimiter (c : Char) : Bool := c = '=' || c = ':'

/-- Starts a section. -/
def startSection (file : String) (number : Nat) (name : String) (r : Reader) : Except Fault Reader :=
  if r.sections.contains name then .error (.sectionTwice file number name)
  else
    let seen := if name = defaultSection then r.sections else name :: r.sections
    .ok { r.flush with
      store := r.flush.store.addSection name, current := some name, sections := seen }

/-- Takes note of a line that is no option. -/
def refuse (number : Nat) (line : List Char) (r : Reader) : Reader :=
  { r with badLines := r.badLines ++ [(number, String.ofList line)] }

/-- Starts an option in a section. -/
def startOption (file : String) (number : Nat) (line value : List Char) (sectionName : String)
    (r : Reader) : Except Fault Reader :=
  match value.dropWhile fun c => !isDelimiter c with
  | [] => .ok (r.refuse number line)
  | _ :: rest =>
    let name := Text.dropEndWhile Text.isBlank (value.takeWhile fun c => !isDelimiter c)
    let r := if name.isEmpty then r.refuse number line else r
    let name := optionName name
    if r.options.contains (sectionName, name) then .error (.optionTwice file number sectionName name)
    else
      .ok { r.flush with
        openOption := some ⟨sectionName, name, [Text.trim rest]⟩
        options := (sectionName, name) :: r.options }

/-- Reads one line, given with its newline. -/
def readLine (file : String) (number : Nat) (line : List Char) (r : Reader) : Except Fault Reader :=
  let value := Text.trim line
  match value with
  | [] => .ok (r.extend [])
  | first :: _ =>
    if first = '#' || first = ';' then .ok r
    else
      let indent := (line.takeWhile Text.isBlank).length
      if r.continues indent then .ok (r.extend value)
      else
        let r := { r with indent := indent }
        match sectionName? value, r.current with
        | some name, _ => startSection file number (String.ofList name) r
        | none, none => .error (.noHeader file number (String.ofList line))
        | none, some sectionName => startOption file number line value sectionName r

/-- Reads lines in order from a number on. -/
def readLines (file : String) (number : Nat) : List (List Char) → Reader → Except Fault Reader
  | [], r => .ok r
  | line :: lines, r => do readLines file (number + 1) lines (← readLine file number line r)

/-- The store after the last line, unless lines were refused. -/
def finish (file : String) (r : Reader) : Except Fault Store :=
  if r.badLines.isEmpty then .ok r.flush.store else .error (.badLines file r.badLines)

end Reader

/-! ## Files -/

/-- The lines of a text with their newlines. -/
def linesOf (line : List Char) : List Char → List (List Char)
  | [] => if line.isEmpty then [] else [line.reverse]
  | c :: cs =>
    if c = '\n' then (c :: line).reverse :: linesOf [] cs else linesOf (c :: line) cs

/-- How many bytes of a file are decoded at once. -/
def blockSize : Nat := 8192

/-- A fault that more bytes could mend: a sequence cut off at the end of a block. -/
def isCutOff (length : Nat) (bs : List UInt8) (f : Text.Utf8Fault) : Bool :=
  f.reason = .unexpectedEnd ||
    (f.reason = .invalidContinuation && f.byte = 0xed && f.position + 2 = length &&
      (bs.getLast?.any Text.isContinuation))

/-- Decodes bytes block by block, with the bytes held back from the block before. The answer is the
text before the first block at fault, and the fault, placed in its block. -/
def decodeBlocks (held bs : List UInt8) : (fuel : Nat) → List Char × Option Text.Utf8Fault
  | 0 => ([], none)
  | fuel + 1 =>
    if bs.isEmpty then
      match Text.decodeAll held with
      | (text, none) => (text, none)
      | (_, some f) => ([], some f)
    else
      let block := held ++ bs.take blockSize
      let (text, held, fault) :=
        match Text.decodeAll block with
        | (text, none) => (text, [], none)
        | (text, some f) =>
          if isCutOff block.length block f then (text, block.drop f.position, none)
          else ([], [], some f)
      match fault with
      | some f => ([], some f)
      | none =>
        let (more, fault) := decodeBlocks held (bs.drop blockSize) fuel
        (text ++ more, fault)

/-- The complete lines of a text. -/
def completeLines (cs : List Char) : List (List Char) :=
  (linesOf [] cs).filter fun line => line.getLast? = some '\n'

/-- Reads a file's bytes over a store. -/
def read (file : String) (bytes : List UInt8) (s : Store) : Except Failure Store :=
  let run (lines : List (List Char)) : Except Failure Reader :=
    (Reader.readLines file 1 lines (.start s)).mapError .ini
  match decodeBlocks [] bytes (bytes.length + 2) with
  | (text, none) => do
    let r ← run (linesOf [] (Text.unifyNewlines text))
    (r.finish file).mapError .ini
  | (text, some f) => do
    let _ ← run (completeLines (Text.unifyNewlines (Text.dropEndWhile (· = '\r') text)))
    throw (.undecodable f)

end OpeningHand.Ini
