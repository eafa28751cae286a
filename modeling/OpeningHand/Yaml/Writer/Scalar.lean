import OpeningHand.Text.Quoted
import OpeningHand.Yaml.Writer.Style

/-!
# Written scalars

The text of a scalar in its style. A long text is folded at single spaces once a line is wider than
eighty columns, unless it is a key on the line of its colon. Between apostrophes a break is written
as a blank line, and between double quotes as an escape; a fold there ends with a backslash, as the
reader would else add a space.
-/

namespace OpeningHand.Yaml.Writer

/-- The width after which a line is folded. -/
def maxWidth : Nat := 80

/-- How a scalar is laid out: whether it may be folded, and where its further lines start. -/
structure Layout where
  folds : Bool
  indent : Nat
  deriving Repr, DecidableEq

/-- A new line up to where it starts. -/
def newLine (indent : Nat) : List Char := '\n' :: List.replicate indent ' '

/-! ## Plain and single-quoted -/

/-- The kinds of characters that are written in runs. -/
inductive RunKind where
  | spaces
  | breaks
  | other
  deriving Repr, DecidableEq

/-- The kind of a character. -/
def RunKind.of (c : Char) : RunKind :=
  if c = ' ' then .spaces else if isWrittenBreak c then .breaks else .other

/-- A text as runs of characters of one kind. -/
def runs : List Char → List (RunKind × List Char)
  | [] => []
  | c :: cs =>
    match runs cs with
    | (kind, run) :: more =>
      if kind = .of c then (kind, c :: run) :: more else (.of c, [c]) :: (kind, run) :: more
    | [] => [(.of c, [c])]

/-- Apostrophes written twice. -/
def doubled (cs : List Char) : List Char :=
  cs.flatMap fun c => if c = '\'' then [c, c] else [c]

/-- Breaks as lines: a newline needs one more before the first, since a single one would be read as
a space. -/
def writtenBreaks (indent : Nat) (run : List Char) : List Char :=
  (if run.head? = some '\n' then ['\n'] else []) ++ run ++ List.replicate indent ' '

/-- Writes runs from a column on. `isFirst` tells that nothing was written before. -/
def writeRuns (l : Layout) (column : Nat) (isFirst : Bool) :
    List (RunKind × List Char) → List Char
  | [] => []
  | (.spaces, run) :: more =>
    if l.folds && run.length = 1 && maxWidth < column && !isFirst && !more.isEmpty then
      newLine l.indent ++ writeRuns l l.indent false more
    else run ++ writeRuns l (column + run.length) false more
  | (.breaks, run) :: more => writtenBreaks l.indent run ++ writeRuns l l.indent false more
  | (.other, run) :: more => run ++ writeRuns l (column + run.length) false more

/-- A plain scalar from a column on. -/
def plainText (l : Layout) (column : Nat) (cs : List Char) : List Char :=
  writeRuns l column true (runs cs)

/-- A scalar between apostrophes from a column on. -/
def singleText (l : Layout) (column : Nat) (cs : List Char) : List Char :=
  '\'' :: (writeRuns l (column + 1) true (runs (doubled cs)) ++ ['\''])

/-! ## Double-quoted -/

/-- The letter of a one-letter escape. -/
def escapeLetter? (c : Char) : Option Char :=
  [('\x00', '0'), ('\x07', 'a'), ('\x08', 'b'), ('\t', 't'), ('\n', 'n'), ('\x0b', 'v'),
    ('\x0c', 'f'), ('\r', 'r'), ('\x1b', 'e'), ('"', '"'), ('\\', '\\'), ('\x85', 'N'),
    ('\xa0', '_'), ('\u2028', 'L'), ('\u2029', 'P')].lookup c

/-- Hexadecimal digits in capitals. -/
def capitalHex (width n : Nat) : List Char := (Text.hexDigits width n).map Char.toUpper

/-- The escape of a character. -/
def escapeText (c : Char) : List Char :=
  match escapeLetter? c with
  | some letter => ['\\', letter]
  | none =>
    let n := c.toNat
    if n ≤ 0xff then '\\' :: 'x' :: capitalHex 2 n
    else if n ≤ 0xffff then '\\' :: 'u' :: capitalHex 4 n
    else '\\' :: 'U' :: capitalHex 8 n

/-- A character that stands for itself between double quotes. -/
def isDoubleChar (c : Char) : Bool :=
  let n := c.toNat
  ((0x20 ≤ n && n ≤ 0x7e) || (0xa0 ≤ n && n ≤ 0xd7ff) || (0xe000 ≤ n && n ≤ 0xfffd)) &&
    !(c = '"' || c = '\\' || n = 0x85 || n = 0x2028 || n = 0x2029 || n = 0xfeff)

/-- A fold before a text: a backslash, a new line, and a backslash more if a space follows. -/
def foldBefore (indent : Nat) (cs : List Char) : List Char :=
  '\\' :: newLine indent ++ (if cs.head? = some ' ' then ['\\'] else [])

/-- The column after a fold before a text. -/
def columnAfterFold (indent : Nat) (cs : List Char) : Nat :=
  indent + (if cs.head? = some ' ' then 1 else 0)

/-- Writes characters from a column on. A fold is allowed after the first character and before the
last, at a space, before a character that follows an escape or a fold (`isFresh`), and after an
escape. -/
def doubleFrom (l : Layout) (column : Nat) (isFirst isFresh : Bool) : List Char → List Char
  | [] => []
  | c :: cs =>
    let mayFold := l.folds && !isFirst && !cs.isEmpty
    if isDoubleChar c then
      if mayFold && (c = ' ' || isFresh) && maxWidth < column then
        foldBefore l.indent (c :: cs) ++
          c :: doubleFrom l (columnAfterFold l.indent (c :: cs) + 1) false false cs
      else c :: doubleFrom l (column + 1) false false cs
    else
      let e := escapeText c
      let after := column + e.length
      if mayFold && maxWidth + 1 < after then
        e ++ foldBefore l.indent cs ++ doubleFrom l (columnAfterFold l.indent cs) false true cs
      else e ++ doubleFrom l after false true cs

/-- A scalar between double quotes from a column on. -/
def doubleText (l : Layout) (column : Nat) (cs : List Char) : List Char :=
  '"' :: (doubleFrom l (column + 1) true true cs ++ ['"'])

/-- A text in its style from a column on. -/
def scalarText (l : Layout) (column : Nat) (cs : List Char) : List Char :=
  match styleOf cs with
  | .plain => plainText l column cs
  | .single => singleText l column cs
  | .double => doubleText l column cs

end OpeningHand.Yaml.Writer
