import OpeningHand.Yaml.Lexer.Plain
import OpeningHand.Yaml.Tag

/-!
# Styles of written scalars

In which style a text is written: plain if it would be read back as the same text, else between
apostrophes, else between double quotes, where anything can be written. What rules a style out are
marks at places where they mean something, blanks at line ends, and characters that only an escape
can give.
-/

namespace OpeningHand.Yaml.Writer

/-- The styles of written scalars. -/
inductive Style where
  | plain
  | single
  | double
  deriving Repr, DecidableEq

/-- A character that is written as a line break. -/
def isWrittenBreak (c : Char) : Bool :=
  c = '\n' || c = '\x85' || c = '\u2028' || c = '\u2029'

/-- A character that can only be written as an escape. -/
def needsEscape (c : Char) : Bool :=
  let n := c.toNat
  !(c = '\n' || (0x20 ≤ n && n ≤ 0x7e) ||
    ((n = 0x85 || (0xa0 ≤ n && n ≤ 0xd7ff) || (0xe000 ≤ n && n ≤ 0xfffd) ||
      (0x10000 ≤ n && n < 0x10ffff)) && n ≠ 0xfeff))

/-- Some character and the one after it satisfy `p`; after the last one comes the end. -/
def somePair (p : Char → Char → Bool) : List Char → Bool
  | [] => false
  | c :: cs => p c (cs.headD endMark) || somePair p cs

/-- A text takes more than one line. -/
def isMultiline (cs : List Char) : Bool := cs.any isWrittenBreak

/-- A text starts with a mark that no plain scalar may start with. -/
def startsWithMark : List Char → Bool
  | [] => false
  | c :: cs =>
    "#,[]\x7b\x7d&*!|>'\"%@`".toList.contains c ||
      ((c = '?' || c = ':' || c = '-') && isGapOrEnd (cs.headD endMark)) ||
      c = '-' && cs.take 2 = ['-', '-'] || c = '.' && cs.take 2 = ['.', '.']

/-- Inside a text stands a mark that ends a plain scalar: a colon before a blank or a number sign
after one. -/
def holdsMark (cs : List Char) : Bool :=
  somePair (fun c next => c = ':' && isGapOrEnd next) cs.tail ||
    somePair (fun c next => isGapOrEnd c && next = '#') cs

/-- A space or break that a line's end would swallow. -/
def isEdge (c : Char) : Bool := c = ' ' || isWrittenBreak c

/-- A break with a space beside it. -/
def hasBreakBesideSpace (cs : List Char) : Bool :=
  somePair (fun c next => (isWrittenBreak c && next = ' ') || (c = ' ' && isWrittenBreak next)) cs

/-- A text can be written between apostrophes. -/
def allowsSingle (cs : List Char) : Bool :=
  !(hasBreakBesideSpace cs || cs.any needsEscape)

/-- A text can be written plain and is read back as a text. -/
def allowsPlain (cs : List Char) : Bool :=
  !cs.isEmpty && Tag.ofPlain cs = .text && allowsSingle cs && !isMultiline cs &&
    !startsWithMark cs && !holdsMark cs && !cs.head?.any isEdge && !cs.getLast?.any isEdge

/-- The style that a text is written in. -/
def styleOf (cs : List Char) : Style :=
  if allowsPlain cs then .plain else if allowsSingle cs then .single else .double

/-- How long a key may be that is written before its colon on one line, with the five characters of
its unwritten tag counted in. -/
def maxSimpleKey : Nat := 128

/-- A key that is written before its colon on one line. -/
def isSimpleKey (cs : List Char) : Bool :=
  5 + cs.length < maxSimpleKey && !cs.isEmpty && !isMultiline cs

end OpeningHand.Yaml.Writer
