/-!
# Places in a YAML text

A cursor is a place in a text: what is left of the text, how many characters were passed, and the
line and column reached. The end of the text is seen as the null character, which no YAML text
holds. The module also names the classes of characters that the reading of tokens asks for.
-/

namespace OpeningHand.Yaml

/-- What is seen at the end of a text. -/
def endMark : Char := '\x00'

/-- A character that breaks a line. -/
def isBreak (c : Char) : Bool :=
  c = '\r' || c = '\n' || c = '\x85' || c = '\u2028' || c = '\u2029'

/-- A line break, or the end of the text. -/
def isLineEnd (c : Char) : Bool :=
  c = endMark || isBreak c

/-- A space, a line break, or the end of the text. -/
def isSpaceOrEnd (c : Char) : Bool :=
  c = ' ' || isLineEnd c

/-- A space, a tab, a line break, or the end of the text. -/
def isGapOrEnd (c : Char) : Bool :=
  c = '\t' || isSpaceOrEnd c

/-- A letter or digit of ASCII, a hyphen or an underscore. -/
def isWordChar (c : Char) : Bool :=
  c.isAlphanum || c = '-' || c = '_'

/-- A hexadecimal digit. -/
def isHexDigit (c : Char) : Bool :=
  c.isDigit || ('a' ≤ c && c ≤ 'f') || ('A' ≤ c && c ≤ 'F')

/-- The number that hexadecimal digits denote. -/
def hexValue (cs : List Char) : Nat :=
  cs.foldl (fun n c =>
    n * 16 + (if c.isDigit then c.toNat - 48 else c.toLower.toNat - 87)) 0

/-- A character that a YAML text may hold. -/
def isTextChar (c : Char) : Bool :=
  let n := c.toNat
  n = 9 || n = 10 || n = 13 || (0x20 ≤ n && n ≤ 0x7e) || n = 0x85 ||
    (0xa0 ≤ n && n ≤ 0xd7ff) || (0xe000 ≤ n && n ≤ 0xfffd) || 0x10000 ≤ n

/-- A place in a text. -/
structure Cursor where
  rest : List Char
  index : Nat
  line : Nat
  column : Nat
  deriving Repr, DecidableEq

namespace Cursor

/-- The start of a text. -/
def start (cs : List Char) : Cursor := ⟨cs, 0, 0, 0⟩

/-- The character at the cursor. -/
def peek (c : Cursor) : Char := c.rest.headD endMark

/-- The character `k` places after the cursor. -/
def peekAt (c : Cursor) (k : Nat) : Char := c.rest.getD k endMark

/-- One character further. The mark U+FEFF takes no column, and a carriage return before a newline
breaks no line of its own. -/
def next (c : Cursor) : Cursor :=
  match c.rest with
  | [] => c
  | ch :: rest =>
    if isBreak ch && !(ch = '\r' && rest.head? = some '\n') then ⟨rest, c.index + 1, c.line + 1, 0⟩
    else if ch = '\ufeff' then { c with rest := rest, index := c.index + 1 }
    else { c with rest := rest, index := c.index + 1, column := c.column + 1 }

/-- Some characters further. -/
def skip : Nat → Cursor → Cursor
  | 0, c => c
  | n + 1, c => skip n c.next

/-- The longest run of characters with `p` at the cursor, and the place after it. -/
def run (p : Char → Bool) (c : Cursor) : List Char × Cursor :=
  let cs := c.rest.takeWhile p
  (cs, c.skip cs.length)

/-- The place after the longest run of characters with `p`. -/
def skipWhile (p : Char → Bool) (c : Cursor) : Cursor := (c.run p).2

/-- The place after the spaces at the cursor. -/
def skipSpaces (c : Cursor) : Cursor := c.skipWhile (· = ' ')

/-- The place after a comment, if one starts at the cursor. -/
def skipComment (c : Cursor) : Cursor :=
  if c.peek = '#' then c.skipWhile fun ch => !isLineEnd ch else c

/-- A line break at the cursor as it counts in a scalar, and the place after it. All breaks count as
a newline, but for the two Unicode separators, which count as themselves. -/
def lineBreak (c : Cursor) : List Char × Cursor :=
  let ch := c.peek
  if ch = '\r' && c.peekAt 1 = '\n' then (['\n'], c.skip 2)
  else if ch = '\r' || ch = '\n' || ch = '\x85' then (['\n'], c.next)
  else if ch = '\u2028' || ch = '\u2029' then ([ch], c.next)
  else ([], c)

/-- A line of three hyphens or three dots stands at the cursor, which ends any document. -/
def atSeparator (c : Cursor) : Bool :=
  (c.rest.take 3 = ['-', '-', '-'] || c.rest.take 3 = ['.', '.', '.']) && isGapOrEnd (c.peekAt 3)

end Cursor

end OpeningHand.Yaml
