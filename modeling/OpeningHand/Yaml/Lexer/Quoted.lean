import OpeningHand.Failure
import OpeningHand.Text.Point
import OpeningHand.Yaml.Lexer.Plain

/-!
# Quoted scalars

Scalars between apostrophes, where an apostrophe is written twice, or between double quotes, where
a backslash starts an escape. Line breaks fold as in plain scalars, and an escaped break joins the
lines. An escape by number may ask for half of a surrogate pair; two such escapes side by side are
two halves and no pair.
-/

namespace OpeningHand.Yaml.Lexer

/-- The failure of a text whose tokens cannot be told. -/
def badToken : Failure := .yaml .tokens

/-- The character for a one-letter escape. -/
def escaped? (c : Char) : Option Char :=
  match c with
  | '0' => some '\x00'
  | 'a' => some '\x07'
  | 'b' => some '\x08'
  | 't' => some '\t'
  | '\t' => some '\t'
  | 'n' => some '\n'
  | 'v' => some '\x0b'
  | 'f' => some '\x0c'
  | 'r' => some '\r'
  | 'e' => some '\x1b'
  | ' ' => some ' '
  | '"' => some '"'
  | '\\' => some '\\'
  | '/' => some '/'
  | 'N' => some '\x85'
  | '_' => some '\xa0'
  | 'L' => some '\u2028'
  | 'P' => some '\u2029'
  | _ => none

/-- The number of hexadecimal digits after an escape's letter. -/
def escapeWidth? (c : Char) : Option Nat :=
  match c with
  | 'x' => some 2
  | 'u' => some 4
  | 'U' => some 8
  | _ => none

/-- The point with a number; a number beyond all machine words is told apart. -/
def pointOfCode (n : Nat) : Except Failure Text.Point :=
  if 0x7fffffff < n then .error (.lapse .tooLarge)
  else if 0x10ffff < n then .error (.value .noCharacter)
  else .ok (.ofNat n)

/-- Passes breaks and the blanks around them, collecting the breaks. A document separator is an
error here. -/
def quotedBreaks (breaks : List Char) (c : Cursor) : (fuel : Nat) → Except Failure (List Char × Cursor)
  | 0 => .ok (breaks, c)
  | fuel + 1 =>
    if c.atSeparator then .error badToken
    else
      let c := c.skipWhile fun ch => ch = ' ' || ch = '\t'
      if isBreak c.peek then
        let (br, c) := c.lineBreak
        quotedBreaks (breaks ++ br) c fuel
      else .ok (breaks, c)

/-- The escape after a backslash at the cursor. -/
def escape (c : Cursor) : Except Failure (List Text.Point × Cursor) :=
  let ch := c.peek
  match escaped? ch, escapeWidth? ch with
  | some e, _ => .ok ([.char e], c.next)
  | none, some width =>
    let c := c.next
    let digits := c.rest.take width
    if digits.length = width && digits.all isHexDigit then do
      return ([← pointOfCode (hexValue digits)], c.skip width)
    else .error badToken
  | none, none =>
    if isBreak ch then do
      let c := c.lineBreak.2
      let (breaks, c) ← quotedBreaks [] c (c.rest.length + 1)
      return (breaks.map .char, c)
    else .error badToken

/-- Blanks inside quotes as they count, and the place after them. -/
def quotedGap (c : Cursor) : Except Failure (List Char × Cursor) :=
  let (blanks, c) := c.run fun ch => ch = ' ' || ch = '\t'
  if c.peek = endMark then .error badToken
  else if isBreak c.peek then do
    let (first, c) := c.lineBreak
    let (more, c) ← quotedBreaks [] c (c.rest.length + 1)
    return (foldBreaks first more, c)
  else .ok (blanks, c)

/-- A character that stands for itself inside quotes. -/
def isQuotedChar (isDouble : Bool) (c : Char) : Bool :=
  !isGapOrEnd c && (if isDouble then c ≠ '"' && c ≠ '\\' else c ≠ '\'')

/-- Reads a quoted scalar up to its closing quote, after `ps`. -/
def quotedFrom (isDouble : Bool) (ps : List Text.Point) (c : Cursor) :
    (fuel : Nat) → Except Failure (List Text.Point × Cursor)
  | 0 => .error badToken
  | fuel + 1 =>
    let (chunk, c) := c.run (isQuotedChar isDouble)
    let ps := ps ++ chunk.map .char
    let ch := c.peek
    if isGapOrEnd ch then do
      let (gap, c) ← quotedGap c
      quotedFrom isDouble (ps ++ gap.map .char) c fuel
    else if isDouble && ch = '\\' then do
      let (e, c) ← escape c.next
      quotedFrom isDouble (ps ++ e) c fuel
    else if !isDouble && c.peekAt 1 = '\'' then
      quotedFrom isDouble (ps ++ [.char '\'']) (c.skip 2) fuel
    else .ok (ps, c.next)

/-- Reads the quoted scalar that starts at the cursor. -/
def quotedScalar (isDouble : Bool) (c : Cursor) : Except Failure (List Text.Point × Cursor) :=
  quotedFrom isDouble [] c.next (c.rest.length + 1)

end OpeningHand.Yaml.Lexer
