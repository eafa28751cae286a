import OpeningHand.Yaml.Lexer.Quoted

/-!
# Block scalars

Scalars that start below a bar or an angle and run as long as the lines are indented. The header may
give the indentation and what becomes of the breaks at the end: by default one is kept. After an
angle, single breaks between lines that start with no blank fold to spaces.
-/

namespace OpeningHand.Yaml.Lexer

/-- What becomes of the breaks at the end of a block scalar. -/
inductive Chomping where
  | strip
  | clip
  | keep
  deriving Repr, DecidableEq

/-- The chomping that a sign in the header asks for. -/
def chompingSign? (c : Char) : Option Chomping :=
  if c = '+' then some .keep else if c = '-' then some .strip else none

/-- The indentation that a digit in the header asks for; zero is an error. -/
def indentDigit? (c : Char) : Option (Except Failure Nat) :=
  if !c.isDigit then none
  else if c = '0' then some (.error badToken)
  else some (.ok (c.toNat - 48))

/-- An indentation at the cursor, if there is one. -/
def readIndent (c : Cursor) : Except Failure (Option Nat × Cursor) :=
  match indentDigit? c.peek with
  | none => .ok (none, c)
  | some (.ok n) => .ok (some n, c.next)
  | some (.error e) => .error e

/-- The header after the bar or angle: a sign and a digit, in either order, both optional, and
nothing else on the line but a comment. -/
def blockHeader (c : Cursor) : Except Failure (Chomping × Option Nat × Cursor) := do
  let (chomping, indent, c) ←
    match chompingSign? c.peek with
    | some chomping => do
      let (indent, c) ← readIndent c.next
      pure (chomping, indent, c)
    | none => do
      let (indent, c) ← readIndent c
      match indent.bind fun _ => chompingSign? c.peek with
      | some chomping => pure (chomping, indent, c.next)
      | none => pure (.clip, indent, c)
  if !isSpaceOrEnd c.peek then throw badToken
  let c := c.skipSpaces.skipComment
  if !isLineEnd c.peek then throw badToken
  return (chomping, indent, c.lineBreak.2)

/-- Passes the blank lines before the first line of text: the breaks, and the largest column reached
in spaces. -/
def blockLead (breaks : List Char) (widest : Nat) (c : Cursor) :
    (fuel : Nat) → List Char × Nat × Cursor
  | 0 => (breaks, widest, c)
  | fuel + 1 =>
    if c.peek = ' ' then
      let c := c.next
      blockLead breaks (max widest c.column) c fuel
    else if isBreak c.peek then
      let (br, c) := c.lineBreak
      blockLead (breaks ++ br) widest c fuel
    else (breaks, widest, c)

/-- Passes up to `indent` spaces. -/
def passIndent (indent : Int) (c : Cursor) : (fuel : Nat) → Cursor
  | 0 => c
  | fuel + 1 => if c.column < indent && c.peek = ' ' then passIndent indent c.next fuel else c

/-- Passes blank lines inside the scalar, collecting their breaks, up to the indentation of the next
line. -/
def blockBreaks (indent : Int) (breaks : List Char) (c : Cursor) : (fuel : Nat) → List Char × Cursor
  | 0 => (breaks, c)
  | fuel + 1 =>
    let c := passIndent indent c (c.rest.length + 1)
    if isBreak c.peek then
      let (br, c) := c.lineBreak
      blockBreaks indent (breaks ++ br) c fuel
    else (breaks, c)

/-- Another line of the scalar starts at the cursor. -/
def atBlockLine (indent : Int) (c : Cursor) : Bool :=
  c.column = indent && c.peek ≠ endMark

/-- A blank that keeps a line from folding. -/
def isLineBlank (c : Char) : Bool := c = ' ' || c = '\t'

/-- Reads the lines of a block scalar after `chars`; `breaks` are the blank lines just passed. The
answer holds the text up to the last line, that line's break, and the breaks after it. -/
def blockLines (isFolded : Bool) (indent : Int) (chars breaks : List Char) (c : Cursor) :
    (fuel : Nat) → List Char × List Char × List Char × Cursor
  | 0 => (chars, [], breaks, c)
  | fuel + 1 =>
    let startsPlain := !isLineBlank c.peek
    let (line, c) := c.run fun ch => !isLineEnd ch
    let (br, c) := c.lineBreak
    let chars := chars ++ breaks ++ line
    let (more, c) := blockBreaks indent [] c (c.rest.length + 1)
    if atBlockLine indent c then
      let joint :=
        if isFolded && br = ['\n'] && startsPlain && !isLineBlank c.peek then
          (if more.isEmpty then [' '] else [])
        else br
      blockLines isFolded indent (chars ++ joint) more c fuel
    else (chars, br, more, c)

/-- Reads the block scalar that starts at the cursor, inside a block that is indented by
`indent`. -/
def blockScalar (isFolded : Bool) (indent : Int) (c : Cursor) :
    Except Failure (List Char × Cursor) := do
  let (chomping, increment, c) ← blockHeader c.next
  let least := max (indent + 1) 1
  let fuel := c.rest.length + 1
  let (column, breaks, c) :=
    match increment with
    | none =>
      let (breaks, widest, c) := blockLead [] 0 c fuel
      (max least widest, breaks, c)
    | some n =>
      let column := least + n - 1
      let (breaks, c) := blockBreaks column [] c fuel
      (column, breaks, c)
  let (chars, last, breaks, c) :=
    if atBlockLine column c then blockLines isFolded column [] breaks c fuel
    else ([], [], breaks, c)
  let tail := match chomping with
    | .strip => []
    | .clip => last
    | .keep => last ++ breaks
  return (chars ++ tail, c)

end OpeningHand.Yaml.Lexer
