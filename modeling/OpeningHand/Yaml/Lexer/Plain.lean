import OpeningHand.Yaml.Cursor

/-!
# Plain scalars

Scalars without quotes. A plain scalar runs to a colon before a blank, to a comment, in a flow
collection to one of its marks, or to a line that is indented too little. Within it a single line
break counts as a space, and each further one as itself.
-/

namespace OpeningHand.Yaml.Lexer

/-- A mark that ends a plain scalar in a flow collection. -/
def isFlowMark (c : Char) : Bool :=
  c = ',' || c = '[' || c = ']' || c = '\x7b' || c = '\x7d'

/-- A colon ends a plain scalar before `next`. -/
def endsAfterColon (inFlow : Bool) (next : Char) : Bool :=
  isGapOrEnd next || (inFlow && isFlowMark next)

/-- The part of a plain scalar before the next blank. -/
def plainChunk (inFlow : Bool) : List Char → List Char
  | [] => []
  | c :: cs =>
    if isGapOrEnd c || (c = ':' && endsAfterColon inFlow (cs.headD endMark)) ||
        (inFlow && (c = '?' || isFlowMark c)) then []
    else c :: plainChunk inFlow cs

/-- Passes line breaks and the spaces between them, collecting the breaks in `breaks`. No answer if
a document separator follows one. -/
def plainBreaks (breaks : List Char) (c : Cursor) : (fuel : Nat) → Option (List Char) × Cursor
  | 0 => (some breaks, c)
  | fuel + 1 =>
    if c.peek = ' ' then plainBreaks breaks c.next fuel
    else if isBreak c.peek then
      let (br, c) := c.lineBreak
      if c.atSeparator then (none, c) else plainBreaks (breaks ++ br) c fuel
    else (some breaks, c)

/-- What line breaks count as: one newline is a space, but not if more follow. -/
def foldBreaks (first more : List Char) : List Char :=
  if first ≠ ['\n'] then first ++ more else if more.isEmpty then [' '] else more

/-- The blanks after a chunk of a plain scalar as they count within it (none where the scalar ends),
whether they crossed a line, and the place after them. -/
def plainGap (c : Cursor) : List Char × Bool × Cursor :=
  let (spaces, c) := c.run (· = ' ')
  if isBreak c.peek then
    let (first, c) := c.lineBreak
    if c.atSeparator then ([], true, c)
    else
      match plainBreaks [] c (c.rest.length + 1) with
      | (none, c) => ([], true, c)
      | (some more, c) => (foldBreaks first more, true, c)
  else (spaces, false, c)

/-- Reads a plain scalar from a chunk on: `chars` was read and `gap` stands before the chunk. The
answer tells also whether a line was crossed after the last chunk. -/
def plainFrom (inFlow : Bool) (indent : Int) (chars gap : List Char) (crossed : Bool) (c : Cursor) :
    (fuel : Nat) → List Char × Bool × Cursor
  | 0 => (chars, crossed, c)
  | fuel + 1 =>
    let chunk := if c.peek = '#' then [] else plainChunk inFlow c.rest
    if chunk.isEmpty then (chars, crossed, c)
    else
      let (gap', crossed, c) := plainGap (c.skip chunk.length)
      let chars := chars ++ gap ++ chunk
      if gap'.isEmpty || c.peek = '#' || (!inFlow && c.column < indent) then (chars, crossed, c)
      else plainFrom inFlow indent chars gap' crossed c fuel

/-- Reads a plain scalar inside a block that is indented by `indent`. -/
def plainScalar (inFlow : Bool) (indent : Int) (c : Cursor) : List Char × Bool × Cursor :=
  plainFrom inFlow (indent + 1) [] [] false c (c.rest.length + 1)

end OpeningHand.Yaml.Lexer
