import OpeningHand.Yaml.Lexer.Block
import OpeningHand.Yaml.Lexer.Marks

/-!
# The tokens of a YAML text

One token after the other is read off a text. Two things make this more than cutting: the layout
opens and closes block collections, and a key may be known as one only by the colon after it. For
the second, places where a key could have started are remembered; when the colon comes, the token
for the key is put in at that place. A place is forgotten once it lies on an earlier line or more
than 1024 characters back, and it is an error if a key had to be there.

Who reads the tokens takes them one by one, and a token at a remembered place is only handed out
once it is settled whether a key starts there. So of a text at fault the answer is the tokens that
are handed out before the fault is met, and the fault.
-/

namespace OpeningHand.Yaml

/-- A place where a key could have started: how many tokens stand before it, whether a key must
start there, and where it is. -/
structure KeyPlace where
  number : Nat
  isRequired : Bool
  index : Nat
  line : Nat
  column : Nat
  deriving Repr, DecidableEq

/-- The state of reading tokens: the place in the text, the tokens so far, last first, and their
number, the indentation of the open blocks, how many flow collections are open, whether a key may
start here, and the remembered places by the number of open flow collections. -/
structure Lexer where
  cursor : Cursor
  tokens : List Token
  count : Nat
  indent : Int
  outer : List Int
  flow : Int
  allowsKey : Bool
  places : List (Int × KeyPlace)
  isDone : Bool
  deriving Repr, DecidableEq

/-- How many characters a key may have when only the colon after it shows that it is one. -/
def maxKeyLength : Nat := 1024

namespace Lexer

/-- Nothing read yet. -/
def start (cs : List Char) : Lexer :=
  ⟨.start cs, [], 0, -1, [], 0, true, [], false⟩

/-- One more token. -/
def push (t : Token) (l : Lexer) : Lexer :=
  { l with tokens := t :: l.tokens, count := l.count + 1 }

/-- A token put in before the tokens from `number` on. -/
def pushAt (number : Nat) (t : Token) (l : Lexer) : Lexer :=
  let later := l.count - number
  { l with tokens := l.tokens.take later ++ t :: l.tokens.drop later, count := l.count + 1 }

/-- The lexer at another place. -/
def goTo (c : Cursor) (l : Lexer) : Lexer := { l with cursor := c }

/-- A collection is open in flow style. -/
def inFlow (l : Lexer) : Bool := l.flow ≠ 0

/-! ## Layout -/

/-- Closes the blocks that are indented more than `column`. -/
def closeBlocks (column : Int) (l : Lexer) : (outer : List Int) → Lexer
  | [] => { l with outer := [] }
  | indent :: outer =>
    if column < l.indent then
      closeBlocks column { l.push .blockEnd with indent := indent } outer
    else { l with outer := indent :: outer }

/-- Closes the blocks that end before `column`; none end inside a flow collection. -/
def unwind (column : Int) (l : Lexer) : Lexer :=
  if l.inFlow then l else closeBlocks column l l.outer

/-- Opens a block at a column that is indented more than the current one, with `t` before the
tokens from `number` on. -/
def openBlock (column : Nat) (number : Nat) (t : Token) (l : Lexer) : Lexer :=
  if l.indent < column then
    { l.pushAt number t with outer := l.indent :: l.outer, indent := column }
  else l

/-! ## Places of keys -/

/-- Forgets the place remembered at the current depth; an error if a key must start there. -/
def dropPlace (l : Lexer) : Except Failure Lexer :=
  match l.places.lookup l.flow with
  | none => .ok l
  | some place =>
    if place.isRequired then .error badToken
    else .ok { l with places := l.places.filter (·.1 ≠ l.flow) }

/-- A remembered place that can no longer be a key. -/
def isStale (l : Lexer) (place : KeyPlace) : Bool :=
  place.line ≠ l.cursor.line || maxKeyLength < l.cursor.index - place.index

/-- Forgets all places that can no longer be keys; an error if a key must start at one. -/
def dropStale (l : Lexer) : Except Failure Lexer :=
  if l.places.any fun p => l.isStale p.2 && p.2.isRequired then .error badToken
  else .ok { l with places := l.places.filter fun p => !l.isStale p.2 }

/-- Remembers the current place, if a key may start here. -/
def savePlace (l : Lexer) : Except Failure Lexer :=
  if l.allowsKey then do
    let c := l.cursor
    let isRequired := !l.inFlow && l.indent = c.column
    let l ← l.dropPlace
    return { l with places := (l.flow, ⟨l.count, isRequired, c.index, c.line, c.column⟩) :: l.places }
  else .ok l

/-! ## Tokens -/

/-- Passes spaces, comments and line breaks. A key may start on a new line of a block. -/
def passBlanks (l : Lexer) : (fuel : Nat) → Lexer
  | 0 => l
  | fuel + 1 =>
    let c := l.cursor.skipSpaces.skipComment
    if isBreak c.peek then
      passBlanks { l with cursor := c.lineBreak.2, allowsKey := l.allowsKey || !l.inFlow } fuel
    else l.goTo c

/-- The end of the text. -/
def readEnd (l : Lexer) : Except Failure Lexer := do
  let l ← (l.unwind (-1)).dropPlace
  return { l.push .streamEnd with allowsKey := false, places := [], isDone := true }

/-- A directive. -/
def readDirective (l : Lexer) : Except Failure Lexer := do
  let l ← (l.unwind (-1)).dropPlace
  let (d, c) ← directive l.cursor
  return { (l.push (.directive d)).goTo c with allowsKey := false }

/-- The line that starts or ends a document. -/
def readSeparator (t : Token) (l : Lexer) : Except Failure Lexer := do
  let l ← (l.unwind (-1)).dropPlace
  return { (l.push t).goTo (l.cursor.skip 3) with allowsKey := false }

/-- The start of a flow collection. -/
def readFlowStart (t : Token) (l : Lexer) : Except Failure Lexer := do
  let l ← l.savePlace
  return { (l.push t).goTo l.cursor.next with flow := l.flow + 1, allowsKey := true }

/-- The end of a flow collection. -/
def readFlowEnd (t : Token) (l : Lexer) : Except Failure Lexer := do
  let l ← l.dropPlace
  return { (l.push t).goTo l.cursor.next with flow := l.flow - 1, allowsKey := false }

/-- A comma in a flow collection. -/
def readFlowEntry (l : Lexer) : Except Failure Lexer := do
  let l ← l.dropPlace
  return { (l.push .flowEntry).goTo l.cursor.next with allowsKey := true }

/-- The hyphen of a block sequence. -/
def readBlockEntry (l : Lexer) : Except Failure Lexer := do
  if !l.inFlow && !l.allowsKey then throw badToken
  let l := if l.inFlow then l else l.openBlock l.cursor.column l.count .blockSequenceStart
  let l ← l.dropPlace
  return { (l.push .blockEntry).goTo l.cursor.next with allowsKey := true }

/-- The question mark before a key. -/
def readKey (l : Lexer) : Except Failure Lexer := do
  if !l.inFlow && !l.allowsKey then throw badToken
  let l := if l.inFlow then l else l.openBlock l.cursor.column l.count .blockMappingStart
  let l ← l.dropPlace
  return { (l.push .key).goTo l.cursor.next with allowsKey := !l.inFlow }

/-- The colon before a value. If a key could have started at the remembered place, it did. -/
def readValue (l : Lexer) : Except Failure Lexer :=
  match l.places.lookup l.flow with
  | some place =>
    let l := { l with places := l.places.filter (·.1 ≠ l.flow) }
    let l := l.pushAt place.number .key
    let l := if l.inFlow then l else l.openBlock place.column place.number .blockMappingStart
    .ok { (l.push .value).goTo l.cursor.next with allowsKey := false }
  | none =>
    if !l.inFlow && !l.allowsKey then .error badToken
    else
      let l := if l.inFlow then l else l.openBlock l.cursor.column l.count .blockMappingStart
      .ok { (l.push .value).goTo l.cursor.next with allowsKey := !l.inFlow }

/-- A token that may be a key or stand before one, and the place after it. -/
def readMark (read : Cursor → Except Failure (Token × Cursor)) (l : Lexer) : Except Failure Lexer := do
  let l ← l.savePlace
  let (t, c) ← read l.cursor
  return { (l.push t).goTo c with allowsKey := false }

/-- An anchor or an alias. -/
def readName (make : List Char → Token) (c : Cursor) : Except Failure (Token × Cursor) := do
  let (name, c) ← anchorName c
  return (make name, c)

/-- The token of a quoted scalar with these points. -/
def quotedToken (ps : List Text.Point) : Token :=
  match Text.chars? ps with
  | some chars => .scalar chars false
  | none => .torn ps

/-- A quoted scalar. -/
def readQuoted (isDouble : Bool) (c : Cursor) : Except Failure (Token × Cursor) := do
  let (ps, c) ← quotedScalar isDouble c
  return (quotedToken ps, c)

/-- A block scalar. -/
def readBlock (isFolded : Bool) (l : Lexer) : Except Failure Lexer := do
  let l ← l.dropPlace
  let (chars, c) ← blockScalar isFolded l.indent l.cursor
  return { (l.push (.scalar chars false)).goTo c with allowsKey := true }

/-- A plain scalar. -/
def readPlain (l : Lexer) : Except Failure Lexer := do
  let l ← l.savePlace
  let (chars, crossed, c) := plainScalar l.inFlow l.indent l.cursor
  return { (l.push (.scalar chars true)).goTo c with allowsKey := crossed }

/-- A plain scalar may start at the cursor: the marks of other tokens cannot start one, but for a
hyphen, and in blocks a question mark or colon, before something else than a blank. -/
def atPlain (l : Lexer) : Bool :=
  let ch := l.cursor.peek
  let next := l.cursor.peekAt 1
  !(isGapOrEnd ch || isFlowMark ch || "-?:#&*!|>'\"%@`".toList.contains ch) ||
    (!isGapOrEnd next && (ch = '-' || (!l.inFlow && (ch = '?' || ch = ':'))))

/-- Reads the next token and those the layout adds before it. -/
def readToken (l : Lexer) : Except Failure Lexer := do
  let c := if l.cursor.index = 0 && l.cursor.peek = '\ufeff' then l.cursor.next else l.cursor
  let l ← ((l.goTo c).passBlanks (l.cursor.rest.length + 1)).dropStale
  let c := l.cursor
  let l := l.unwind c.column
  let ch := c.peek
  let beforeGap := isGapOrEnd (c.peekAt 1)
  if ch = endMark then l.readEnd
  else if ch = '%' && c.column = 0 then l.readDirective
  else if ch = '-' && c.column = 0 && c.atSeparator then l.readSeparator .documentStart
  else if ch = '.' && c.column = 0 && c.atSeparator then l.readSeparator .documentEnd
  else if ch = '[' then l.readFlowStart .flowSequenceStart
  else if ch = '\x7b' then l.readFlowStart .flowMappingStart
  else if ch = ']' then l.readFlowEnd .flowSequenceEnd
  else if ch = '\x7d' then l.readFlowEnd .flowMappingEnd
  else if ch = ',' then l.readFlowEntry
  else if ch = '-' && beforeGap then l.readBlockEntry
  else if ch = '?' && (l.inFlow || beforeGap) then l.readKey
  else if ch = ':' && (l.inFlow || beforeGap) then l.readValue
  else if ch = '*' then l.readMark (readName .alias)
  else if ch = '&' then l.readMark (readName .anchor)
  else if ch = '!' then l.readMark tag
  else if ch = '|' && !l.inFlow then l.readBlock false
  else if ch = '>' && !l.inFlow then l.readBlock true
  else if ch = '\'' then l.readMark (readQuoted false)
  else if ch = '"' then l.readMark (readQuoted true)
  else if l.atPlain then l.readPlain
  else .error badToken

/-- The tokens that are settled: those before the first remembered place. -/
def settled (l : Lexer) : List Token :=
  let number := l.places.foldl (fun n p => min n p.2.number) l.count
  (l.tokens.drop (l.count - number)).reverse

end Lexer

/-- The tokens handed out of a text, and the fault met after them, if there is one. -/
structure Tokens where
  tokens : List Token
  fault : Option Failure

namespace Tokens

/-- Reads tokens up to the end of the text or the first fault. -/
def readFrom (l : Lexer) : (fuel : Nat) → Tokens
  | 0 => ⟨l.tokens.reverse, some Lexer.badToken⟩
  | fuel + 1 =>
    if l.isDone then ⟨l.tokens.reverse, none⟩
    else
      match l.readToken >>= Lexer.dropStale with
      | .ok l => readFrom l fuel
      | .error e => ⟨l.settled, some e⟩

/-- The tokens of a text. -/
def ofText (cs : List Char) : Tokens :=
  readFrom (.start cs) (cs.length + 2)

end Tokens

end OpeningHand.Yaml
