import OpeningHand.Yaml.Lexer.Quoted
import OpeningHand.Yaml.Token

/-!
# Anchors, tags and directives

The marks that stand before a node or before a document: an anchor or alias with its name, a tag
with its handle and suffix, and a directive with its value. A tag's suffix is written with the
characters of an address, any other character as the bytes of its UTF-8 form after percent signs.
-/

namespace OpeningHand.Yaml.Lexer

/-- A character that may follow an anchor's name. -/
def endsAnchor (c : Char) : Bool :=
  isGapOrEnd c || "?:,]\x7d%@`".toList.contains c

/-- The name of an anchor or alias, whose sign is at the cursor. -/
def anchorName (c : Cursor) : Except Failure (List Char × Cursor) :=
  let (name, c) := c.next.run isWordChar
  if name.isEmpty || !endsAnchor c.peek then .error badToken else .ok (name, c)

/-! ## Tags -/

/-- A character of an address that is written as itself. -/
def isAddressChar (c : Char) : Bool :=
  c.isAlphanum || "-;/?:@&=+$,_.!~*'()[]".toList.contains c

/-- The bytes written after percent signs at the cursor. -/
def addressBytes (bytes : List UInt8) (c : Cursor) : (fuel : Nat) → Except Failure (List UInt8 × Cursor)
  | 0 => .ok (bytes, c)
  | fuel + 1 =>
    if c.peek = '%' then
      let digits := c.next.rest.take 2
      if digits.length = 2 && digits.all isHexDigit then
        addressBytes (bytes ++ [UInt8.ofNat (hexValue digits)]) (c.skip 3) fuel
      else .error badToken
    else .ok (bytes, c)

/-- Reads an address after `chars`. -/
def addressFrom (chars : List Char) (c : Cursor) : (fuel : Nat) → Except Failure (List Char × Cursor)
  | 0 => .ok (chars, c)
  | fuel + 1 =>
    if c.peek = '%' then do
      let (bytes, c) ← addressBytes [] c (c.rest.length + 1)
      match Text.decodeUtf8 bytes with
      | .ok cs => addressFrom (chars ++ cs) c fuel
      | .error _ => .error badToken
    else if c.peek ≠ endMark && isAddressChar c.peek then addressFrom (chars ++ [c.peek]) c.next fuel
    else .ok (chars, c)

/-- Reads an address, which is not empty. -/
def address (c : Cursor) : Except Failure (List Char × Cursor) :=
  if c.peek = '%' || (c.peek ≠ endMark && isAddressChar c.peek) then
    addressFrom [] c (c.rest.length + 1)
  else .error badToken

/-- Reads a handle: an exclamation mark, alone before a space, or a word between two of them. -/
def tagHandle (c : Cursor) : Except Failure (List Char × Cursor) :=
  if c.peek ≠ '!' then .error badToken
  else if c.peekAt 1 = ' ' then .ok (['!'], c.next)
  else
    let (word, after) := c.next.run isWordChar
    if after.peek = '!' then .ok ('!' :: word ++ ['!'], after.next) else .error badToken

/-- Reads the tag that starts at the cursor. -/
def tag (c : Cursor) : Except Failure (Token × Cursor) := do
  let ch := c.peekAt 1
  let (token, c) ←
    if ch = '<' then do
      let (suffix, c) ← address (c.skip 2)
      if c.peek ≠ '>' then throw badToken
      pure (Token.tag none suffix, c.next)
    else if isGapOrEnd ch then pure (Token.tag none ['!'], c.next)
    else if ((c.next.run fun ch => !isSpaceOrEnd ch).1).contains '!' then do
      let (handle, c) ← tagHandle c
      let (suffix, c) ← address c
      pure (Token.tag (some handle) suffix, c)
    else do
      let (suffix, c) ← address c.next
      pure (Token.tag (some ['!']) suffix, c)
  if !isSpaceOrEnd c.peek then throw badToken
  return (token, c)

/-! ## Directives -/

/-- Reads digits, at least one and no more than a number may have. -/
def versionNumber (c : Cursor) : Except Failure (Nat × Cursor) :=
  let (digits, c) := c.run Char.isDigit
  if digits.isEmpty then .error badToken
  else if Number.maxDigits < digits.length then
    .error (.value (.whole (.tooManyDigits digits.length)))
  else .ok (Text.decimalValue digits, c)

/-- Reads a version: two numbers with a point between. -/
def versionValue (c : Cursor) : Except Failure (Directive × Cursor) := do
  let (major, c) ← versionNumber c.skipSpaces
  if c.peek ≠ '.' then throw badToken
  let (_, c) ← versionNumber c.next
  if !isSpaceOrEnd c.peek then throw badToken
  return (.version major, c)

/-- Reads the declaration of a handle: the handle, a space, what it stands for. -/
def handleValue (c : Cursor) : Except Failure (Directive × Cursor) := do
  let (handle, c) ← tagHandle c.skipSpaces
  if c.peek ≠ ' ' then throw badToken
  let (lead, c) ← address c.skipSpaces
  if !isSpaceOrEnd c.peek then throw badToken
  return (.tagHandle handle lead, c)

/-- Reads the directive that starts at the cursor, with the rest of its line. -/
def directive (c : Cursor) : Except Failure (Directive × Cursor) := do
  let (name, c) := c.next.run isWordChar
  if name.isEmpty || !isSpaceOrEnd c.peek then throw badToken
  let (value, c) ←
    if name = "YAML".toList then versionValue c
    else if name = "TAG".toList then handleValue c
    else pure (.other, c.skipWhile fun ch => !isLineEnd ch)
  let c := c.skipSpaces.skipComment
  if !isLineEnd c.peek then throw badToken
  return (value, c.lineBreak.2)

end OpeningHand.Yaml.Lexer
