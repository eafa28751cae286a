import OpeningHand.Yaml.Lexer
import OpeningHand.Yaml.Tag

/-!
# Nodes

The tree that the tokens of a document make: scalars, lists of nodes, and lists of pairs of nodes,
each with its tag. The tokens decide step by step, so the first fault met is the answer, be it one of
the tokens' order, of an anchor, or of the text beyond.

An alias names a node that stands somewhere else, and the two places share it. A tree has no shared
nodes: an alias stands for a copy here. A copy is as good as the node itself as long as nobody can
see the one change when the other does. Two things are seen:

* A node that an alias inside it names is part of itself, and no tree is (`hasBack`). The alias is
  kept as a reference back, and replaced by copies for a few levels.
* Values are made in place: a map that takes in what its merge keys offer holds it from then on, and
  loses the merge keys; its default key becomes a text. Where this could be seen at another place of
  the node (`isKnotted`), what the text stands for is not described here, and `Failure.outside` says
  so.
-/

namespace OpeningHand.Yaml

/-- A node of a document; a `torn` scalar is one whose text holds half of a surrogate pair, and `back`
is an alias for a node that the alias is part of. -/
inductive Node where
  | scalar (tag : Tag) (chars : List Char)
  | torn (tag : Tag) (points : List Text.Point)
  | list (tag : Tag) (items : List Node)
  | map (tag : Tag) (pairs : List (Node × Node))
  | back (anchor : List Char)
  deriving Repr, BEq, Inhabited

/-- A node at a place of the document, which floating-point numbers keep. -/
def Node.placed (place : Nat) : Node → Node
  | .scalar (.real _) chars => .scalar (.real place) chars
  | .map (.real _) pairs => .map (.real place) pairs
  | n => n

/-- What is left of the tokens, the anchors so far (with no node while the node is being read), and
what the handles of tags stand for. -/
structure Composer where
  rest : List Token
  fault : Option Failure
  anchors : List (List Char × Option Node)
  handles : List (List Char × List Char)

/-- A step that reads tokens. -/
abbrev Compose (α : Type) := StateT Composer (Except Failure) α

namespace Compose

/-- The failure of tokens in an order that no document has. -/
def badOrder : Failure := .yaml .grammar

/-- The failure of anchors, aliases and numbers of documents. -/
def badReference : Failure := .yaml .composition

/-- The next token, which is handed out only if no fault comes before it. -/
def peek : Compose Token := do
  let c ← get
  match c.rest with
  | t :: _ => return t
  | [] => throw (c.fault.getD badOrder)

/-- Takes the next token. -/
def take : Compose Unit := modify fun c => { c with rest := c.rest.tail }

/-- The empty scalar, where a node could stand and none does. -/
def emptyScalar : Node := .scalar .null []

/-- What stands before a node. -/
structure Marks where
  anchor : Option (List Char)
  tag : Option (List Char)

/-- The full name of a tag. -/
def tagName (handle : Option (List Char)) (suffix : List Char) : Compose (List Char) := do
  match handle with
  | none => return suffix
  | some handle =>
    match (← get).handles.lookup handle with
    | some lead => return lead ++ suffix
    | none => throw badOrder

/-- Reads an anchor and a tag, in either order, each at most once. -/
def marks : Compose Marks := do
  match ← peek with
  | .anchor name => do
    take
    match ← peek with
    | .tag handle suffix => do
      take
      return ⟨some name, some (← tagName handle suffix)⟩
    | _ => return ⟨some name, none⟩
  | .tag handle suffix => do
    take
    match ← peek with
    | .anchor name => do
      take
      return ⟨some name, some (← tagName handle suffix)⟩
    | _ => return ⟨none, some (← tagName handle suffix)⟩
  | _ => return ⟨none, none⟩

/-- The tag of a scalar: as written, or by the form if the form may tell. -/
def scalarTag (tag : Option (List Char)) (isPlain : Bool) (chars : List Char) : Tag :=
  match tag with
  | some name => if name = ['!'] then .ofPlain chars else .ofName name
  | none => if isPlain then .ofPlain chars else .text

/-- The tag of a collection, or of a torn scalar, which has no form: as written, or that of its
shape. -/
def collectionTag (tag : Option (List Char)) (shape : Tag) : Tag :=
  match tag with
  | some name => if name = ['!'] then shape else .ofName name
  | none => shape

/-- Takes note of an anchor, which no other node of the document may have. -/
def openAnchor (anchor : Option (List Char)) : Compose Unit := do
  match anchor with
  | none => return
  | some name =>
    if ((← get).anchors.lookup name).isSome then throw badReference
    else modify fun c => { c with anchors := (name, none) :: c.anchors }

/-- Gives an anchor its node, whose place is told by how many tokens are left. -/
def close (anchor : Option (List Char)) (n : Node) : Compose Node := do
  let n := n.placed (← get).rest.length
  match anchor with
  | none => return n
  | some name =>
    modify fun c => { c with anchors := c.anchors.map fun e => if e.1 = name then (name, some n) else e }
    return n

/-- The node an alias stands for. -/
def aliased (name : List Char) : Compose Node := do
  match (← get).anchors.lookup name with
  | none => throw badReference
  | some none => return .back name
  | some (some n) => return n

/-- A token after which a key or value of a block is empty. -/
def endsBlockPart (t : Token) : Bool :=
  t = .key || t = .value || t = .blockEnd

mutual

/-- Reads a node. Block collections are allowed if `block`, and a sequence without an indentation
of its own if `indentless`. -/
def node (block indentless : Bool) : (fuel : Nat) → Compose Node
  | 0 => throw badOrder
  | fuel + 1 => do
    match ← peek with
    | .alias name => do
      take
      aliased name
    | _ => do
      let m ← marks
      let t ← peek
      let finish (n : Node) : Compose Node := close m.anchor n
      match t with
      | .scalar chars isPlain => do
        take
        openAnchor m.anchor
        finish (.scalar (scalarTag m.tag isPlain chars) chars)
      | .torn points => do
        take
        openAnchor m.anchor
        finish (.torn (collectionTag m.tag .text) points)
      | .flowSequenceStart => do
        openAnchor m.anchor
        take
        finish (.list (collectionTag m.tag .list) (← flowItems true fuel))
      | .flowMappingStart => do
        openAnchor m.anchor
        take
        finish (.map (collectionTag m.tag .map) (← flowPairs true fuel))
      | _ => do
        if indentless && t = .blockEntry then
          openAnchor m.anchor
          finish (.list (collectionTag m.tag .list) (← blockItems true fuel))
        else if block && t = .blockSequenceStart then
          openAnchor m.anchor
          take
          finish (.list (collectionTag m.tag .list) (← blockItems false fuel))
        else if block && t = .blockMappingStart then
          openAnchor m.anchor
          take
          finish (.map (collectionTag m.tag .map) (← blockPairs fuel))
        else if m.anchor.isSome || m.tag.isSome then
          openAnchor m.anchor
          finish (.scalar (scalarTag m.tag true []) [])
        else throw badOrder

/-- Reads the items of a block sequence. A sequence without an indentation of its own ends at the
first token that is no hyphen, any other at the end of its block. -/
def blockItems (indentless : Bool) : (fuel : Nat) → Compose (List Node)
  | 0 => throw badOrder
  | fuel + 1 => do
    match ← peek with
    | .blockEntry => do
      take
      let t ← peek
      let item ←
        if t = .blockEntry || t = .blockEnd || (indentless && endsBlockPart t) then pure emptyScalar
        else node true false fuel
      return item :: (← blockItems indentless fuel)
    | t => do
      if indentless then return []
      else if t = .blockEnd then
        take
        return []
      else throw badOrder

/-- Reads the pairs of a block mapping up to the end of its block. -/
def blockPairs : (fuel : Nat) → Compose (List (Node × Node))
  | 0 => throw badOrder
  | fuel + 1 => do
    match ← peek with
    | .key => do
      take
      let key ← if endsBlockPart (← peek) then pure emptyScalar else node true true fuel
      let value ←
        match ← peek with
        | .value => do
          take
          if endsBlockPart (← peek) then pure emptyScalar else node true true fuel
        | _ => pure emptyScalar
      return (key, value) :: (← blockPairs fuel)
    | .blockEnd => do
      take
      return []
    | _ => throw badOrder

/-- Reads the value of a pair in a flow collection that ends with `closing`. -/
def flowValue (closing : Token) : (fuel : Nat) → Compose Node
  | 0 => throw badOrder
  | fuel + 1 => do
    match ← peek with
    | .value => do
      take
      let t ← peek
      if t = .flowEntry || t = closing then pure emptyScalar else node false false fuel
    | _ => pure emptyScalar

/-- Reads a pair in a flow collection, after its question mark or where one was put in. -/
def flowPair (closing : Token) : (fuel : Nat) → Compose (Node × Node)
  | 0 => throw badOrder
  | fuel + 1 => do
    let t ← peek
    let key ←
      if t = .value || t = .flowEntry || t = closing then pure emptyScalar
      else node false false fuel
    return (key, ← flowValue closing fuel)

/-- Reads the items of a flow sequence. A comma stands before every item but the first; a pair is a
mapping of its own. -/
def flowItems (isFirst : Bool) : (fuel : Nat) → Compose (List Node)
  | 0 => throw badOrder
  | fuel + 1 => do
    if (← peek) = .flowSequenceEnd then
      take
      return []
    if !isFirst then
      if (← peek) = .flowEntry then take else throw badOrder
    match ← peek with
    | .key => do
      take
      let pair ← flowPair .flowSequenceEnd fuel
      return .map .map [pair] :: (← flowItems false fuel)
    | .flowSequenceEnd => do
      take
      return []
    | _ => do
      let item ← node false false fuel
      return item :: (← flowItems false fuel)

/-- Reads the pairs of a flow mapping. A comma stands before every pair but the first; a node alone
is a key with no value. -/
def flowPairs (isFirst : Bool) : (fuel : Nat) → Compose (List (Node × Node))
  | 0 => throw badOrder
  | fuel + 1 => do
    if (← peek) = .flowMappingEnd then
      take
      return []
    if !isFirst then
      if (← peek) = .flowEntry then take else throw badOrder
    match ← peek with
    | .key => do
      take
      let pair ← flowPair .flowMappingEnd fuel
      return pair :: (← flowPairs false fuel)
    | .flowMappingEnd => do
      take
      return []
    | _ => do
      let key ← node false false fuel
      return (key, emptyScalar) :: (← flowPairs false fuel)

end

/-! ## Documents -/

/-- The handles that every document knows. -/
def ownHandles : List (List Char × List Char) :=
  [(['!'], ['!']), (['!', '!'], Tag.lead.toList)]

/-- Reads directives: at most one version, which must be of the first kind, and handles, each
declared once. -/
def directives (hasVersion : Bool) (handles : List (List Char × List Char)) :
    (fuel : Nat) → Compose (List (List Char × List Char))
  | 0 => throw badOrder
  | fuel + 1 => do
    match ← peek with
    | .directive d => do
      take
      match d with
      | .version major =>
        if hasVersion || major ≠ 1 then throw badOrder else directives true handles fuel
      | .tagHandle handle lead =>
        if (handles.lookup handle).isSome then throw badOrder
        else directives hasVersion ((handle, lead) :: handles) fuel
      | .other => directives hasVersion handles fuel
    | _ => return handles

/-- Passes the lines that end documents. -/
def passEnds : (fuel : Nat) → Compose Unit
  | 0 => return
  | fuel + 1 => do
    match ← peek with
    | .documentEnd => do
      take
      passEnds fuel
    | _ => return

/-- Reads the start of a document after directives; no answer at the end of the text. -/
def documentStart (fuel : Nat) : Compose Bool := do
  passEnds fuel
  match ← peek with
  | .streamEnd => return false
  | _ => do
    let handles ← directives false [] fuel
    match ← peek with
    | .documentStart => do
      take
      modify fun c => { c with handles := handles ++ ownHandles }
      return true
    | _ => throw badOrder

/-- Reads the node of a document that was started by a line of its own. -/
def documentContent (fuel : Nat) : Compose Node := do
  match ← peek with
  | .directive _ => return emptyScalar
  | .documentStart => return emptyScalar
  | .documentEnd => return emptyScalar
  | .streamEnd => return emptyScalar
  | _ => node true false fuel

/-- Reads the only document of a text; no answer for a text without one. A second document is an
error. -/
def onlyDocument (fuel : Nat) : Compose (Option Node) := do
  let root ←
    match ← peek with
    | .streamEnd => pure none
    | .directive _ | .documentStart => do
      if ← documentStart fuel then pure (some (← documentContent fuel)) else pure none
    | _ => do
      modify fun c => { c with handles := ownHandles }
      pure (some (← node true false fuel))
  if root.isSome then
    match ← peek with
    | .documentEnd => take
    | _ => pure ()
  if ← documentStart fuel then throw badReference
  return root

end Compose

/-! ## Nodes of a text -/

namespace Node

mutual

/-- An alias inside the node names the node or one around it. -/
def hasBack : Node → Bool
  | .scalar _ _ => false
  | .torn _ _ => false
  | .list _ items => hasBackItems items
  | .map _ pairs => hasBackPairs pairs
  | .back _ => true

/-- `hasBack` on items. -/
def hasBackItems : List Node → Bool
  | [] => false
  | n :: ns => n.hasBack || hasBackItems ns

/-- `hasBack` on pairs. -/
def hasBackPairs : List (Node × Node) → Bool
  | [] => false
  | (k, v) :: ps => k.hasBack || v.hasBack || hasBackPairs ps

end

/-- The tag of a node. -/
def tag : Node → Tag
  | .scalar t _ => t
  | .torn t _ => t
  | .list t _ => t
  | .map t _ => t
  | .back _ => .other

/-- A map with merge keys. -/
def takesIn : Node → Bool
  | .map _ pairs => pairs.any fun p => p.1.tag = .merge
  | _ => false

mutual

/-- Were some of the node shared, the values made of one place could be seen at another: it holds a
default key, or a merge key for a node that is part of itself, or a list of single pairs with a map
that takes others in. -/
def isKnotted : Node → Bool
  | .scalar t _ => t = .value
  | .torn t _ => t = .value
  | .list t items =>
    t = .value || ((t = .omap || t = .pairs) && items.any takesIn) || isKnottedItems items
  | .map t pairs => t = .value || isKnottedPairs pairs
  | .back _ => false

/-- `isKnotted` on items. -/
def isKnottedItems : List Node → Bool
  | [] => false
  | n :: ns => n.isKnotted || isKnottedItems ns

/-- `isKnotted` on pairs. -/
def isKnottedPairs : List (Node × Node) → Bool
  | [] => false
  | (k, v) :: ps =>
    k.isKnotted || v.isKnotted || (k.tag = .merge && v.hasBack) || isKnottedPairs ps

end

mutual

/-- The node with other nodes in place of its references back. -/
def unroll (replace : List Char → Node) : Node → Node
  | .scalar tag chars => .scalar tag chars
  | .torn tag points => .torn tag points
  | .list tag items => .list tag (unrollItems replace items)
  | .map tag pairs => .map tag (unrollPairs replace pairs)
  | .back anchor => replace anchor

/-- `unroll` on items. -/
def unrollItems (replace : List Char → Node) : List Node → List Node
  | [] => []
  | n :: ns => unroll replace n :: unrollItems replace ns

/-- `unroll` on pairs. -/
def unrollPairs (replace : List Char → Node) : List (Node × Node) → List (Node × Node)
  | [] => []
  | (k, v) :: ps => (unroll replace k, unroll replace v) :: unrollPairs replace ps

end

/-- The node of an anchor, its references back replaced by the nodes they name, and so on for so many
levels; below them stands the empty scalar. A node that is part of itself goes on for ever, so what
is below the last level is not what the document holds. -/
def ofAnchor (anchors : List (List Char × Option Node)) (anchor : List Char) : (levels : Nat) → Node
  | 0 => Compose.emptyScalar
  | levels + 1 =>
    match anchors.lookup anchor with
    | some (some n) => n.unroll fun a => ofAnchor anchors a levels
    | _ => Compose.emptyScalar

/-- For how many levels references back are replaced. The checks of a document's shape go no deeper
than this; nothing is said of what a node that is part of itself stands for beyond them. -/
def backLevels : Nat := 5

/-- What the tokens of a text make: the node of its only document, if there is one, the anchors, and
whether an alias was among the tokens. -/
structure Composition where
  root : Option Node
  anchors : List (List Char × Option Node)
  aliased : Bool

/-- The token is an alias. -/
def isAlias : Token → Bool
  | .alias _ => true
  | _ => false

/-- Composes the only document of a text. -/
def compose (cs : List Char) : Except Failure Composition :=
  if !cs.all isTextChar then .error (.yaml .characters)
  else
    let ts := Tokens.ofText cs
    match (Compose.onlyDocument (8 * ts.tokens.length + 8)).run ⟨ts.tokens, ts.fault, [], []⟩ with
    | .ok (root, c) => .ok ⟨root, c.anchors, ts.tokens.any isAlias⟩
    | .error e => .error e

/-- The node that a document stands for, as a tree. -/
def Composition.tree (c : Composition) : Except Failure (Option Node) :=
  match c.root with
  | none => .ok none
  | some n =>
    if c.aliased && n.isKnotted then .error .outside
    else .ok (some (n.unroll fun a => ofAnchor c.anchors a backLevels))

/-- The node of the only document in a text. -/
def ofText (cs : List Char) : Except Failure (Option Node) := do
  (← compose cs).tree

end Node

end OpeningHand.Yaml
