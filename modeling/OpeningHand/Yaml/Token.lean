import OpeningHand.Text.Point

/-!
# Tokens of YAML

The pieces that a YAML text falls into. Besides what is written, some tokens stand for the layout:
where a block collection starts and ends, and where a key starts that is only known as one by the
colon after it.
-/

namespace OpeningHand.Yaml

/-- An instruction before a document. -/
inductive Directive where
  | version (major : Nat)
  | tagHandle (handle lead : List Char)
  | other
  deriving Repr, DecidableEq

/-- A piece of a YAML text. A scalar whose escapes leave half of a surrogate pair alone is torn: it
is no text of characters. -/
inductive Token where
  | streamEnd
  | directive (d : Directive)
  | documentStart
  | documentEnd
  | blockSequenceStart
  | blockMappingStart
  | blockEnd
  | flowSequenceStart
  | flowSequenceEnd
  | flowMappingStart
  | flowMappingEnd
  | blockEntry
  | flowEntry
  | key
  | value
  | alias (name : List Char)
  | anchor (name : List Char)
  | tag (handle : Option (List Char)) (suffix : List Char)
  | scalar (chars : List Char) (isPlain : Bool)
  | torn (points : List Text.Point)
  deriving Repr, DecidableEq

end OpeningHand.Yaml
