/-!
# Faults of YAML texts

Reading a YAML text goes through stages, and a text at fault is named by the stage that refused it:
its characters, its tokens, the order of its tokens, its anchors and documents, or its values.
-/

namespace OpeningHand.Yaml

/-- The stage that refuses a text. -/
inductive Stage where
  | characters
  | tokens
  | grammar
  | composition
  | construction
  deriving Repr, DecidableEq

/-- The name of a stage's faults. -/
def Stage.label : Stage → String
  | .characters => "ReaderError"
  | .tokens => "ScannerError"
  | .grammar => "ParserError"
  | .composition => "ComposerError"
  | .construction => "ConstructorError"

end OpeningHand.Yaml
