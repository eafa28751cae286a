import OpeningHand.Condition.Basic
import OpeningHand.Outline

/-!
# Conditions as outlines

The form in which a condition is shown to other programs: a record with its kind first, then every
field of a card test, or the members of a group.
-/

namespace OpeningHand.Condition

mutual

/-- A condition as an outline. -/
def outline : Condition → Outline
  | .card t => .record [("kind", .text "card"), ("card_name", .text t.name),
      ("quantity", .number t.quantity), ("operator", .text t.bound.sign)]
  | .group c members => .record [("kind", .text c.tag), ("conditions", .list (outlines members))]

/-- Conditions as outlines, in order. -/
def outlines : List Condition → List Outline
  | [] => []
  | c :: cs => c.outline :: outlines cs

end

end OpeningHand.Condition
