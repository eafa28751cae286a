import OpeningHand.Condition.Basic
import OpeningHand.Field

/-!
# Conditions as data

The dictionary form of a condition: a map whose `kind` tells a card test from a group. Writing gives
every field; reading takes a quantity in any form a count may have, fills in a missing quantity or
operator, ignores entries it does not know, and answers with all problems, each at its place. The
place of a problem names the kind of every condition on the way.
-/

namespace OpeningHand.Condition

mutual

/-- A condition as a map. -/
def toData : Condition → Data
  | .card t => .map [(.text "kind", .ofText "card"), (.text "card_name", .ofText t.name),
      (.text "quantity", .scalar (.whole t.quantity)), (.text "operator", .ofText t.bound.sign)]
  | .group c members => .map [(.text "kind", .ofText c.tag),
      (.text "conditions", .list (toDataAll members))]

/-- Conditions as maps, in order. -/
def toDataAll : List Condition → List Data
  | [] => []
  | c :: cs => c.toData :: toDataAll cs

end

/-! ## Reading -/

/-- Reads a card's name, which has at least one character. -/
def readName : Option Data → Checked String
  | none => .problem .missing
  | some d =>
    match Field.text d with
    | .ok name => if name.isEmpty then .problem .emptyText else .ok name
    | .error ps => .error ps

/-- Reads the quantity of a card test, one if there is none. -/
def readCount : Option Data → Checked Nat
  | none => .ok 1
  | some d => Field.count d

/-- Reads the bound of a card test by its sign, exact if there is none. -/
def readBound : Option Data → Checked Bound
  | none => .ok .exactly
  | some (.scalar (.text sign)) =>
    if sign = Bound.exactly.sign then .ok .exactly
    else if sign = Bound.atLeast.sign then .ok .atLeast
    else .problem .badOperator
  | some _ => .problem .badOperator

/-- Reads a card test from the entries of a map. -/
def readTest (es : Entries Data) : Checked CardTest :=
  Checked.both (fun name (quantity, bound) => ⟨name, quantity, bound⟩)
    (Checked.under (.field "card_name") (readName (es.field? "card_name")))
    (Checked.both Prod.mk
      (Checked.under (.field "quantity") (readCount (es.field? "quantity")))
      (Checked.under (.field "operator") (readBound (es.field? "operator"))))

/-- What a tag stands for. -/
inductive Tag where
  | card
  | group (c : Connective)
  deriving Repr, DecidableEq

/-- Reads the tag of a map. -/
def readTag (es : Entries Data) : Checked Tag :=
  match es.field? "kind" with
  | none => .problem .noTag
  | some d =>
    if d.text? = some "card" then .ok .card
    else if d.text? = some Connective.and.tag then .ok (.group .and)
    else if d.text? = some Connective.or.tag then .ok (.group .or)
    else .problem (.badTag (String.ofList d.chars))

mutual

/-- Reads a condition from data. -/
def ofData : Data → Checked Condition
  | .map es =>
    match readTag es with
    | .error ps => .error ps
    | .ok .card => Checked.under (.field "card") ((readTest es).map .card)
    | .ok (.group c) =>
      Checked.under (.field c.tag) (Checked.under (.field "conditions") (ofMembers c es))
  | _ => .problem .notTree

/-- Reads the members of a group from the entry that holds them. -/
def ofMembers (c : Connective) : Entries Data → Checked Condition
  | [] => .problem .missing
  | (k, d) :: es =>
    if k.key = .text "conditions" then ofList c d else ofMembers c es

/-- Reads a group from the list of its members. -/
def ofList (c : Connective) : Data → Checked Condition
  | .list items => if items.isEmpty then .problem .noMembers else (ofItems 0 items).map (.group c)
  | _ => .problem .notList

/-- Reads members one by one, from an index on. -/
def ofItems (index : Nat) : List Data → Checked (List Condition)
  | [] => .ok []
  | d :: ds => Checked.both List.cons (Checked.under (.index index) (ofData d)) (ofItems (index + 1) ds)

end

end OpeningHand.Condition
