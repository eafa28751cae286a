import OpeningHand.Field

/-!
# Card details

What a deck's description holds under a card's name: the number of copies, labels, whether the card
is free to play, and any further entries, which are kept as they are. Reading checks every field and
collects all problems in the order number, labels, flag, further keys.
-/

namespace OpeningHand

/-- The details of a card. -/
structure Details where
  qty : Nat
  tags : List String
  free : Bool
  extra : List (String × Data)
  deriving Repr, BEq

namespace Details

/-- The details of a slot that only fills a deck up. -/
def filler : Details := ⟨0, [], false, []⟩

/-- Reads the number of copies. A truth value is refused, though it counts as a number elsewhere. -/
def readQty : Option Data → Checked Nat
  | none => .ok 1
  | some (.scalar (.flag _)) => .problem .flagQuantity
  | some d => Field.count d

/-- Reads labels, from a list or a set; null stands for none. -/
def readTags : Option Data → Checked (List String)
  | none => .ok []
  | some (.scalar .null) => .ok []
  | some (.list items) => Checked.each Field.text 0 items
  | some (.set members) => Checked.each (fun s => Field.text (.scalar s)) 0 members
  | some _ => .problem .notTuple

/-- A label is a torn text. It is kept as it is, which labels here are not made for. -/
def hasTornLabel : Data → Bool
  | .map es =>
    match Entries.field? "tags" es with
    | some (.list items) => items.any Data.isTorn
    | _ => false
  | _ => false

/-- Reads whether the card is free. -/
def readFree : Option Data → Checked Bool
  | none => .ok false
  | some d => Field.flag d

/-- A key as the place of a problem. -/
def stepOfKey : Scalar → Step
  | .text s => .field s
  | .flag b => .index b.toNat
  | .whole n =>
    if -Field.floatBound ≤ n && n < Field.floatBound then .index n
    else .field (String.ofList (Number.wholeDigits n))
  | k => .field (String.ofList k.inspect)

/-- The names of the fields that details have of their own. -/
def ownFields : List String := ["qty", "tags", "free"]

/-- Reads the further entries; each key must be a text. -/
def readExtra : Entries Data → Checked (List (String × Data))
  | [] => .ok []
  | (.text name, d) :: es =>
    if ownFields.contains name then readExtra es
    else (readExtra es).map ((name, d) :: ·)
  | (k, _) :: es =>
    Checked.both (fun (_ : Unit) rest => rest)
      (Checked.under (stepOfKey k) (.problem .badKey)) (readExtra es)

/-- Reads the details from the entries of a map. -/
def ofEntries (es : Entries Data) : Checked Details :=
  Checked.both (fun (qty, tags) (free, extra) => ⟨qty, tags, free, extra⟩)
    (Checked.both Prod.mk
      (Checked.under (.field "qty") (readQty (es.field? "qty")))
      (Checked.under (.field "tags") (readTags (es.field? "tags"))))
    (Checked.both Prod.mk
      (Checked.under (.field "free") (readFree (es.field? "free")))
      (readExtra es))

/-- Reads details from data. -/
def ofData : Data → Checked Details
  | .map es => ofEntries es
  | _ => .problem .notDetails

end Details

end OpeningHand
