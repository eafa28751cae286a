import OpeningHand.Failure

/-!
# The shape of a document

A document is a map with a map of cards under `deck` and a list of texts under `conditions`. Checking
the shape looks at the cards in order, each of which needs a number under `qty` and a list under
`tags`, then at the conditions in order; the first fault is the answer. What passes is held as a
`Shape`, so that what follows need not look again.

Keys of cards are scalars and become names by their plain text: an unquoted passcode is read as a
number and is a name all the same. Two keys may have one text, which is found only after the check.
-/

namespace OpeningHand.Document

/-- A document of the right shape: the cards under their keys, and the texts of the conditions, which
may be torn. -/
structure Shape where
  deck : Entries Data
  conditions : List (List Text.Point)

/-- The plain text of a key. -/
def nameOfKey (k : Scalar) : Except Failure String :=
  match k.text? with
  | some cs => .ok (String.ofList cs)
  | none => .error (.value .tooLong)

/-- The fault of a card under a key, worded with the key's text. -/
def faultAt (k : Scalar) (fault : String → ShapeFault) : Except Failure Unit :=
  match nameOfKey k with
  | .ok name => .error (.shape (fault name))
  | .error e => .error e

/-- A number that is no truth value. -/
def isNumber : Data → Bool
  | .scalar (.whole _) => true
  | .scalar (.real _) => true
  | _ => false

/-- Checks one card. -/
def checkCard (k : Scalar) (d : Data) : Except Failure Unit :=
  if k = .null then .error (.shape .emptyName)
  else
    match d with
    | .map es =>
      if !(Entries.field? "qty" es).any isNumber then faultAt k .qty
      else if !(Entries.field? "tags" es).any (fun t => t.items?.isSome) then faultAt k .tags
      else .ok ()
    | _ => faultAt k .details

/-- Checks cards in order. -/
def checkCards : Entries Data → Except Failure Unit
  | [] => .ok ()
  | (k, d) :: es => do
    checkCard k d
    checkCards es

/-- The texts of conditions, from an index on. -/
def conditionTexts (index : Nat) : List Data → Except Failure (List (List Text.Point))
  | [] => .ok []
  | d :: ds =>
    match d.points? with
    | some text => (conditionTexts (index + 1) ds).map (text :: ·)
    | none => .error (.shape (.condition index))

/-- Checks the shape of a document. -/
def Shape.ofData (d : Data) : Except Failure Shape :=
  match d with
  | .map es =>
    match Entries.field? "deck" es, Entries.field? "conditions" es with
    | some (.map deck), some (.list items) => do
      checkCards deck
      return ⟨deck, ← conditionTexts 0 items⟩
    | some (.map _), _ => .error (.shape .conditions)
    | _, _ => .error (.shape .deck)
  | _ => .error (.shape .notAMap)

/-- Cards by name, from the names already passed on; a name may not appear again. -/
def namedFrom (seen : List String) : Entries Data → Except Failure (List (String × Data))
  | [] => .ok []
  | (k, d) :: es => do
    let name ← nameOfKey k
    if seen.contains name then .error (.shape (.nameTwice name))
    else return (name, d) :: (← namedFrom (name :: seen) es)

/-- Cards by name. -/
def named (es : Entries Data) : Except Failure (List (String × Data)) :=
  namedFrom [] es

end OpeningHand.Document
