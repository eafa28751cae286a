import OpeningHand.Card.Details
import OpeningHand.Failure
import OpeningHand.Journal

/-!
# Decks

A deck is a list of slots, each holding a card with its details. Slots named as the empty card fill
a deck up to a least size; they are no real cards, so they count neither by name nor in all. Built
from a description, a deck has the copies of each card next to each other in the order of the
description, and the filling after them.

Counts and the mapping list every name once, in the order of first slots.
-/

namespace OpeningHand

/-- A slot: a card's name and its details. -/
structure Card where
  name : String
  details : Details
  deriving Repr, BEq

namespace Card

/-- The name of the slots that fill a deck up. -/
def emptyName : String := "Empty Card"

/-- A slot that fills a deck up. -/
def empty : Card := ⟨emptyName, .filler⟩

/-- Whether a slot only fills the deck up. -/
def isEmpty (c : Card) : Bool := c.name = emptyName

end Card

/-- An ordered list of slots. -/
structure Deck where
  slots : List Card
  deriving Repr, BEq

/-- What a deck tells about one name: copies, and the labels and flag of its first slot. -/
structure Holding where
  name : String
  qty : Nat
  tags : List String
  free : Bool
  deriving Repr, DecidableEq

namespace Deck

/-- The number of slots. -/
def size (d : Deck) : Nat := d.slots.length

/-- The slots that hold real cards. -/
def realSlots (d : Deck) : List Card := d.slots.filter fun c => !c.isEmpty

/-- The number of real cards. -/
def realSize (d : Deck) : Nat := d.realSlots.length

/-- Counts with one more of a name, which keeps its place. -/
def tally (name : String) : List (String × Nat) → List (String × Nat)
  | [] => [(name, 1)]
  | (name', n) :: counts =>
    if name' = name then (name', n + 1) :: counts else (name', n) :: tally name counts

/-- The copies of each real card, in order of first slots. -/
def counts (d : Deck) : List (String × Nat) :=
  d.realSlots.foldl (fun acc c => tally c.name acc) []

/-- The number of copies of a name. -/
def quantity (d : Deck) (name : String) : Nat :=
  (d.counts.lookup name).getD 0

/-- Holdings with one more slot; the first slot of a name decides all but the number. -/
def hold (c : Card) : List Holding → List Holding
  | [] => [⟨c.name, 1, c.details.tags, c.details.free⟩]
  | h :: hs => if h.name = c.name then { h with qty := h.qty + 1 } :: hs else h :: hold c hs

/-- What the deck holds, by name, in order of first slots. -/
def holdings (d : Deck) : List Holding :=
  d.realSlots.foldl (fun acc c => hold c acc) []

/-- A deck in short: how many names and how many slots it has. -/
def summary (d : Deck) : String :=
  "<Deck(unique_cards=" ++ toString d.counts.length ++ ", total_cards=" ++ toString d.size ++ ")>"

/-! ## Building -/

/-- The least number of slots of a deck when none is given. -/
def defaultMinSize : Int := 40

/-- What a description holds under a name: data to be read as details, with labels that are texts of
characters, or details. -/
inductive Offer where
  | data (d : Data) (labels : Details.hasTornLabel d = false)
  | ready (details : Details)

/-- The slots that one entry of a description stands for. -/
def slotsOf (name : Scalar) (offer : Offer) : Except Failure (List Card) :=
  match name with
  | .text s =>
    if Text.isBlankText s.toList then .error (.cardName name)
    else
      match offer with
      | .ready details => .ok (List.replicate details.qty ⟨s, details⟩)
      | .data d _ =>
        match Details.ofData d with
        | .ok details => .ok (List.replicate details.qty ⟨s, details⟩)
        | .error ps => .error (.cardDetails s ps)
  | _ => .error (.cardName name)

/-- The slots that a description stands for, up to the first failure. -/
def slotsOfAll : List (Scalar × Offer) → Except Failure (List Card)
  | [] => .ok []
  | (name, offer) :: entries => do
    let slots ← slotsOf name offer
    let more ← slotsOfAll entries
    return slots ++ more

/-- The number of filling slots that bring `size` up to a least size. -/
def fillerCount (minSize : Int) (size : Nat) : Nat := (minSize - size).toNat

/-- Builds a deck from a description and records its size. -/
def build (entries : List (Scalar × Offer)) (minSize : Int) : Recorded Failure Deck :=
  match slotsOfAll entries with
  | .error e => .ofExcept (.error e)
  | .ok slots =>
    let fillers := fillerCount minSize slots.length
    ⟨[⟨.decks, .debug, "Built deck with " ++ toString slots.length ++ " cards and " ++
        toString fillers ++ " empty slots"⟩],
      .ok ⟨slots ++ List.replicate fillers .empty⟩⟩

/-- Builds a deck from names and data. What becomes of torn labels is not described here. -/
def ofEntries (entries : List (String × Data)) (minSize : Int) : Recorded Failure Deck :=
  if labels : ∀ e ∈ entries, Details.hasTornLabel e.2 = false then
    build (entries.pmap (fun e h => (.text e.1, .data e.2 h)) labels) minSize
  else .ofExcept (.error .outside)

end Deck

end OpeningHand
