import OpeningHand.Yaml.Scalar

/-!
# Values of nodes

What a document stands for. Maps take in what their merge keys offer: the pairs of a map, or of the
maps in a list, earlier ones winning; a key written in the map itself wins over all of them. Keys
must be scalars. Of two pairs with the same key the later value wins at the earlier place.

A document at fault is answered with one failure, the one that lies least deep, and of those the
first: collections are filled level by level.
-/

namespace OpeningHand.Yaml

namespace Node

/-- The node with another tag. -/
def withTag (t : Tag) : Node → Node
  | .scalar _ chars => .scalar t chars
  | .torn _ points => .torn t points
  | .list _ items => .list t items
  | .map _ pairs => .map t pairs
  | .back anchor => .back anchor

mutual

/-- How many levels a node has. -/
def height : Node → Nat
  | .scalar _ _ => 1
  | .torn _ _ => 1
  | .list _ items => heightItems items + 1
  | .map _ pairs => heightPairs pairs + 1
  | .back _ => 1

/-- The most levels of some nodes. -/
def heightItems : List Node → Nat
  | [] => 0
  | n :: ns => max n.height (heightItems ns)

/-- The most levels of nodes in pairs. -/
def heightPairs : List (Node × Node) → Nat
  | [] => 0
  | (k, v) :: ps => max (max k.height v.height) (heightPairs ps)

end

mutual

/-- The text of a node that stands for a scalar: its own, or that under the default key of a map. What
a torn text stands for is only described where it is a text. -/
def text : Node → Except Failure (List Char)
  | .scalar _ chars => .ok chars
  | .torn _ _ => .error .outside
  | .map _ pairs => defaultText pairs
  | _ => .error badValue

/-- The text under the default key. -/
def defaultText : List (Node × Node) → Except Failure (List Char)
  | [] => .error badValue
  | (k, v) :: ps => if k.tag = .value then v.text else defaultText ps

end

mutual

/-- The pairs of a map with merge keys taken in: those merged, then its own. The default key is a
text here. -/
def merged : List (Node × Node) → Except Failure (List (Node × Node) × List (Node × Node))
  | [] => .ok ([], [])
  | (k, v) :: ps => do
    if k.tag = .merge then
      let offered ← v.offered
      let (more, own) ← merged ps
      return (offered ++ more, own)
    else
      let (more, own) ← merged ps
      return (more, (if k.tag = .value then k.withTag .text else k, v) :: own)

/-- What a node offers for merging. -/
def offered : Node → Except Failure (List (Node × Node))
  | .map _ pairs => do
    let (more, own) ← merged pairs
    return more ++ own
  | .list _ items => do return (← offeredItems items).flatten
  | _ => .error badValue

/-- What maps in a list offer for merging, the last first, so that the first wins. -/
def offeredItems : List Node → Except Failure (List (List (Node × Node)))
  | [] => .ok []
  | .map _ pairs :: ns => do
    let (more, own) ← merged pairs
    return (← offeredItems ns) ++ [more ++ own]
  | _ :: _ => .error badValue

end

/-- The pairs of a map, those merged first. -/
def flatPairs (pairs : List (Node × Node)) : Except Failure (List (Node × Node)) := do
  let (more, own) ← merged pairs
  return more ++ own

end Node

/-- A value that was built, with the faults met and how deep each lies. Where a fault lies, the
value is of no account. -/
structure Built (α : Type) where
  value : α
  faults : List (Nat × Failure)

namespace Built

/-- A value without faults. -/
def pure {α : Type} (a : α) : Built α := ⟨a, []⟩

/-- One fault. -/
def fault {α : Type} (a : α) (depth : Nat) (e : Failure) : Built α := ⟨a, [(depth, e)]⟩

/-- Two values in order. -/
def both {α β γ : Type} (f : α → β → γ) (x : Built α) (y : Built β) : Built γ :=
  ⟨f x.value y.value, x.faults ++ y.faults⟩

/-- A value of another form. -/
def map {α β : Type} (f : α → β) (x : Built α) : Built β := ⟨f x.value, x.faults⟩

/-- Values of a list in order. -/
def each {α β : Type} (f : α → Built β) : List α → Built (List β)
  | [] => pure []
  | a :: as => both List.cons (f a) (each f as)

/-- The first of the faults that lie least deep. -/
def first? : List (Nat × Failure) → Option (Nat × Failure)
  | [] => none
  | f :: fs =>
    match first? fs with
    | none => some f
    | some g => if g.1 < f.1 then some g else some f

/-- The value, or the fault that is met first. -/
def result {α : Type} (x : Built α) : Except Failure α :=
  match first? x.faults with
  | none => .ok x.value
  | some (_, e) => .error e

end Built

namespace Node

/-- The value of a node with a tag for scalars. A time is only read from a scalar, and a torn scalar
is only read as a text. -/
def scalarData (tag : Tag) : Node → Except Failure Data
  | .torn _ points => if tag = .text then .ok (.torn points) else .error .outside
  | n => do
    let cs ← n.text
    match tag, n with
    | .time, .map _ _ => throw (.lapse .wrongType)
    | _, _ => return .scalar (← scalarValue tag cs)

/-- A value that serves as a key. What a torn key does is not described here. -/
def keyOf (depth : Nat) (d : Built Data) : Built Scalar :=
  match d.value with
  | .scalar s => ⟨s, d.faults⟩
  | .torn _ => ⟨.null, d.faults ++ [(depth, .outside)]⟩
  | _ => ⟨.null, d.faults ++ [(depth, badValue)]⟩

/-- The items of a list of single pairs, each as a list of two. -/
def pairItems (depth : Nat) (build : Node → Built Data) : List Node → Built (List Data)
  | [] => .pure []
  | .map _ [(k, v)] :: ns =>
    .both List.cons (.both (fun k v => .list [k, v]) (build k) (build v)) (pairItems depth build ns)
  | _ :: _ => .fault [] depth badValue

/-- The entries of a map. -/
def entriesOf (depth : Nat) (build : Node → Built Data) (pairs : List (Node × Node)) :
    Built (List (Scalar × Data)) :=
  match flatPairs pairs with
  | .error e => .fault [] depth e
  | .ok pairs =>
    .each (fun (k, v) => .both Prod.mk (keyOf depth (build k)) (build v)) pairs

/-- Builds the value of a node at a depth. The parts of a collection lie one level deeper. -/
def build (depth : Nat) (n : Node) : (fuel : Nat) → Built Data
  | 0 => .pure (.scalar .null)
  | fuel + 1 =>
    let part (n : Node) : Built Data := build (depth + 1) n fuel
    let inside := depth + 1
    match n.tag, n with
    | .list, .list _ items => (Built.each part items).map .list
    | .map, .map _ pairs => (entriesOf inside part pairs).map fun es => .map (Entries.ofList es)
    | .set, .map _ pairs =>
      (entriesOf inside part pairs).map fun es => .set (Scalar.distinct (es.map (·.1)))
    | .omap, .list _ items => (pairItems inside part items).map .list
    | .pairs, .list _ items => (pairItems inside part items).map .list
    | .list, _ | .map, _ | .set, _ | .omap, _ | .pairs, _ =>
      .fault (.scalar .null) inside badValue
    | .merge, _ | .value, _ | .other, _ => .fault (.scalar .null) depth badValue
    | tag, n =>
      match n.scalarData tag with
      | .ok d => .pure d
      | .error e => .fault (.scalar .null) depth e

/-- The value of a node. -/
def toData (n : Node) : Except Failure Data :=
  (n.build 0 n.height).result

end Node

/-- On how many levels the texts of a document may be torn. What torn texts do below them is not
described here. -/
def tornLevels : Nat := 3

/-- The value of the only document in a text; a text without a document is null. -/
def load (text : String) : Except Failure Data := do
  match ← Node.ofText text.toList with
  | none => return .scalar .null
  | some n =>
    let d ← n.toData
    if d.isIntactBelow tornLevels then return d else throw .outside

end OpeningHand.Yaml
