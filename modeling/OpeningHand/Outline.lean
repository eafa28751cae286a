/-!
# Outlines

The values that are written to documents: texts, numbers, truth values, lists, and records of named
values. An outline knows no format; a record keeps its entries in the order they were given, unless
it is sorted by name at every level.
-/

namespace OpeningHand

/-- A value to be written. -/
inductive Outline where
  | text (s : String)
  | number (n : Nat)
  | flag (b : Bool)
  | list (items : List Outline)
  | record (entries : List (String × Outline))
  deriving Repr, BEq

namespace Outline

mutual

/-- The outline with the entries of every record in the order of their names. -/
def sorted : Outline → Outline
  | .list items => .list (sortedItems items)
  | .record entries => .record ((sortedEntries entries).mergeSort fun a b => a.1 ≤ b.1)
  | o => o

/-- `sorted` on items. -/
def sortedItems : List Outline → List Outline
  | [] => []
  | o :: os => o.sorted :: sortedItems os

/-- `sorted` on entries. -/
def sortedEntries : List (String × Outline) → List (String × Outline)
  | [] => []
  | (name, o) :: es => (name, o.sorted) :: sortedEntries es

end

end Outline

end OpeningHand
