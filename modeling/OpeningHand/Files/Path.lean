import OpeningHand.Text.Blank

/-!
# Paths

A path is a root and the names below it. Reading a path from text drops empty names and single dots,
so two texts of one place may differ while their paths agree; two dots are kept, as they depend on
what lies there. A path without root and names is the current place.
-/

namespace OpeningHand.Files

/-- A root and names. The root is a number of slashes: none for a relative path, two for the root
that systems may treat apart. -/
structure Path where
  root : Nat
  names : List (List Char)
  deriving Repr, DecidableEq

namespace Path

/-- The root that some leading slashes stand for. -/
def rootOf (slashes : Nat) : Nat :=
  if slashes = 0 then 0 else if slashes = 2 then 2 else 1

/-- Reads a path. -/
def ofText (s : String) : Path :=
  let cs := s.toList
  ⟨rootOf (cs.takeWhile (· = '/')).length,
    (List.splitOn '/' cs).filter fun name => !name.isEmpty && name ≠ ['.']⟩

/-- The text of a path. -/
def toText (p : Path) : String :=
  if p.root = 0 && p.names.isEmpty then "."
  else String.ofList (List.replicate p.root '/' ++ List.intercalate ['/'] p.names)

/-- The last name of a path, which may be none. -/
def name (p : Path) : String :=
  String.ofList (p.names.getLast?.getD [])

/-- A path below another. -/
def below (p : Path) (name : String) : Path :=
  { p with names := p.names ++ [name.toList] }

/-- A path with more at the end of its last name. -/
def extended (p : Path) (ending : String) : Path :=
  { p with names := p.names.dropLast ++ [p.names.getLast?.getD [] ++ ending.toList] }

/-- The path that holds a path. -/
def parent (p : Path) : Path :=
  { p with names := p.names.dropLast }

end Path

end OpeningHand.Files
