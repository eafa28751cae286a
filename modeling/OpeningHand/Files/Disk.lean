import OpeningHand.Files.Fault
import OpeningHand.Files.Path
import OpeningHand.Text.Utf8

/-!
# Disks

A disk without links: files and directories at places, a place being the names that lead to it from
the top. Relative paths start from the directory `here`. A path is followed name by name, and every
name but the last has to lead to a directory; two dots lead one directory up, and stay at the top.
-/

namespace OpeningHand.Files

/-- The names that lead to a file or directory from the top of a disk. -/
abbrev Place := List (List Char)

/-- What stands at a place. -/
inductive Entry where
  | file (bytes : List UInt8)
  | directory
  deriving Repr, DecidableEq

namespace Entry

/-- A file. -/
def isFile : Entry → Bool
  | .file _ => true
  | .directory => false

/-- A directory. -/
def isDirectory : Entry → Bool
  | .file _ => false
  | .directory => true

end Entry

/-- Why following a path or using what it leads to fails, the path aside. -/
inductive Obstacle where
  | missing
  | occupied
  | notADirectory
  | isADirectory
  | longName
  | badName
  deriving Repr, DecidableEq

/-- The fault that an obstacle is for a path. -/
def Obstacle.at (o : Obstacle) (p : Path) : Fault :=
  match o with
  | .missing => .missing p.toText
  | .occupied => .occupied p.toText
  | .notADirectory => .notADirectory p.toText
  | .isADirectory => .isADirectory p.toText
  | .longName => .longName p.toText
  | .badName => .badName

/-- Files and directories, with the directory that relative paths start from. -/
structure Disk where
  here : Place
  entries : List (Place × Entry)
  deriving Repr, DecidableEq

namespace Disk

/-- What stands at a place; the top is always a directory. -/
def entry? (d : Disk) (place : Place) : Option Entry :=
  if place.isEmpty then some .directory else d.entries.lookup place

/-- The entries with another one at a place, which is the last if the place was free. -/
def putEntry (place : Place) (e : Entry) : List (Place × Entry) → List (Place × Entry)
  | [] => [(place, e)]
  | (place', e') :: es =>
    if place' = place then (place, e) :: es else (place', e') :: putEntry place e es

/-- The disk with an entry at a place. -/
def put (d : Disk) (place : Place) (e : Entry) : Disk :=
  { d with entries := putEntry place e d.entries }

/-! ## Following paths -/

/-- The most bytes that a name may have. -/
def maxNameBytes : Nat := 255

/-- The most bytes that the text of a path may have. -/
def maxPathBytes : Nat := 4095

/-- The bytes of a text. -/
def byteCount (cs : List Char) : Nat :=
  cs.foldl (fun n c => n + c.utf8Size) 0

/-- Where one name leads from a place. -/
def enter (d : Disk) (place : Place) (name : List Char) : Except Obstacle Place :=
  match d.entry? place with
  | none => .error .missing
  | some (.file _) => .error .notADirectory
  | some .directory =>
    if name = ['.', '.'] then .ok place.dropLast
    else if maxNameBytes < byteCount name then .error .longName
    else .ok (place ++ [name])

/-- Where names lead from a place, whatever stands at the end. -/
def follow (d : Disk) (place : Place) : List (List Char) → Except Obstacle Place
  | [] => .ok place
  | name :: names =>
    match d.enter place name with
    | .error o => .error o
    | .ok place => d.follow place names

/-- Where a path leads, whatever stands there. -/
def locate (d : Disk) (p : Path) : Except Obstacle Place :=
  if p.names.any fun name => name.contains '\x00' then .error .badName
  else if maxPathBytes < byteCount p.toText.toList then .error .longName
  else d.follow (if p.root = 0 then d.here else []) p.names

/-- What stands where a path leads, or what is in the way. -/
def look (d : Disk) (p : Path) : Except Obstacle Entry :=
  match d.locate p with
  | .error o => .error o
  | .ok place =>
    match d.entry? place with
    | none => .error .missing
    | some e => .ok e

/-! ## Reading and writing -/

/-- The bytes of a file. -/
def read (d : Disk) (p : Path) : Except Fault (List UInt8) :=
  match d.look p with
  | .error o => .error (o.at p)
  | .ok .directory => .error (.isADirectory p.toText)
  | .ok (.file bytes) => .ok bytes

/-- The disk after a file got the bytes that `f` makes from its former ones, none if it is new. -/
def change (d : Disk) (p : Path) (f : List UInt8 → List UInt8) : Except Fault Disk :=
  match d.locate p with
  | .error o => .error (o.at p)
  | .ok place =>
    match d.entry? place with
    | some .directory => .error (.isADirectory p.toText)
    | some (.file bytes) => .ok (d.put place (.file (f bytes)))
    | none => .ok (d.put place (.file (f [])))

/-- The disk with new bytes in a file. -/
def write (d : Disk) (p : Path) (bytes : List UInt8) : Except Fault Disk :=
  d.change p fun _ => bytes

/-- The disk with more bytes at the end of a file. -/
def append (d : Disk) (p : Path) (bytes : List UInt8) : Except Fault Disk :=
  d.change p (· ++ bytes)

/-- The disk with a new directory. -/
def makeDirectory (d : Disk) (p : Path) : Except Fault Disk :=
  match d.locate p with
  | .error o => .error (o.at p)
  | .ok place =>
    match d.entry? place with
    | some _ => .error (.occupied p.toText)
    | none => .ok (d.put place .directory)

/-- Whether an entry stands where a path leads. A path that cannot be followed leads to nothing,
except that a name that is too long is a fault. -/
def leadsTo (d : Disk) (p : Path) (test : Entry → Bool) : Except Fault Bool :=
  match d.look p with
  | .ok e => .ok (test e)
  | .error .longName => .error (.longName p.toText)
  | .error _ => .ok false

/-! ## Removing and moving -/

/-- Whether anything stands where a path leads. -/
def isThere (d : Disk) (p : Path) : Bool :=
  (d.look p).toOption.isSome

/-- How many bytes are in the file where a path leads, if one is there. -/
def size? (d : Disk) (p : Path) : Option Nat :=
  match d.look p with
  | .ok (.file bytes) => some bytes.length
  | _ => none

/-- The disk with everything at the place that a function gives for its place, or gone. -/
def relocate (d : Disk) (to? : Place → Option Place) : Disk :=
  { d with entries := d.entries.filterMap fun e => (to? e.1).map fun place => (place, e.2) }

/-- The disk with nothing at a place. -/
def clear (d : Disk) (place : Place) : Disk :=
  d.relocate fun place' => if place' = place then none else some place'

/-- The disk without a file. -/
def remove (d : Disk) (p : Path) : Except Fault Disk :=
  match d.locate p with
  | .error o => .error (o.at p)
  | .ok place =>
    match d.entry? place with
    | none => .error (.missing p.toText)
    | some .directory => .error (.isADirectory p.toText)
    | some (.file _) => .ok (d.clear place)

/-- The disk with what was at or below one place at or below another, and nothing else there. -/
def move (d : Disk) (source target : Place) : Disk :=
  d.relocate fun place =>
    if target.isPrefixOf place then none
    else if source.isPrefixOf place then some (target ++ place.drop source.length)
    else some place

/-- The disk with what one path leads to where another leads, if nothing is there. -/
def rename (d : Disk) (p q : Path) : Except Fault Disk :=
  match d.locate p with
  | .error o => .error (o.at p)
  | .ok source =>
    match d.locate q with
    | .error o => .error (o.at q)
    | .ok target =>
      match d.entry? source, d.entry? target with
      | none, _ => .error (.missing p.toText)
      | some _, none => .ok (d.move source target)
      | some _, some _ => .error (.occupied q.toText)

/-! ## The files of a disk -/

/-- An empty disk with one directory, where relative paths start. -/
def empty (name : List Char) : Disk :=
  ⟨[name], [([name], .directory)]⟩

/-- The files below the directory where relative paths start, by their paths from there. -/
def files (d : Disk) : List (Path × List UInt8) :=
  d.entries.filterMap fun e =>
    match e with
    | (place, .file bytes) =>
      if d.here.isPrefixOf place then some (⟨0, place.drop d.here.length⟩, bytes) else none
    | (_, .directory) => none

end Disk

end OpeningHand.Files
