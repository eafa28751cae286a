import OpeningHand.Calendar
import OpeningHand.Number.Shortest
import OpeningHand.Number.Whole
import OpeningHand.Text.Point

/-!
# Data

The values that documents and card details are made of: scalars, lists, sets and maps. A text with
half of a surrogate pair in it is a value of its own kind. Scalars are the keys of maps. Two scalars
are the same key when they are equal in value: a whole number, a floating-point number and a truth
value are compared as numbers, and times with an offset as instants. Putting an entry into a map
keeps the key that came first and the value that came last.

A value has two texts: the plain one, which shows a text as it is, and the inspected one, which
quotes it.
-/

namespace OpeningHand

/-- A value without parts. -/
inductive Scalar where
  | null
  | flag (b : Bool)
  | whole (n : Int)
  | real (x : Number.Binary64)
  | text (s : String)
  | bytes (bs : List UInt8)
  | date (d : Date)
  | moment (m : Moment)
  deriving Repr, DecidableEq

/-- A value: a scalar, a text that is torn by half of a surrogate pair, or a collection of values. The
members of a set and the keys of a map are scalars. -/
inductive Data where
  | scalar (s : Scalar)
  | torn (points : List Text.Point)
  | list (items : List Data)
  | set (members : List Scalar)
  | map (entries : List (Scalar × Data))
  deriving Repr, BEq, Inhabited

namespace Scalar

/-- What a scalar is as a key. -/
inductive Key where
  | null
  | whole (n : Int)
  | real (x : Number.Binary64)
  | text (s : String)
  | bytes (bs : List UInt8)
  | date (d : Date)
  | clock (microseconds : Int)
  | instant (microseconds : Int)
  deriving Repr, DecidableEq

/-- The key that a scalar is. -/
def key : Scalar → Key
  | .null => .null
  | .flag b => .whole b.toNat
  | .whole n => .whole n
  | .real x =>
    match x.toInt? with
    | some n => .whole n
    | none => .real x
  | .text s => .text s
  | .bytes bs => .bytes bs
  | .date d => .date d
  | .moment m =>
    match m.offset with
    | none => .clock m.clock
    | some offset => .instant (m.instant offset)

/-- The plain text of a scalar; none for a number with more digits than may be written. -/
def text? : Scalar → Option (List Char)
  | .null => some "None".toList
  | .flag b => some (if b then "True" else "False").toList
  | .whole n => Number.writeWhole? n
  | .real x => some x.chars
  | .text s => some s.toList
  | .bytes bs => some (Text.quotedBytes bs)
  | .date d => some d.chars
  | .moment m => some (m.chars ' ')

/-- The inspected text of a scalar; a number has all its digits. -/
def inspect : Scalar → List Char
  | .null => "None".toList
  | .flag b => (if b then "True" else "False").toList
  | .whole n => Number.wholeDigits n
  | .real x => x.chars
  | .text s => Text.quoted s.toList
  | .bytes bs => Text.quotedBytes bs
  | .date d => d.call.toList
  | .moment m => m.call.toList

/-- The inspected text of a scalar, if it may be written; none for a number with too many digits. -/
def inspect? : Scalar → Option (List Char)
  | .whole n => Number.writeWhole? n
  | s => some s.inspect

end Scalar

/-! ## Entries -/

/-- Entries under keys, in order. -/
abbrev Entries (β : Type) := List (Scalar × β)

namespace Entries

variable {β : Type}

/-- The value under a key. -/
def get? (k : Scalar) : Entries β → Option β
  | [] => none
  | (k', v) :: es => if k'.key = k.key then some v else get? k es

/-- The value under a text. -/
def field? (name : String) (es : Entries β) : Option β :=
  get? (.text name) es

/-- Puts a value under a key: in place if the key is there already, else at the end. -/
def put (k : Scalar) (v : β) : Entries β → Entries β
  | [] => [(k, v)]
  | (k', v') :: es => if k'.key = k.key then (k', v) :: es else (k', v') :: put k v es

/-- Entries put one after the other. -/
def ofList (es : List (Scalar × β)) : Entries β :=
  es.foldl (fun acc e => put e.1 e.2 acc) []

end Entries

/-- Members of a set in order of first appearance. -/
def Scalar.distinct (ms : List Scalar) : List Scalar :=
  (Entries.ofList (ms.map fun m => (m, ()))).map (·.1)

/-! ## Inspected text -/

namespace Data

/-- Parts between brackets, separated by commas. -/
def bracketed (left right : Char) (parts : List (List Char)) : List Char :=
  left :: List.intercalate [',', ' '] parts ++ [right]

mutual

/-- The inspected text of a value. -/
def inspect : Data → List Char
  | .scalar s => s.inspect
  | .torn points => Text.quotedPoints points
  | .list items => bracketed '[' ']' (inspectItems items)
  | .set members =>
    if members.isEmpty then "set()".toList
    else bracketed '\x7b' '\x7d' (members.map Scalar.inspect)
  | .map entries => bracketed '\x7b' '\x7d' (inspectEntries entries)

/-- The inspected texts of values. -/
def inspectItems : List Data → List (List Char)
  | [] => []
  | d :: ds => d.inspect :: inspectItems ds

/-- The inspected texts of entries: the key, a colon, the value. -/
def inspectEntries : List (Scalar × Data) → List (List Char)
  | [] => []
  | (k, d) :: es => (k.inspect ++ ':' :: ' ' :: d.inspect) :: inspectEntries es

end

/-- The plain text of a value: a scalar's own, a collection inspected. -/
def chars : Data → List Char
  | .scalar (.text s) => s.toList
  | .torn points => (Text.shown points).toList
  | d => d.inspect

/-- A text. -/
def ofText (s : String) : Data := .scalar (.text s)

/-- A text that is torn. -/
def isTorn : Data → Bool
  | .torn _ => true
  | _ => false

mutual

/-- No text in the value is torn. -/
def isIntact : Data → Bool
  | .scalar _ => true
  | .torn _ => false
  | .list items => areIntact items
  | .set _ => true
  | .map entries => holdsIntact entries

/-- `isIntact` on items. -/
def areIntact : List Data → Bool
  | [] => true
  | d :: ds => d.isIntact && areIntact ds

/-- `isIntact` on the values of entries. -/
def holdsIntact : List (Scalar × Data) → Bool
  | [] => true
  | (_, d) :: es => d.isIntact && holdsIntact es

end

/-- No text in the value is torn but those among its first levels. -/
def isIntactBelow : (levels : Nat) → Data → Bool
  | 0, d => d.isIntact
  | levels + 1, .list items => items.all (isIntactBelow levels)
  | levels + 1, .map entries => entries.all fun e => isIntactBelow levels e.2
  | _ + 1, _ => true

/-- The items of a list. -/
def items? : Data → Option (List Data)
  | .list items => some items
  | _ => none

/-- A text's content. -/
def text? : Data → Option String
  | .scalar (.text s) => some s
  | _ => none

/-- A text's points, whether or not it is torn. -/
def points? : Data → Option (List Text.Point)
  | .scalar (.text s) => some (Text.points s)
  | .torn points => some points
  | _ => none

end Data

end OpeningHand
