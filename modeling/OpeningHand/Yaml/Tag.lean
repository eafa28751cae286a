import OpeningHand.Yaml.Cursor

/-!
# Tags

What kind of value a node stands for. A tag is written before a node, or found from a plain scalar's
form: truth values, numbers, null, times and the two special keys each have their own form, tried in
a fixed order, and every other scalar is a text. A form also fits with one newline after it.
-/

namespace OpeningHand.Yaml

/-- The kinds of values; `other` is a tag that no value has. A floating-point number has a place in
the document, which tells those apart that are no numbers. -/
inductive Tag where
  | null
  | flag
  | whole
  | real (place : Nat)
  | binary
  | time
  | omap
  | pairs
  | set
  | text
  | list
  | map
  | merge
  | value
  | other
  deriving Repr, DecidableEq

namespace Tag

/-- What stands before the names of the known tags. -/
def lead : String := "tag:yaml.org,2002:"

/-- The tag with a full name. -/
def ofName (name : List Char) : Tag :=
  match [("null", Tag.null), ("bool", .flag), ("int", .whole), ("float", .real 0),
    ("binary", .binary), ("timestamp", .time), ("omap", .omap), ("pairs", .pairs), ("set", .set),
    ("str", .text), ("seq", .list), ("map", .map), ("merge", .merge), ("value", .value)].find?
      fun e => (lead ++ e.1).toList = name with
  | some (_, t) => t
  | none => .other

/-! ## Forms of plain scalars -/

/-- The forms of truth values. -/
def isFlagForm (cs : List Char) : Bool :=
  ["yes", "Yes", "YES", "no", "No", "NO", "true", "True", "TRUE", "false", "False", "FALSE",
    "on", "On", "ON", "off", "Off", "OFF"].contains (String.ofList cs)

/-- The forms of null. -/
def isNullForm (cs : List Char) : Bool :=
  ["", "~", "null", "Null", "NULL"].contains (String.ofList cs)

/-- A form without its sign. -/
def dropSign : List Char → List Char
  | '-' :: cs => cs
  | '+' :: cs => cs
  | cs => cs

/-- A digit or an underscore. -/
def isDigitOrBar (c : Char) : Bool := c.isDigit || c = '_'

/-- A digit, then digits and underscores. -/
def isBarredNumeral : List Char → Bool
  | c :: cs => c.isDigit && cs.all isDigitOrBar
  | [] => false

/-- A minute or second in base sixty: one digit, or two up to 59. -/
def isSixtieth : List Char → Bool
  | [c] => c.isDigit
  | [a, b] => '0' ≤ a && a ≤ '5' && b.isDigit
  | _ => false

/-- An exponent of a decimal: its mark, a sign, digits; or nothing. -/
def isExponentForm : List Char → Bool
  | [] => true
  | e :: sign :: digits =>
    (e = 'e' || e = 'E') && (sign = '-' || sign = '+') && !digits.isEmpty &&
      digits.all Char.isDigit
  | _ => false

/-- The forms of floating-point numbers. -/
def isRealForm (cs : List Char) : Bool :=
  let unsigned := dropSign cs
  let whole := unsigned.takeWhile isDigitOrBar
  let rest := unsigned.dropWhile isDigitOrBar
  let afterPoint (p : Char → Bool) (tail : List Char → Bool) : Bool :=
    match rest with
    | '.' :: more => p (more.headD endMark) && tail (more.dropWhile isDigitOrBar)
    | _ => false
  let word := String.ofList unsigned
  (isBarredNumeral whole && afterPoint (fun _ => true) isExponentForm) ||
    (whole.isEmpty && unsigned.length = cs.length && afterPoint Char.isDigit isExponentForm) ||
    [".inf", ".Inf", ".INF"].contains word ||
    [".nan", ".NaN", ".NAN"].contains (String.ofList cs) ||
    (match (unsigned.takeWhile (· ≠ '.')).splitOn ':', unsigned.dropWhile (· ≠ '.') with
     | first :: second :: more, '.' :: fraction =>
       isBarredNumeral first && (second :: more).all isSixtieth && fraction.all isDigitOrBar
     | _, _ => false)

/-- Digits of a base and underscores, at least one. -/
def isMarkedForm (digit : Char → Bool) (cs : List Char) : Bool :=
  !cs.isEmpty && cs.all fun c => digit c || c = '_'

/-- The forms of whole numbers: in base two, eight, ten, sixteen and sixty. -/
def isWholeForm (cs : List Char) : Bool :=
  match dropSign cs with
  | ['0'] => true
  | '0' :: 'b' :: digits => isMarkedForm (fun c => c = '0' || c = '1') digits
  | '0' :: 'x' :: digits => isMarkedForm isHexDigit digits
  | '0' :: digits => isMarkedForm (fun c => '0' ≤ c && c ≤ '7') digits
  | digits =>
    match digits.splitOn ':' with
    | [numeral] => isBarredNumeral numeral
    | numeral :: more => isBarredNumeral numeral && more.all isSixtieth
    | [] => false

/-- The numbers and the remainder of a form that is read step by step. -/
def digitsThen (least most : Nat) (cs : List Char) : Option (List Char × List Char) :=
  let digits := (cs.take most).takeWhile Char.isDigit
  if digits.length < least then none else some (digits, cs.drop digits.length)

/-- What follows a given character. -/
def charThen (c : Char) : List Char → Option (List Char)
  | [] => none
  | d :: cs => if d = c then some cs else none

/-- The parts of a written time; a zone is universal time or a sign with hours and minutes. -/
structure TimeForm where
  year : List Char
  month : List Char
  day : List Char
  clock : Option (List Char × List Char × List Char × List Char)
  zone : Option (Option (Char × List Char × List Char))

/-- The zone at the end of a written time. -/
def readZone (cs : List Char) : Option (Option (Option (Char × List Char × List Char))) :=
  match cs, cs.dropWhile fun c => c = ' ' || c = '\t' with
  | [], _ => some none
  | _, ['Z'] => some (some none)
  | _, sign :: more =>
    if sign = '+' || sign = '-' then
      match digitsThen 1 2 more with
      | some (hours, []) => some (some (some (sign, hours, [])))
      | some (hours, ':' :: rest) =>
        match digitsThen 2 2 rest with
        | some (minutes, []) => some (some (some (sign, hours, minutes)))
        | _ => none
      | _ => none
    else none
  | _, [] => none

/-- What follows the mark between a date and a clock: a letter, or blanks. -/
def afterDate : List Char → Option (List Char)
  | 'T' :: cs => some cs
  | 't' :: cs => some cs
  | c :: cs =>
    if c = ' ' || c = '\t' then some (cs.dropWhile fun c => c = ' ' || c = '\t') else none
  | [] => none

/-- Reads a date, alone or with a clock and a zone. -/
def readTime (cs : List Char) : Option TimeForm := do
  let (year, cs) ← digitsThen 4 4 cs
  let (month, cs) ← digitsThen 1 2 (← charThen '-' cs)
  let (day, cs) ← digitsThen 1 2 (← charThen '-' cs)
  if cs.isEmpty then return ⟨year, month, day, none, none⟩
  let (hour, cs) ← digitsThen 1 2 (← afterDate cs)
  let (minute, cs) ← digitsThen 2 2 (← charThen ':' cs)
  let (second, cs) ← digitsThen 2 2 (← charThen ':' cs)
  let (fraction, cs) := match cs with
    | '.' :: more => (more.takeWhile Char.isDigit, more.dropWhile Char.isDigit)
    | _ => ([], cs)
  return ⟨year, month, day, some (hour, minute, second, fraction), ← readZone cs⟩

/-- The forms of dates and times. A date alone has two digits for month and day. -/
def isTimeForm (cs : List Char) : Bool :=
  match readTime cs with
  | none => false
  | some t => t.clock.isSome || (t.month.length = 2 && t.day.length = 2)

/-- The tag of the first form that fits. -/
def ofForm (cs : List Char) : Tag :=
  if isFlagForm cs then .flag
  else if isRealForm cs then .real 0
  else if isWholeForm cs then .whole
  else if cs = ['<', '<'] then .merge
  else if isNullForm cs then .null
  else if isTimeForm cs then .time
  else if cs = ['='] then .value
  else if cs = ['!'] || cs = ['&'] || cs = ['*'] then .other
  else .text

/-- A form without one newline at its end. -/
def dropNewline (cs : List Char) : List Char :=
  if cs.getLast? = some '\n' then cs.dropLast else cs

/-- The tag that a plain scalar has by its form; a newline alone is no form of null. -/
def ofPlain (cs : List Char) : Tag :=
  if cs = ['\n'] then .text else ofForm (dropNewline cs)

end Tag

end OpeningHand.Yaml
