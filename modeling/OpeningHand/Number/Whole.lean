import OpeningHand.Number.Limit
import OpeningHand.Text.Blank
import OpeningHand.Text.Digit
import OpeningHand.Text.Quoted

/-!
# Whole numbers as text

Reading a whole number in base two, eight, ten or sixteen. A numeral may have blanks around it, a
sign, in the bases other than ten the usual two-character mark, and an underscore between digits;
decimal digits of any script count. A numeral in base ten is held to the limit on digits, the others
are not. Writing knows base ten alone and the same limit.
-/

namespace OpeningHand.Number

/-- The bases of numerals. -/
inductive Base where
  | two
  | eight
  | ten
  | sixteen
  deriving Repr, DecidableEq

/-- The number a base is. -/
def Base.value : Base → Nat
  | .two => 2
  | .eight => 8
  | .ten => 10
  | .sixteen => 16

/-- The letter of the mark that may stand before a numeral, after a zero. -/
def Base.letter? : Base → Option Char
  | .two => some 'b'
  | .eight => some 'o'
  | .ten => none
  | .sixteen => some 'x'

/-- Why a text is no whole number. -/
inductive WholeFault where
  | notANumeral (base : Base) (text : List Char)
  | tooManyDigits (count : Nat)
  deriving Repr, DecidableEq

/-- The fault in words; a long text is cut off. -/
def WholeFault.message : WholeFault → String
  | .notANumeral base text =>
    "invalid literal for int() with base " ++ toString base.value ++ ": " ++
      String.ofList ((Text.quoted text).take 200)
  | .tooManyDigits count => tooManyDigitsMessage count

/-- A blank around a numeral; the separators U+001C to U+001F are none here. -/
def isNumeralBlank (c : Char) : Bool :=
  Text.isBlank c && !(0x1c ≤ c.toNat && c.toNat ≤ 0x1f)

/-- The value of a digit in any base up to sixteen. -/
def digitValue? (c : Char) : Option Nat :=
  match Text.decimal? c with
  | some d => some d
  | none =>
    let n := c.toNat
    if 0x61 ≤ n && n ≤ 0x66 then some (n - 0x57)
    else if 0x41 ≤ n && n ≤ 0x46 then some (n - 0x37)
    else none

/-- The value of a digit of one base. -/
def digitIn? (base : Base) (c : Char) : Option Nat :=
  (digitValue? c).filter (· < base.value)

/-- How a run of digits ends. -/
inductive Run where
  /-- The digits' values, last first, and what follows them. -/
  | digits (values : List Nat) (rest : List Char)
  /-- An underscore that stands at no digit or beside another. -/
  | loose

/-- Reads digits with single underscores between them. `values` are the digits so far, last first;
`afterDigit` tells whether the character before was a digit. -/
def readRun (base : Base) (values : List Nat) (afterDigit : Bool) : List Char → Run
  | [] => if afterDigit then .digits values [] else .loose
  | c :: cs =>
    if c = '_' then
      if afterDigit then readRun base values false cs else .loose
    else
      match digitIn? base c with
      | some d => readRun base (d :: values) true cs
      | none => if afterDigit then .digits values (c :: cs) else .loose

/-- The number that digit values denote, most significant first. -/
def valueOf (base : Base) (values : List Nat) : Nat :=
  values.foldl (fun n d => n * base.value + d) 0

/-- A numeral after its sign, without the mark of its base. An underscore may stand after the
mark. -/
def dropMark (base : Base) : List Char → List Char
  | cs@('0' :: c :: rest) =>
    match base.letter? with
    | some letter =>
      if c.toLower = letter then
        match rest with
        | '_' :: digits => digits
        | digits => digits
      else cs
    | none => cs
  | cs => cs

/-- A sign and what follows it. -/
def splitSign : List Char → Bool × List Char
  | '-' :: cs => (true, cs)
  | '+' :: cs => (false, cs)
  | cs => (false, cs)

/-- Reads a whole number. -/
def readWhole (base : Base) (text : List Char) : Except WholeFault Int :=
  let (negative, unsigned) := splitSign (Text.trimBy isNumeralBlank text)
  match readRun base [] false (dropMark base unsigned) with
  | .loose => .error (.notANumeral base text)
  | .digits values rest =>
    if base = .ten && maxDigits < values.length then .error (.tooManyDigits values.length)
    else if !rest.isEmpty then .error (.notANumeral base text)
    else
      let n := valueOf base values.reverse
      .ok (if negative then -(n : Int) else n)

/-- A whole number in base ten, without the limit on digits. -/
def wholeDigits : Int → List Char
  | .ofNat n => Text.decimalDigits n
  | .negSucc n => '-' :: Text.decimalDigits (n + 1)

/-- A whole number in base ten, if it has few enough digits. -/
def writeWhole? (n : Int) : Option (List Char) :=
  if Nat.pow 10 maxDigits ≤ n.natAbs then none else some (wholeDigits n)

end OpeningHand.Number
