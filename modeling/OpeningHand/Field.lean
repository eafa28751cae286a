import OpeningHand.Problem
import OpeningHand.Text.Utf8

/-!
# Fields

How single values are read from data that was written by people: a count may be a numeral or a
float without a fraction, a truth value one of several words, a text a string of bytes. Each reader
either answers with the value or with the one problem it has.
-/

namespace OpeningHand.Field

/-! ## Whole numbers -/

/-- A numeral as data writes it: an optional minus sign and decimal digits without leading zeros. -/
inductive Numeral where
  | number (n : Int)
  | tooLong
  | malformed
  deriving Repr, DecidableEq

/-- Reads a numeral after its sign; the sign counts against the most digits a numeral may have. -/
def numeralDigits (negative : Bool) (cs : List Char) : Numeral :=
  match cs with
  | [] => .malformed
  | '0' :: rest => if rest.isEmpty then .number 0 else .malformed
  | _ =>
    let digits := cs.takeWhile Text.isAsciiDigit
    if digits.isEmpty then .malformed
    else if Number.maxDigits < digits.length + negative.toNat then .tooLong
    else if digits.length < cs.length then .malformed
    else
      let n := Text.decimalValue digits
      .number (if negative then -(n : Int) else n)

/-- Reads a numeral. -/
def Numeral.read : List Char → Numeral
  | '-' :: cs => numeralDigits true cs
  | cs => numeralDigits false cs

/-- What follows the leading zeros after a first zero; `last` is the character just passed. -/
def afterZeros (last : Char) : List Char → Option (List Char)
  | [] => some [last]
  | c :: cs =>
    if c = '0' || c = '_' then afterZeros c cs
    else if '1' ≤ c && c ≤ '9' then some (c :: cs)
    else if c = '.' then some (last :: c :: cs)
    else none

/-- A numeral without its leading zeros. -/
def dropZeros : List Char → Option (List Char)
  | [] => none
  | c :: cs =>
    if c = '0' then afterZeros c cs
    else if ('1' ≤ c && c ≤ '9') || c = '-' then some (c :: cs)
    else none

/-- A numeral without a fraction of zeros. -/
def dropFraction (cs : List Char) : List Char :=
  match cs.dropWhile (· ≠ '.') with
  | '.' :: zeros => if zeros.all (· = '0') then cs.takeWhile (· ≠ '.') else cs
  | _ => cs

/-- Two underscores stand side by side. -/
def hasDoubleUnderscore : List Char → Bool
  | '_' :: '_' :: _ => true
  | _ :: cs => hasDoubleUnderscore cs
  | [] => false

/-- A numeral without its underscores, if all stand singly inside it. -/
def dropUnderscores (cs : List Char) : List Char :=
  if cs.head? = some '_' || cs.getLast? = some '_' || hasDoubleUnderscore cs then cs
  else cs.filter (· ≠ '_')

/-- A numeral in its plain form: no blanks around it, no plus sign, no leading zeros, no fraction of
zeros, no underscores. -/
def plainNumeral (cs : List Char) : Option (List Char) := do
  let cs := Text.trimBy Number.isNumeralBlank cs
  let cs ← match cs with
    | '+' :: '-' :: _ => none
    | '+' :: rest => some rest
    | _ => some cs
  return dropUnderscores (dropFraction (← dropZeros cs))

/-- Reads a whole number from a text. -/
def wholeOfText (cs : List Char) : Checked Int :=
  match Numeral.read cs with
  | .number n => .ok n
  | .tooLong => .problem .outOfSize
  | .malformed =>
    match (plainNumeral cs).map Numeral.read with
    | some (.number n) => .ok n
    | some .tooLong => .problem .outOfSize
    | _ => .problem .notNumeral

/-- The bound on whole numbers that a float may stand for. -/
def floatBound : Int := Nat.pow 2 63

/-- Reads a whole number from a float. -/
def wholeOfReal (x : Number.Binary64) : Checked Int :=
  if !x.isFinite then .problem .notFinite
  else
    match x.toInt? with
    | none => .problem .fractional
    | some n => if -floatBound < n && n < floatBound then .ok n else .problem .outOfSize

/-- Reads a whole number; a truth value counts as zero or one. -/
def whole : Data → Checked Int
  | .scalar (.flag b) => .ok b.toNat
  | .scalar (.whole n) => .ok n
  | .scalar (.real x) => wholeOfReal x
  | .scalar (.text s) => wholeOfText s.toList
  | .scalar (.bytes bs) =>
    match Text.decodeUtf8 bs with
    | .ok cs => wholeOfText cs
    | .error _ => .problem .notNumeral
  | .torn _ => .problem .undecodableText
  | _ => .problem .notWhole

/-- Reads a whole number that is not negative. -/
def count (d : Data) : Checked Nat :=
  match whole d with
  | .ok (.ofNat n) => .ok n
  | .ok (.negSucc _) => .problem .negative
  | .error ps => .error ps

/-! ## Truth values and texts -/

/-- The words for false. -/
def falseWords : List String := ["0", "off", "f", "false", "n", "no"]

/-- The words for true. -/
def trueWords : List String := ["1", "on", "t", "true", "y", "yes"]

/-- Reads a truth value from a text, in any case. -/
def flagOfText (cs : List Char) : Checked Bool :=
  let word := String.ofList (cs.map Char.toLower)
  if falseWords.contains word then .ok false
  else if trueWords.contains word then .ok true
  else .problem .unclearFlag

/-- Reads a truth value from a number. -/
def flagOfWhole (n : Int) : Checked Bool :=
  if n = 0 then .ok false else if n = 1 then .ok true else .problem .unclearFlag

/-- Reads a truth value. -/
def flag : Data → Checked Bool
  | .scalar (.flag b) => .ok b
  | .scalar (.whole n) =>
    if -floatBound ≤ n && n < floatBound then flagOfWhole n else .problem .notFlag
  | .scalar (.real x) =>
    match wholeOfReal x with
    | .ok n => flagOfWhole n
    | .error _ => .problem .notFlag
  | .scalar (.text s) => flagOfText s.toList
  | .scalar (.bytes bs) =>
    match Text.decodeUtf8 bs with
    | .ok cs => flagOfText cs
    | .error _ => .problem .unclearFlag
  | .torn _ => .problem .undecodableText
  | _ => .problem .notFlag

/-- Reads a text; bytes are read as UTF-8. -/
def text : Data → Checked String
  | .scalar (.text s) => .ok s
  | .scalar (.bytes bs) =>
    match Text.decodeUtf8 bs with
    | .ok cs => .ok (String.ofList cs)
    | .error _ => .problem .undecodableText
  | .torn _ => .problem .undecodableText
  | _ => .problem .notText

end OpeningHand.Field
