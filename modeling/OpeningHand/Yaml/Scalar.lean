import OpeningHand.Number.Decimal
import OpeningHand.Text.Base64
import OpeningHand.Text.Lowercase
import OpeningHand.Yaml.Node

/-!
# Values of scalars

What a scalar with a given tag stands for. A scalar with a tag of its own may have any text, so each
reader says what becomes of a text that does not have the form of its tag: some are faults of the
value, and a few are met by no rule at all and lapse.
-/

namespace OpeningHand.Yaml

/-- The failure of a node that stands for no value. -/
def badValue : Failure := .yaml .construction

/-- The value of a truth word, in any case. -/
def flagValue (cs : List Char) : Except Failure Bool :=
  let word := String.ofList (Text.lower cs)
  if ["yes", "true", "on"].contains word then .ok true
  else if ["no", "false", "off"].contains word then .ok false
  else .error (.lapse .noEntry)

/-- A whole number in one base. -/
def wholeIn (base : Number.Base) (cs : List Char) : Except Failure Int :=
  (Number.readWhole base cs).mapError fun e => .value (.whole e)

/-- Whole numbers in base sixty, least significant last. -/
def sixtieths (n : Int) : List (List Char) → Except Failure Int
  | [] => .ok n
  | part :: parts => do sixtieths (n * 60 + (← wholeIn .ten part)) parts

/-- A whole number without its sign: the leading marks tell the base, a zero alone means eight. -/
def unsignedWhole (cs : List Char) : Except Failure Int :=
  match cs with
  | [] => .error (.lapse .noIndex)
  | ['0'] => .ok 0
  | '0' :: 'b' :: digits => wholeIn .two digits
  | '0' :: 'x' :: digits => wholeIn .sixteen digits
  | '0' :: _ => wholeIn .eight cs
  | _ => if cs.contains ':' then sixtieths 0 (cs.splitOn ':') else wholeIn .ten cs

/-- A text's sign, and what follows it. -/
def signThen (cs : List Char) : Except Failure (Bool × List Char) :=
  match cs with
  | [] => .error (.lapse .noIndex)
  | c :: rest => .ok (c = '-', if c = '-' || c = '+' then rest else cs)

/-- A whole number. -/
def wholeValue (cs : List Char) : Except Failure Int := do
  let (negative, unsigned) ← signThen (cs.filter (· ≠ '_'))
  let n ← unsignedWhole unsigned
  return if negative then -n else n

/-- A floating-point number in base ten. -/
def decimalIn (cs : List Char) : Except Failure Number.Binary64 :=
  match Number.readDecimal? cs with
  | some x => .ok x
  | none => .error (.value (.decimal cs))

/-- The sum of numbers with their places in base sixty, least significant first. -/
def sumSixtieths (sum : Number.Binary64) (place : Int) :
    List Number.Binary64 → Except Failure Number.Binary64
  | [] => .ok sum
  | x :: xs =>
    match Number.Binary64.ofInt place with
    | .infinite _ => .error (.lapse .tooLarge)
    | p => sumSixtieths (sum.add (x.mul p)) (place * 60) xs

/-- The floating-point number at a place. One that is no number is another at every place, but for
the one that is written as such. -/
def realValue (place : Nat) (cs : List Char) : Except Failure Number.Binary64 := do
  let (negative, unsigned) ← signThen (Text.lower (cs.filter (· ≠ '_')))
  let signed (x : Number.Binary64) := (if negative then x.neg else x).labelled place
  if unsigned = ".inf".toList then return .infinite negative
  else if unsigned = ".nan".toList then return .nan
  else if unsigned.contains ':' then do
    let parts ← (unsigned.splitOn ':').mapM decimalIn
    return signed (← sumSixtieths (.zero false) 1 parts.reverse)
  else return signed (← decimalIn unsigned)

/-- Bytes in base 64. -/
def bytesValue (cs : List Char) : Except Failure (List UInt8) :=
  if cs.all fun c => c.toNat < 0x80 then
    match Text.decodeBase64 cs with
    | some bs => .ok bs
    | none => .error badValue
  else .error badValue

/-- A fraction of a second in microseconds; further digits are cut off. -/
def microseconds (fraction : List Char) : Nat :=
  let digits := fraction.take 6
  Text.decimalValue (digits ++ List.replicate (6 - digits.length) '0')

/-- The offset of a zone from universal time in minutes. -/
def zoneOffset : Option (Char × List Char × List Char) → Int
  | none => 0
  | some (sign, hours, minutes) =>
    let n : Int := Text.decimalValue hours * 60 + Text.decimalValue minutes
    if sign = '-' then -n else n

/-- A date, or a time with or without a zone. -/
def timeValue (cs : List Char) : Except Failure Scalar :=
  match Tag.readTime (Tag.dropNewline cs) with
  | none => .error (.lapse .noAttribute)
  | some t =>
    let year := Text.decimalValue t.year
    let month := Text.decimalValue t.month
    let day := Text.decimalValue t.day
    let value := match t.clock with
      | none => (Date.ofNumbers year month day).map Scalar.date
      | some (hour, minute, second, fraction) =>
        (Moment.ofNumbers year month day (Text.decimalValue hour) (Text.decimalValue minute)
          (Text.decimalValue second) (microseconds fraction) (t.zone.map zoneOffset)).map
            Scalar.moment
    value.mapError fun e => .value (.calendar e)

/-- The value of a text with a tag for scalars. -/
def scalarValue (tag : Tag) (cs : List Char) : Except Failure Scalar :=
  match tag with
  | .null => .ok .null
  | .flag => (flagValue cs).map .flag
  | .whole => (wholeValue cs).map .whole
  | .real place => (realValue place cs).map .real
  | .binary => (bytesValue cs).map .bytes
  | .time => timeValue cs
  | .text => .ok (.text (String.ofList cs))
  | _ => .error badValue

end OpeningHand.Yaml
