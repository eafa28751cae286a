import OpeningHand.Text.Digit

/-!
# Binary numbers of 64 bits

Floating-point numbers with 53 significant bits, held as exact values: a sign, a whole mantissa and
a power of two. Every number has one form (`finite` values are normal: the mantissa fills 53 bits
unless the exponent is the least one), so equality of forms is equality of numbers, but for the two
zeros. What is no number is the same as itself alone: there is one that is written, and any other
has a label of its own. A quotient of whole numbers is rounded to the nearest number, a half to the
even mantissa.
-/

namespace OpeningHand.Number

/-- A floating-point number: `mantissa · 2 ^ exponent` with a sign, an infinity, or no number. -/
inductive Binary64 where
  | finite (negative : Bool) (mantissa : Nat) (exponent : Int)
  | infinite (negative : Bool)
  | nan
  | lone (label : Nat)
  deriving Repr, DecidableEq

namespace Binary64

/-- The least exponent, that of the numbers nearest to zero. -/
def minExponent : Int := -1074

/-- The largest exponent of a finite number. -/
def maxExponent : Int := 971

/-- Zero with a sign. -/
def zero (negative : Bool) : Binary64 := .finite negative 0 minExponent

/-- A quotient rounded to the nearest whole number, a half to the even one. -/
def roundDiv (num den : Nat) : Nat :=
  let q := num / den
  let twice := 2 * (num % den)
  if twice < den then q else if den < twice then q + 1 else q + q % 2

/-- The quotient of `num` by `2 ^ e · den`, rounded. -/
def scaledDiv (num den : Nat) (e : Int) : Nat :=
  match e with
  | .ofNat k => roundDiv num (den * Nat.pow 2 k)
  | .negSucc k => roundDiv (num * Nat.pow 2 (k + 1)) den

/-- The power of two below which a quotient lies within a factor of two: `num / den` is at least
`2 ^ k` and less than `2 ^ (k + 1)`. -/
def quotientLog (num den : Nat) : Int :=
  let k : Int := (Nat.log2 num : Int) - Nat.log2 den
  let reaches : Bool := match k with
    | .ofNat n => den * Nat.pow 2 n ≤ num
    | .negSucc n => den ≤ num * Nat.pow 2 (n + 1)
  if reaches then k else k - 1

/-- The number nearest to `num / den`. -/
def ofRatio (negative : Bool) (num den : Nat) : Binary64 :=
  if num = 0 then zero negative
  else
    let e := max (quotientLog num den - 52) minExponent
    let m := scaledDiv num den e
    let (m, e) := if m = Nat.pow 2 53 then (Nat.pow 2 52, e + 1) else (m, e)
    if maxExponent < e then .infinite negative else .finite negative m e

/-- The number nearest to `digits · 10 ^ exponent`. Exponents far out of range are answered without
computing the power. -/
def ofDecimal (negative : Bool) (digits : Nat) (exponent : Int) : Binary64 :=
  let size : Int := (Text.decimalDigits digits).length + exponent
  if digits = 0 || size < -400 then zero negative
  else if 400 < size then .infinite negative
  else
    match exponent with
    | .ofNat k => ofRatio negative (digits * Nat.pow 10 k) 1
    | .negSucc k => ofRatio negative digits (Nat.pow 10 (k + 1))

/-- The number nearest to a whole number. -/
def ofInt (n : Int) : Binary64 :=
  ofRatio (n < 0) n.natAbs 1

/-- A magnitude with a sign. -/
def signed (negative : Bool) (m : Nat) : Int :=
  if negative then -(m : Int) else m

/-- The number nearest to `n · 2 ^ e`, with the given sign if it is zero. -/
def ofScaled (zeroSign : Bool) (n : Int) (e : Int) : Binary64 :=
  if n = 0 then zero zeroSign
  else
    match e with
    | .ofNat k => ofRatio (n < 0) (n.natAbs * Nat.pow 2 k) 1
    | .negSucc k => ofRatio (n < 0) n.natAbs (Nat.pow 2 (k + 1))

/-- The sum, rounded. -/
def add : Binary64 → Binary64 → Binary64
  | .infinite s, .infinite t => if s = t then .infinite s else .nan
  | .infinite s, .finite _ _ _ => .infinite s
  | .finite _ _ _, .infinite t => .infinite t
  | .finite s m e, .finite t n f =>
    let low := min e f
    ofScaled (s && t)
      (signed s m * Nat.pow 2 (e - low).toNat + signed t n * Nat.pow 2 (f - low).toNat) low
  | _, _ => .nan

/-- The product, rounded. -/
def mul : Binary64 → Binary64 → Binary64
  | .infinite s, .infinite t => .infinite (s != t)
  | .infinite s, .finite t m _ => if m = 0 then .nan else .infinite (s != t)
  | .finite s m _, .infinite t => if m = 0 then .nan else .infinite (s != t)
  | .finite s m e, .finite t n f => ofScaled (s != t) (signed (s != t) (m * n)) (e + f)
  | _, _ => .nan

/-- The number with the other sign. -/
def neg : Binary64 → Binary64
  | .infinite s => .infinite (!s)
  | .finite s m e => .finite (!s) m e
  | x => x

/-- The outcome of a computation; what is no number gets a label. -/
def labelled (label : Nat) : Binary64 → Binary64
  | .nan => .lone label
  | x => x

/-- The whole number that a number is, if it is one. -/
def toInt? : Binary64 → Option Int
  | .finite s m (.ofNat k) => some (signed s (m * Nat.pow 2 k))
  | .finite s m (.negSucc k) =>
    if m % Nat.pow 2 (k + 1) = 0 then some (signed s (m / Nat.pow 2 (k + 1))) else none
  | _ => none

/-- Neither infinite nor no number at all. -/
def isFinite : Binary64 → Bool
  | .finite _ _ _ => true
  | _ => false

end Binary64

end OpeningHand.Number
