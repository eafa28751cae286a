import OpeningHand.Number.Binary64

/-!
# Shortest decimals

A floating-point number as text: the fewest digits that read back as the same number, and of those
the ones nearest to it. Numbers from a ten-thousandth up to ten to the sixteenth are written with a
point, the others with an exponent of at least two digits.
-/

namespace OpeningHand.Number

namespace Binary64

/-- The least `k`, up to `fuel`, with `den ≤ num · 10 ^ k`. -/
def decimalShift (num den : Nat) : (fuel : Nat) → Nat
  | 0 => 0
  | fuel + 1 => if den ≤ num then 0 else decimalShift (num * 10) den fuel + 1

/-- A positive quotient's place: `p` with `num / den` at least `10 ^ (p - 1)` and less than
`10 ^ p`. -/
def decimalPoint (num den : Nat) : Int :=
  if den ≤ num then ((Text.decimalDigits (num / den)).length : Int)
  else 1 - (decimalShift num den 400 : Int)

/-- `num / den · 10 ^ k` as a quotient. -/
def shifted (num den : Nat) : Int → Nat × Nat
  | .ofNat k => (num * Nat.pow 10 k, den)
  | .negSucc k => (num, den * Nat.pow 10 (k + 1))

/-- The decimal of `count` digits nearest to `num / den` among those that read back as `x`: its
digits as a number. `p` is the place of the quotient. -/
def withDigits? (x : Binary64) (num den : Nat) (p : Int) (count : Nat) : Option Nat :=
  let scale : Int := (count : Int) - p
  let (n, d) := shifted num den scale
  let low := n / d
  let reads := fun digits => ofDecimal false digits (-scale) = x
  let nearest := roundDiv n d
  if reads nearest then some nearest
  else if reads low then some low
  else if reads (low + 1) then some (low + 1)
  else none

/-- The first count of digits, from `count` on, with a decimal that reads back. -/
def fewestDigits (x : Binary64) (num den : Nat) (p : Int) (count : Nat) : (fuel : Nat) → Nat × Int
  | 0 => (0, p)
  | fuel + 1 =>
    match withDigits? x num den p count with
    | some digits => (digits, p - count)
    | none => fewestDigits x num den p (count + 1) fuel

/-- A positive finite number as digits without trailing zeros and the place of the point: the
digits `d₁d₂…` and `p` stand for `0.d₁d₂… · 10 ^ p`. -/
def shortest (m : Nat) (e : Int) : List Char × Int :=
  let (num, den) := match e with
    | .ofNat k => (m * Nat.pow 2 k, 1)
    | .negSucc k => (m, Nat.pow 2 (k + 1))
  let (digits, exponent) := fewestDigits (.finite false m e) num den (decimalPoint num den) 1 17
  let chars := Text.decimalDigits digits
  ((chars.reverse.dropWhile (· = '0')).reverse, exponent + chars.length)

/-- Digits and the place of the point as text. -/
def decimalText (digits : List Char) (p : Int) : List Char :=
  if -4 < p && p ≤ 16 then
    match p with
    | .ofNat k =>
      let whole := digits.take k ++ List.replicate (k - digits.length) '0'
      let fraction := digits.drop k
      (if whole.isEmpty then ['0'] else whole) ++
        '.' :: (if fraction.isEmpty then ['0'] else fraction)
    | .negSucc k => '0' :: '.' :: (List.replicate (k + 1) '0' ++ digits)
  else
    let exponent := p - 1
    let mantissa := match digits with
      | [] => []
      | [d] => [d]
      | d :: ds => d :: '.' :: ds
    mantissa ++ 'e' :: (if exponent < 0 then '-' else '+') ::
      Text.paddedDigits 2 exponent.natAbs

/-- A number as text. -/
def chars : Binary64 → List Char
  | .nan | .lone _ => ['n', 'a', 'n']
  | .infinite negative => (if negative then ['-'] else []) ++ ['i', 'n', 'f']
  | .finite negative m e =>
    (if negative then ['-'] else []) ++
      (if m = 0 then ['0', '.', '0']
       else
        let (digits, p) := shortest m e
        decimalText digits p)

end Binary64

end OpeningHand.Number
