/-!
# Decimal digits

Digits of every script. The Unicode decimal digits come in runs of ten, zero to nine in order, so
the table holds the zero of each run and a digit's value is its distance from that zero. A second,
wider class adds the digit signs that belong to no run of ten (superscripts, circled digits): they
are digits to the eye, yet have no place in a numeral.
-/

namespace OpeningHand.Text

/-- The zero of each run of ten decimal digits. -/
def decimalZeros : List Nat :=
  [0x30, 0x660, 0x6f0, 0x7c0, 0x966, 0x9e6, 0xa66, 0xae6, 0xb66, 0xbe6, 0xc66, 0xce6, 0xd66,
    0xde6, 0xe50, 0xed0, 0xf20, 0x1040, 0x1090, 0x17e0, 0x1810, 0x1946, 0x19d0, 0x1a80, 0x1a90,
    0x1b50, 0x1bb0, 0x1c40, 0x1c50, 0xa620, 0xa8d0, 0xa900, 0xa9d0, 0xa9f0, 0xaa50, 0xabf0,
    0xff10, 0x104a0, 0x10d30, 0x11066, 0x110f0, 0x11136, 0x111d0, 0x112f0, 0x11450, 0x114d0,
    0x11650, 0x116c0, 0x11730, 0x118e0, 0x11950, 0x11c50, 0x11d50, 0x11da0, 0x16a60, 0x16ac0,
    0x16b50, 0x1d7ce, 0x1d7d8, 0x1d7e2, 0x1d7ec, 0x1d7f6, 0x1e140, 0x1e2f0, 0x1e950, 0x1fbf0]

/-- The digit signs outside the runs of ten, as closed ranges. -/
def digitSigns : List (Nat × Nat) :=
  [(0xb2, 0xb3), (0xb9, 0xb9), (0x1369, 0x1371), (0x19da, 0x19da), (0x2070, 0x2070),
    (0x2074, 0x2079), (0x2080, 0x2089), (0x2460, 0x2468), (0x2474, 0x247c), (0x2488, 0x2490),
    (0x24ea, 0x24ea), (0x24f5, 0x24fd), (0x24ff, 0x24ff), (0x2776, 0x277e), (0x2780, 0x2788),
    (0x278a, 0x2792), (0x10a40, 0x10a43), (0x10e60, 0x10e68), (0x11052, 0x1105a),
    (0x1f100, 0x1f10a)]

/-- The value of a code point in the first run that holds it. -/
def digitIn (n : Nat) : List Nat → Option Nat
  | [] => none
  | first :: rest => if first ≤ n && n ≤ first + 9 then some (n - first) else digitIn n rest

/-- The value of a decimal digit of any script. -/
def decimal? (c : Char) : Option Nat :=
  digitIn c.toNat decimalZeros

/-- A decimal digit of any script. -/
def isDecimal (c : Char) : Bool :=
  (decimal? c).isSome

/-- A digit sign: a decimal digit, or a sign such as a superscript or circled digit. -/
def isDigitSign (c : Char) : Bool :=
  isDecimal c || digitSigns.any fun r => r.1 ≤ c.toNat && c.toNat ≤ r.2

/-- A decimal digit of ASCII. -/
def isAsciiDigit (c : Char) : Bool :=
  '0' ≤ c && c ≤ '9'

/-- The number that decimal digits denote, most significant first, continuing from `n`. -/
def decimalFrom (n : Nat) : List Char → Nat
  | [] => n
  | c :: cs => decimalFrom (n * 10 + (decimal? c).getD 0) cs

/-- The number that decimal digits of any script denote. -/
def decimalValue (cs : List Char) : Nat :=
  decimalFrom 0 cs

/-- The decimal digits of a number, without leading zeros. -/
def decimalDigits (n : Nat) : List Char :=
  Nat.toDigits 10 n

/-- The decimal digits of a number, filled up with zeros on the left to at least `width`. -/
def paddedDigits (width n : Nat) : List Char :=
  let digits := decimalDigits n
  List.replicate (width - digits.length) '0' ++ digits

end OpeningHand.Text
