/-!
# How long a numeral may be

Conversions between numerals in base ten and numbers take time that grows with the square of the
length, so both directions stop at a fixed number of digits. The two directions word it apart: a
numeral that was read is told its own length.
-/

namespace OpeningHand.Number

/-- The most digits that a numeral in base ten may have. -/
def maxDigits : Nat := 4300

/-- The words for a numeral with too many digits. -/
def tooManyDigitsMessage (count : Nat) : String :=
  "Exceeds the limit (" ++ toString maxDigits ++
    " digits) for integer string conversion: value has " ++ toString count ++
    " digits; use sys.set_int_max_str_digits() to increase the limit"

/-- The words for a number that would need too many digits. -/
def tooLongMessage : String :=
  "Exceeds the limit (" ++ toString maxDigits ++
    " digits) for integer string conversion; use sys.set_int_max_str_digits() to increase the limit"

end OpeningHand.Number
