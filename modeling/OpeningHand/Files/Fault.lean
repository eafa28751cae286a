import OpeningHand.Text.Quoted

/-!
# Faults of files

Why a file cannot be read, written or made, with the number that systems give to each reason.
-/

namespace OpeningHand.Files

/-- Why a file cannot be used. -/
inductive Fault where
  | missing (path : String)
  | occupied (path : String)
  | notADirectory (path : String)
  | isADirectory (path : String)
  | longName (path : String)
  | other (number : Nat) (reason path : String)
  | noSettings (path : String)
  | badName
  deriving Repr, DecidableEq

/-- A numbered reason with the path it is about. -/
def numbered (number : Nat) (reason path : String) : String :=
  "[Errno " ++ toString number ++ "] " ++ reason ++ ": " ++ Text.quote path

/-- A fault in words. -/
def Fault.message : Fault → String
  | .missing path => numbered 2 "No such file or directory" path
  | .occupied path => numbered 17 "File exists" path
  | .notADirectory path => numbered 20 "Not a directory" path
  | .isADirectory path => numbered 21 "Is a directory" path
  | .longName path => numbered 36 "File name too long" path
  | .other number reason path => numbered number reason path
  | .noSettings path => "The configuration file was not found at " ++ path
  | .badName => "embedded null byte"

/-- The fault with a number. -/
def Fault.ofNumber (number : Nat) (reason path : String) : Fault :=
  match number with
  | 2 => .missing path
  | 17 => .occupied path
  | 20 => .notADirectory path
  | 21 => .isADirectory path
  | 36 => .longName path
  | number => .other number reason path

end OpeningHand.Files
