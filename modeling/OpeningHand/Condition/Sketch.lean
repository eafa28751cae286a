import OpeningHand.Condition.Printer

/-!
# Sketches

Trees that look like conditions and were never checked: a quantity may be negative or have any
number of digits, an operator any text, a group empty, and any other value may stand where a
condition should. Writing one gives the text a condition would have, or fails on the first value,
from left to right, that is no condition at all or has a quantity with too many digits to be written.
-/

namespace OpeningHand

/-- A tree that was not checked; `other` is a value that is no condition, by its type's name. -/
inductive Sketch where
  | card (name : String) (quantity : Int) (operator : String)
  | group (connective : Connective) (members : List Sketch)
  | other (typeName : String)
  deriving Repr, Inhabited

/-- Why a sketch has no text: a value is no condition, or a quantity has too many digits. -/
inductive SketchFault where
  | unknown (typeName : String)
  | tooLong
  deriving Repr, DecidableEq

/-- The fault in words. -/
def SketchFault.message : SketchFault → String
  | .unknown typeName => "Unknown condition type: " ++ typeName
  | .tooLong => Number.tooLongMessage

namespace Sketch

mutual

/-- The characters of a sketch's text. -/
def chars? : Sketch → Except SketchFault (List Char)
  | .card name quantity operator =>
    -- only a single copy is not written, and that has few digits
    match Number.writeWhole? quantity with
    | none => .error .tooLong
    | some _ =>
      .ok (Condition.quantityText quantity (operator = Bound.atLeast.sign) name.toList ++
        name.toList)
  | .group connective members =>
    (charsAll? members).map (Condition.groupText connective)
  | .other typeName => .error (.unknown typeName)

/-- The texts of sketches in order, up to the first failure. -/
def charsAll? : List Sketch → Except SketchFault (List (List Char))
  | [] => .ok []
  | s :: ss =>
    match s.chars? with
    | .error e => .error e
    | .ok cs => (charsAll? ss).map (cs :: ·)

end

/-- The text of a sketch. -/
def render? (s : Sketch) : Except SketchFault String :=
  s.chars?.map String.ofList

/-- The texts of sketches in order, or the first failure. -/
def renderAll (ss : List Sketch) : Except SketchFault (List String) :=
  (charsAll? ss).map (·.map String.ofList)

mutual

/-- A condition as a sketch. -/
def ofCondition : Condition → Sketch
  | .card t => .card t.name t.quantity t.bound.sign
  | .group c members => .group c (ofConditions members)

/-- Conditions as sketches. -/
def ofConditions : List Condition → List Sketch
  | [] => []
  | c :: cs => ofCondition c :: ofConditions cs

end

end Sketch

end OpeningHand
