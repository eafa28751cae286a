import OpeningHand.Calendar
import OpeningHand.Condition.Fault
import OpeningHand.Condition.Sketch
import OpeningHand.Files.Fault
import OpeningHand.Ini.Fault
import OpeningHand.Problem
import OpeningHand.Text.Utf8
import OpeningHand.Yaml.Fault

/-!
# Failures

Every reason a job of this library can stop, with its wording. Failures fall into groups that decide
how far they travel: loading a document turns all it is responsible for into one failure that names
the source, the command line reports those and the failures of files, and what is left (faults of
the settings file, lapses) ends the program. `outside` is no failure of a job: it says that what
becomes of the input is not described here.
-/

namespace OpeningHand

/-- Why a text or number stands for no value of the kind that was asked for. -/
inductive ValueFault where
  | whole (fault : Number.WholeFault)
  | tooLong
  | decimal (text : List Char)
  | noCharacter
  | calendar (fault : CalendarFault)
  | flag (text : String)
  deriving Repr, DecidableEq

/-- The fault in words. -/
def ValueFault.message : ValueFault → String
  | .whole fault => fault.message
  | .tooLong => Number.tooLongMessage
  | .decimal text => "could not convert string to float: " ++ String.ofList (Text.quoted text)
  | .noCharacter => "chr() arg not in range(0x110000)"
  | .calendar fault => fault.message
  | .flag text => "Not a boolean: " ++ text

/-- What is wrong with the shape of a document. -/
inductive ShapeFault where
  | notAMap
  | deck
  | conditions
  | emptyName
  | details (name : String)
  | qty (name : String)
  | tags (name : String)
  | condition (index : Nat)
  | nameTwice (name : String)
  deriving Repr, DecidableEq

/-- The fault in words. -/
def ShapeFault.message : ShapeFault → String
  | .notAMap => "Invalid YAML structure: not an object"
  | .deck => "Invalid YAML structure: deck must be an object"
  | .conditions => "Invalid YAML structure: conditions must be an array"
  | .emptyName => "Invalid card name: deck keys must not be empty"
  | .details name => "Invalid card details for " ++ name
  | .qty name => "Invalid card structure for " ++ name ++ ": qty must be a number"
  | .tags name => "Invalid card structure for " ++ name ++ ": tags must be an array"
  | .condition index => "Invalid condition at index " ++ toString index ++ ": must be a string"
  | .nameTwice name => "Duplicate card name " ++ name

/-- A step for which some input has no answer at all. -/
inductive Lapse where
  | noEntry
  | noAttribute
  | noIndex
  | tooLarge
  | wrongType
  deriving Repr, DecidableEq

/-- Why a job stopped. -/
inductive Failure where
  | condition (text : List Text.Point) (error : Condition.ReadError)
  | sketch (fault : SketchFault)
  | problems (ps : List Problem)
  | cardName (name : Scalar)
  | cardDetails (name : String) (ps : List Problem)
  | shape (fault : ShapeFault)
  | load (source : String) (cause : Failure)
  | noMainSection
  | builder (text : String)
  | value (fault : ValueFault)
  | undecodable (fault : Text.Utf8Fault)
  | yaml (stage : Yaml.Stage)
  | file (fault : Files.Fault)
  | ini (fault : Ini.Fault)
  | lapse (lapse : Lapse)
  | outside
  deriving Repr, DecidableEq

namespace Failure

/-- The words that stand for a list of problems. -/
def problemsText : String := "<pydantic>"

/-- The words for a key that is no name; a number with too many digits is told that instead. -/
def keyMessage (key : Scalar) : String :=
  match key.inspect? with
  | some cs => "Invalid card name: " ++ String.ofList cs
  | none => Number.tooLongMessage

/-- A failure in words; a lapse has none, and neither has the end of what is described here. -/
def message : Failure → String
  | .condition text error => error.message text
  | .sketch fault => fault.message
  | .problems _ => problemsText
  | .cardName name => keyMessage name
  | .cardDetails name _ => "Invalid card details for " ++ name ++ ": " ++ problemsText
  | .shape fault => fault.message
  | .load source cause => "Failed to parse " ++ source ++ ": " ++ cause.message
  | .noMainSection => "No '#main' section found in YDK content"
  | .builder text => text
  | .value fault => fault.message
  | .undecodable fault => fault.message
  | .yaml stage => "<yaml " ++ stage.label ++ ">"
  | .file fault => fault.message
  | .ini fault => fault.message
  | .lapse _ | .outside => ""

/-- A failure that loading a document answers for. -/
def isOfDocument : Failure → Bool
  | .file _ | .ini _ | .lapse _ | .outside => false
  | _ => true

/-- A failure that the command line reports. -/
def isReported : Failure → Bool
  | .yaml _ | .ini _ | .lapse _ | .outside => false
  | _ => true

/-- The failure that a failure was explicitly made from. -/
def cause? : Failure → Option Failure
  | .load _ cause => some cause
  | .cardDetails _ ps => some (.problems ps)
  | _ => none

/-- The problems at the root of a failure. -/
def problems? : Failure → Option (List Problem)
  | .problems ps => some ps
  | .cardDetails _ ps => some ps
  | .load _ cause => cause.problems?
  | _ => none

end Failure

end OpeningHand
