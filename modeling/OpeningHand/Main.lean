import OpeningHand.CommandLine.Run
import Std.Time.Format

/-!
# The program

The command line on a real host: its files, its output and its clock. Nothing is decided here.
-/

namespace OpeningHand.Main

/-- The number and the words of a system's error. Some errors carry their number negated. -/
def faultOf (p : Files.Path) (e : IO.Error) : Files.Fault :=
  let number (code : UInt32) : Nat :=
    if code.toNat < Nat.pow 2 31 then code.toNat else Nat.pow 2 32 - code.toNat
  match e with
  | .alreadyExists _ code reason | .inappropriateType _ code reason
  | .invalidArgument _ code reason | .permissionDenied _ code reason
  | .resourceExhausted _ code reason | .noSuchThing _ code reason | .noFileOrDirectory _ code reason
  | .otherError code reason | .resourceBusy code reason | .unsupportedOperation code reason =>
    .ofNumber (number code) reason p.toText
  | e => .other 5 (toString e) p.toText

/-- Tries to use a file. -/
def attempt {α : Type} (p : Files.Path) (use : String → IO α) : IO (Except Files.Fault α) := do
  if p.toText.contains '\x00' then return .error .badName
  match ← (use p.toText).toBaseIO with
  | .ok a => return .ok a
  | .error e => return .error (faultOf p e)

/-- What the system knows of what is at a path. -/
def metadata (p : Files.Path) : IO (Except Files.Fault IO.FS.Metadata) := do
  let here ← IO.currentDir
  attempt p fun name => (here / name).metadata

/-- Whether something of a type is at a path; where nothing is, it is not. -/
def hasType (p : Files.Path) (type : IO.FS.FileType) : IO (Except Files.Fault Bool) := do
  match ← metadata p with
  | .ok found => return .ok (found.type == type)
  | .error (.missing _) | .error (.notADirectory _) | .error .badName => return .ok false
  | .error fault => return .error fault

/-- The bytes of a text or file as the system takes them. -/
def packed (bytes : List UInt8) : ByteArray :=
  ByteArray.mk bytes.toArray

instance : Host IO where
  read p := attempt p fun name => do return (← IO.FS.readBinFile name).toList
  write p bytes := attempt p fun name => IO.FS.writeBinFile name (packed bytes)
  append p bytes := attempt p fun name => do
    (← IO.FS.Handle.mk name .append).write (packed bytes)
  makeDirectory p := attempt p fun name => IO.FS.createDir name
  isFile p := hasType p .file
  isDirectory p := hasType p .dir
  isThere p := do return (← metadata p).toOption.isSome
  size? p := do
    return match ← metadata p with
      | .ok found => if found.type == .file then some found.byteSize.toNat else none
      | .error _ => none
  remove p := attempt p fun name => IO.FS.removeFile name
  rename p q := attempt p fun name => IO.FS.rename name q.toText
  say text := IO.print text
  complain text := IO.eprint text
  time := do return (← Std.Time.PlainDateTime.now).format "uuuu-MM-dd HH:mm:ss,SSS"

end OpeningHand.Main

/-- Runs the command line and gives its code to the system. -/
def main (words : List String) : IO UInt32 := do
  match ← (OpeningHand.CommandLine.run words : IO OpeningHand.CommandLine.Ending) with
  | .returned code => return code.toUInt32
  | .left code => return code.toUInt32
  | .failed e =>
    IO.eprintln ("Stopped: " ++ e.message)
    return 1
