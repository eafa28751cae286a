import OpeningHand.CommandLine.Form
import OpeningHand.Text.Blank
import OpeningHand.Text.Digit

/-!
# Pieces of command lines

What each word of a command line is by its look: a plain word, the mark `--` after which every word
is plain, or an option. An option may be shortened as long as one name is left that it can mean; its
value may be attached, after an equals sign or, behind a name of one letter, right away. Negative
numbers and words with a space inside are plain.
-/

namespace OpeningHand.CommandLine

/-- A text attached to the name of an option. -/
structure Attached where
  byEquals : Bool
  text : List Char
  deriving Repr, DecidableEq

/-- An option that a word means, by one of its names. -/
structure Hit where
  option : Opt
  name : List Char
  attached : Option Attached
  deriving Repr, DecidableEq

/-- A word by its look; an option that the form does not know has no hit. -/
inductive Piece where
  | mark
  | word (text : String)
  | option (text : String) (hit : Option Hit)
  deriving Repr, DecidableEq

/-- The word that a piece was. -/
def Piece.text : Piece → String
  | .mark => "--"
  | .word text => text
  | .option text _ => text

namespace Form

/-- The options of a form under each of their names. -/
def named (f : Form) : List (List Char × Opt) :=
  f.options.flatMap fun o => o.names.map fun name => (name.toList, o)

/-- The option with exactly a name. -/
def option? (f : Form) (name : List Char) : Option Opt :=
  f.named.lookup name

/-- A word cut at its first equals sign. -/
def cutAtEquals (cs : List Char) : Option (List Char × List Char) :=
  match cs.dropWhile (· ≠ '=') with
  | [] => none
  | _ :: value => some (cs.takeWhile (· ≠ '='), value)

/-- What a word that starts with two hyphens can mean: each name that starts with it. -/
def longHits (f : Form) (cs : List Char) : List Hit :=
  let (lead, attached) :=
    match cutAtEquals cs with
    | none => (cs, none)
    | some (lead, value) => (lead, some ⟨true, value⟩)
  f.named.filterMap fun (name, o) =>
    if (Text.after? lead name).isSome then some ⟨o, name, attached⟩ else none

/-- What a word that starts with one hyphen can mean: the option of its first letter with the rest
attached, or a name that starts with all of it. -/
def shortHits (f : Form) (cs : List Char) : List Hit :=
  f.named.filterMap fun (name, o) =>
    if name = cs.take 2 then some ⟨o, name, some ⟨false, cs.drop 2⟩⟩
    else if (Text.after? cs name).isSome then some ⟨o, name, none⟩
    else none

/-- A negative number, perhaps with a fraction, perhaps with a newline at its end. -/
def isNegativeNumber (cs : List Char) : Bool :=
  match cs with
  | '-' :: cs =>
    let cs := if cs.getLast? = some '\n' then cs.dropLast else cs
    match cs.dropWhile Text.isDecimal with
    | [] => !cs.isEmpty
    | '.' :: fraction => !fraction.isEmpty && fraction.all Text.isDecimal
    | _ => false
  | _ => false

/-- What a word of hyphens and more is when no name is spelled out in it. -/
def guess (f : Form) (text : String) (cs : List Char) : Except Misuse Piece :=
  let hits := if (Text.after? ['-', '-'] cs).isSome then f.longHits cs else f.shortHits cs
  match hits with
  | [] =>
    .ok (if isNegativeNumber cs || cs.contains ' ' then .word text else .option text none)
  | [hit] => .ok (.option text (some hit))
  | hits => .error (.ambiguous text (hits.map fun hit => String.ofList hit.name))

/-- What a word is. -/
def piece (f : Form) (text : String) : Except Misuse Piece :=
  let cs := text.toList
  if cs.head? ≠ some '-' then .ok (.word text)
  else
    match f.option? cs with
    | some o => .ok (.option text (some ⟨o, cs, none⟩))
    | none =>
      if cs = ['-'] then .ok (.word text)
      else
        match cutAtEquals cs with
        | none => f.guess text cs
        | some (name, value) =>
          match f.option? name with
          | some o => .ok (.option text (some ⟨o, name, some ⟨true, value⟩⟩))
          | none => f.guess text cs

/-- The pieces of a command line. -/
def pieces (f : Form) : List String → Except Misuse (List Piece)
  | [] => .ok []
  | text :: texts =>
    if text = "--" then .ok (.mark :: texts.map .word)
    else do return (← f.piece text) :: (← f.pieces texts)

end Form

end OpeningHand.CommandLine
