import OpeningHand.Ini.Fault
import OpeningHand.Text.Blank
import OpeningHand.Text.Lowercase

/-!
# Stores of options

Options with their values, by section. One section holds values for all others: an option that a
section does not have is looked up there. Names of options are compared in lower case, those of
sections as they are.

A value may refer to other options of its section, which are put in when the value is asked for; a
percent sign is written twice to stand for itself.
-/

namespace OpeningHand.Ini

/-- Options and their values in order. -/
abbrev Options := List (String × String)

/-- Options by section, and those that hold for all sections. -/
structure Store where
  defaults : Options
  sections : List (String × Options)
  deriving Repr, DecidableEq

/-- The name of the section that holds for all others. -/
def defaultSection : String := "DEFAULT"

/-- The name of an option as it is compared. -/
def optionName (name : List Char) : String :=
  String.ofList (Text.lower name)

/-- Sets a value: in place if the option is there already, else at the end. -/
def setOption (name value : String) : Options → Options
  | [] => [(name, value)]
  | (name', value') :: options =>
    if name' = name then (name, value) :: options else (name', value') :: setOption name value options

namespace Store

/-- The options of a section as they are. -/
def section? (s : Store) (sectionName : String) : Option Options :=
  if sectionName = defaultSection then some s.defaults else s.sections.lookup sectionName

/-- Adds a section that is not there yet. -/
def addSection (sectionName : String) (s : Store) : Store :=
  if (s.section? sectionName).isSome then s
  else { s with sections := s.sections ++ [(sectionName, [])] }

/-- Sets a value in a section that is there. -/
def set (sectionName option value : String) (s : Store) : Store :=
  if sectionName = defaultSection then { s with defaults := setOption option value s.defaults }
  else
    { s with sections := s.sections.map fun e =>
        if e.1 = sectionName then (e.1, setOption option value e.2) else e }

/-- The value of an option as written: that of its section, else that for all sections. No section
but the one for all others is looked at if it is not there. -/
def raw? (s : Store) (sectionName option : String) : Option String := do
  let options ← s.section? sectionName
  options.lookup option <|> s.defaults.lookup option

end Store

/-! ## References -/

/-- The option that a reference at the start of a text names, and what follows it. -/
def reference? : List Char → Option (List Char × List Char)
  | '%' :: '(' :: cs =>
    let key := cs.takeWhile (· ≠ ')')
    match key, cs.dropWhile (· ≠ ')') with
    | _ :: _, ')' :: 's' :: rest => some (key, rest)
    | _, _ => none
  | _ => none

/-- Where a value is asked for: its section and name, and the value as written. -/
structure Place where
  sectionName : String
  option : String
  raw : String

/-- Puts references in: `lookUp` gives the options referred to and `expand` their values with
references put in. `fuel` bounds the characters of one value. -/
def substitute (lookUp : String → Option String) (expand : List Char → Except Fault (List Char))
    (p : Place) : (fuel : Nat) → List Char → Except Fault (List Char)
  | 0, _ => .ok []
  | fuel + 1, cs =>
    let plain := cs.takeWhile (· ≠ '%')
    match cs.dropWhile (· ≠ '%') with
    | [] => .ok plain
    | '%' :: '%' :: rest => do return plain ++ '%' :: (← substitute lookUp expand p fuel rest)
    | '%' :: '(' :: rest =>
      match reference? ('%' :: '(' :: rest) with
      | none => .error (.badReference (String.ofList ('%' :: '(' :: rest)))
      | some (key, rest) => do
        let name := optionName key
        match lookUp name with
        | none => throw (.unknownReference p.sectionName p.option name p.raw)
        | some value =>
          let inner ← if value.contains '%' then expand value.toList else pure value.toList
          return plain ++ inner ++ (← substitute lookUp expand p fuel rest)
    | rest => .error (.loosePercent (String.ofList rest))

/-- Puts references in, at most `depth` inside each other. -/
def resolve (lookUp : String → Option String) (p : Place) :
    (depth : Nat) → List Char → Except Fault (List Char)
  | 0, _ => .error (.tooDeep p.sectionName p.option p.raw)
  | depth + 1, cs => substitute lookUp (resolve lookUp p depth) p (cs.length + 1) cs

namespace Store

/-- The value of an option with references put in; none for an option that is not there. -/
def value? (s : Store) (sectionName option : String) : Except Fault (Option String) :=
  let option := optionName option.toList
  match s.raw? sectionName option with
  | none => .ok none
  | some raw =>
    (resolve (s.raw? sectionName) ⟨sectionName, option, raw⟩ maxDepth raw.toList).map
      fun cs => some (String.ofList cs)

end Store

end OpeningHand.Ini
