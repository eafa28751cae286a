import OpeningHand.Condition.Points

/-!
# Reading conditions by descent

The language of conditions once more, read by procedures that call each other: an expression reads
terms and the connectives between them, a term reads an expression in parentheses or the words of a
card test. They share a place: how many tokens were taken, and how many parentheses are open.

Nothing is taken for granted here. Taking a token where there is none and making a condition of what
is none are ways to stop, and a call need not come back: procedures are given what their
calls amount to, a loop being a procedure that calls itself, and calls that are nested deeper than
some bound are `none` (`Descent.calls`). What a run does is entered in a log, each deed with the
place it was done at.
-/

namespace OpeningHand.Condition

open Text (Point shown)

namespace Descent

/-- How many tokens were taken, and how many parentheses are open. -/
structure Place where
  index : Nat
  depth : Nat
  deriving Repr, DecidableEq

/-- The procedures that call each other. -/
inductive Procedure where
  | expression
  | term
  deriving Repr, DecidableEq

/-- What a condition is made of. The name of a card comes as it stands in the text. -/
inductive Making where
  | card (name : List Point) (quantity : Nat) (bound : Bound)
  | group (connective : Connective) (members : List Condition)
  deriving Repr

/-- What is done on the way, every change of the place among it. A return knows the place of its
entry, and a term that reads what is in its parentheses knows where the term was entered. -/
inductive Deed where
  | moves (next : Place)
  | enters (p : Procedure)
  | returns (p : Procedure) (entry : Place)
  | descends (entry : Place)
  | takes
  | collects (words : List Token)
  | names (words : List Token)
  | makes (m : Making)
  deriving Repr

/-- A deed and the place it was done at. -/
structure Event where
  place : Place
  deed : Deed
  deriving Repr

/-- Where a run is, and what was done so far. -/
structure State where
  place : Place
  events : List Event
  deriving Repr

/-- Before anything was done. -/
def State.start : State := ⟨⟨0, 0⟩, []⟩

/-- Why a run stops: the text is refused, or something was reached for that is not there, or a
condition was to be made of what makes none. -/
inductive Stop where
  | refused (e : ReadError)
  | outOfRange
  | invalid (m : Making)
  deriving Repr

end Descent

/-- A run that may stop, and need not come to an end at all. -/
abbrev Descent := ExceptT Descent.Stop (StateT Descent.State Option)

namespace Descent

/-! ## Deeds -/

/-- Enters a deed in the log. -/
def note (d : Deed) : Descent Unit :=
  modify fun s => { s with events := s.events ++ [⟨s.place, d⟩] }

/-- The place of a run. -/
def here : Descent Place :=
  return (← get).place

/-- Goes to another place. -/
def move (f : Place → Place) : Descent Unit :=
  modify fun s => ⟨f s.place, s.events ++ [⟨s.place, .moves (f s.place)⟩]⟩

/-- Refuses the text. -/
def refuse {α : Type} (f : Fault) (position : Nat) : Descent α :=
  throw (.refused (.fault f position))

/-- The next token, if there is one. -/
def peek (text : List Point) : Descent (Option Token) := do
  return (tokens (shown text))[(← here).index]?

/-- Takes the next token. -/
def advance (text : List Point) : Descent Token := do
  note .takes
  match ← peek text with
  | none => throw .outOfRange
  | some t =>
    move fun p => { p with index := p.index + 1 }
    return t

/-- The condition that comes of its parts: the name of a test has a point, and all of its points are
characters; a group has a member. -/
def Making.condition? : Making → Option Condition
  | .card name quantity bound =>
    if name.isEmpty then none
    else (Text.ofPoints? name).map fun name => .card ⟨name, quantity, bound⟩
  | .group k members => if members.isEmpty then none else some (.group k members)

/-- Makes a condition. -/
def make (m : Making) : Descent Condition := do
  note (.makes m)
  match m.condition? with
  | some c => return c
  | none => throw (.invalid m)

/-- A run that does not come to an end. -/
def never {α : Type} : Descent α :=
  liftM (none : Option α)

/-- The procedures as they are called: for each the run that a call amounts to. -/
structure Calls where
  words (taken : List Token) : Descent (List Token)
  expression : Descent Condition
  links (connective : Option Connective) (members : List Condition) :
    Descent (Option Connective × List Condition)
  term : Descent Condition

/-! ## Card tests -/

/-- Takes words as long as there are any, after those that were taken. -/
def words (text : List Point) (call : Calls) (taken : List Token) : Descent (List Token) := do
  match ← peek text with
  | none => return taken
  | some t =>
    if t.kind = .word then call.words (taken ++ [← advance text])
    else return taken

/-- The number that digits denote. -/
def quantity (digits : List Char) : Descent Nat :=
  match readQuantity digits with
  | .ok n => return n
  | .error e => throw (.refused e)

/-- Makes a card test whose name goes from the first word to the last. -/
def named (text : List Point) (words : List Token) (quantity : Nat) (bound : Bound) :
    Descent Condition := do
  note (.names words)
  match words with
  | [] => throw .outOfRange
  | first :: more => make (.card (cutOut text (first :: more)) quantity bound)

/-- Makes the card test that words write. -/
def leafOf (text : List Point) : List Token → Descent Condition
  | [] => throw .outOfRange
  | first :: more =>
    match Lead.ofWord first.chars with
    | .least digits => do
      let n ← quantity digits
      if more.isEmpty then refuse .missingName first.stop
      else named text more n .atLeast
    | .count digits => do
      if more.isEmpty then named text [first] 1 .exactly
      else named text more (← quantity digits) .exactly
    | .glued => refuse (.malformedQuantity first.chars) first.start
    | .name => named text (first :: more) 1 .exactly

/-- Reads a card test. -/
def leaf (text : List Point) (call : Calls) : Descent Condition := do
  let taken ← call.words []
  note (.collects taken)
  leafOf text taken

/-! ## Expressions -/

/-- Accepts a connective after those of the same level, which all agree. -/
def link (connective : Option Connective) (k : Connective) (position : Nat) : Descent Unit :=
  match connective with
  | none => return ()
  | some first => if first = k then return () else refuse (.mixed first k) position

/-- Reads connectives and terms as long as there are any, after members of the same level. -/
def links (text : List Point) (call : Calls) (connective : Option Connective)
    (members : List Condition) : Descent (Option Connective × List Condition) := do
  match ← peek text with
  | none => return (connective, members)
  | some t =>
    match t.kind with
    | .connective k =>
      let _ ← advance text
      link connective k t.start
      let member ← call.term
      call.links (some k) (members ++ [member])
    | _ => return (connective, members)

/-- What a level amounts to: a group if there was a connective, else its first member. -/
def close (connective : Option Connective) (members : List Condition) : Descent Condition :=
  match connective, members with
  | some k, members => make (.group k members)
  | none, c :: _ => return c
  | none, [] => throw .outOfRange

/-- Reads terms and the connectives between them. -/
def expression (call : Calls) : Descent Condition := do
  let entry ← here
  note (.enters .expression)
  let first ← call.term
  let level ← call.links none [first]
  let c ← close level.1 level.2
  note (.returns .expression entry)
  return c

/-! ## Terms -/

/-- Reads an expression inside parentheses, and past them. -/
def enclosed (text : List Point) (call : Calls) (entry : Place) (position : Nat) :
    Descent Condition := do
  move fun p => { p with depth := p.depth + 1 }
  note (.descends entry)
  let c ← call.expression
  move fun p => { p with depth := p.depth - 1 }
  if (← peek text).any (·.kind = .closing) then
    let _ ← advance text
    return c
  else refuse .unclosed position

/-- Reads parentheses, which start at a position, and the expression in them. -/
def group (text : List Point) (call : Calls) (entry : Place) (position : Nat) : Descent Condition := do
  let _ ← advance text
  if (← peek text).any (·.kind = .closing) then refuse .emptyGroup position
  else enclosed text call entry position

/-- Reads the term that starts with the next token. -/
def termFrom (text : List Point) (call : Calls) (entry : Place) : Option Token → Descent Condition
  | none => refuse .missingCard text.length
  | some t =>
    match t.kind with
    | .opening =>
      if maxNesting ≤ entry.depth then refuse .tooDeep t.start
      else group text call entry t.start
    | .word => leaf text call
    | _ => refuse (.missingCardBefore t.chars) t.start

/-- Reads an expression in parentheses or a card test. -/
def term (text : List Point) (call : Calls) : Descent Condition := do
  let entry ← here
  note (.enters .term)
  let c ← termFrom text call entry (← peek text)
  note (.returns .term entry)
  return c

/-! ## Runs -/

/-- The procedures, with calls nested no deeper than a bound: a deeper call does not come back. -/
def calls (text : List Point) : Nat → Calls
  | 0 => ⟨fun _ => never, never, fun _ _ => never, never⟩
  | n + 1 => ⟨words text (calls text n), expression (calls text n), links text (calls text n),
      term text (calls text n)⟩

/-- Reads a condition that is the whole text. -/
def whole (text : List Point) (call : Calls) : Descent Condition := do
  if (tokens (shown text)).isEmpty then refuse .empty 0
  else
    let c ← call.expression
    match ← peek text with
    | none => return c
    | some t =>
      if t.kind = .closing then refuse .unexpectedClosing t.start
      else refuse (.trailing t.chars) t.start

end Descent

/-- Reads a condition by descent: what comes of it, and the state at the end, if no calls are nested
deeper than a bound. -/
def descend (text : List Point) (bound : Nat) :
    Option (Except Descent.Stop Condition × Descent.State) :=
  (Descent.whole text (Descent.calls text bound)).run.run .start

end OpeningHand.Condition
