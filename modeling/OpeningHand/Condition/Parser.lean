import OpeningHand.Condition.Fault
import OpeningHand.Condition.Token
import OpeningHand.Text.Digit

/-!
# Reading conditions

From tokens to a condition. Neighbouring words are first merged into one phrase, which is a card
test: an optional quantity and the card's name with its inner blanks as written. The items that
remain (phrases, parentheses, connectives) drive a machine that keeps one level for each
parenthesis still open; it reads them once, from left to right, and stops at the first fault.

At one level all connectives agree, a level of one member is that member, and parentheses add no
node of their own.
-/

namespace OpeningHand.Condition

/-! ## Items -/

/-- The words of one card test, or a token that is no word. -/
inductive Item where
  | opening (position : Nat)
  | closing (position : Nat)
  | connective (c : Connective) (position : Nat)
  | phrase (first : Token) (more : List Token)
  deriving Repr, DecidableEq

/-- A token put in front of the items that follow it; a word joins a phrase it stands before. -/
def Item.cons (t : Token) (items : List Item) : List Item :=
  match t.kind with
  | .opening => .opening t.start :: items
  | .closing => .closing t.start :: items
  | .connective c => .connective c t.start :: items
  | .word =>
    match items with
    | .phrase first more :: rest => .phrase t (first :: more) :: rest
    | _ => .phrase t [] :: items

/-- Tokens as items, with neighbouring words in one phrase. -/
def Item.ofTokens (ts : List Token) : List Item :=
  ts.foldr Item.cons []

/-- Where an item starts. -/
def Item.start : Item → Nat
  | .opening position => position
  | .closing position => position
  | .connective _ position => position
  | .phrase first _ => first.start

/-- The first token of an item as written. -/
def Item.word : Item → List Char
  | .opening _ => ['(']
  | .closing _ => [')']
  | .connective c _ => c.word.toList
  | .phrase first _ => first.chars

/-! ## Card tests -/

/-- What the first word of a phrase says about the quantity. -/
inductive Lead where
  /-- Digits alone: an exact quantity, if a name follows. -/
  | count (digits : List Char)
  /-- Digits and a plus sign: a least quantity. -/
  | least (digits : List Char)
  /-- Digits and a plus sign with something glued on. -/
  | glued
  /-- No quantity. -/
  | name
  deriving Repr, DecidableEq

/-- The quantity that a first word gives. -/
def Lead.ofWord (word : List Char) : Lead :=
  match word.takeWhile Text.isDecimal, word.dropWhile Text.isDecimal with
  | [], _ => .name
  | digits, [] => .count digits
  | digits, ['+'] => .least digits
  | _, '+' :: _ => .glued
  | _, _ => .name

/-- A text from the start of one token to the stop of the last. -/
def slice (text : List Char) (first : Token) (more : List Token) : String :=
  let last := (first :: more).getLast (List.cons_ne_nil _ _)
  String.ofList ((text.drop first.start).take (last.stop - first.start))

/-- The number a quantity's digits denote, if they are few enough. -/
def readQuantity (digits : List Char) : Except ReadError Nat :=
  if Number.maxDigits < digits.length then .error (.tooManyDigits digits.length)
  else .ok (Text.decimalValue digits)

/-- The card test that a phrase writes. Digits before a name are its quantity; digits alone are a
name. -/
def readPhrase (text : List Char) (first : Token) (more : List Token) :
    Except ReadError CardTest :=
  match Lead.ofWord first.chars, more with
  | .glued, _ => .error (.fault (.malformedQuantity first.chars) first.start)
  | .least digits, [] => do
    let _ ← readQuantity digits
    .error (.fault .missingName first.stop)
  | .least digits, second :: rest => do
    return ⟨slice text second rest, ← readQuantity digits, .atLeast⟩
  | .count digits, second :: rest => do
    return ⟨slice text second rest, ← readQuantity digits, .exactly⟩
  | _, _ => .ok ⟨slice text first more, 1, .exactly⟩

/-! ## The machine -/

/-- What was read at one level of parentheses: where it was opened (nowhere at the outermost
level), its connective once one was read, and its members, last first. -/
structure Level where
  opener : Option Nat
  connective : Option Connective
  members : List Condition
  deriving Repr, DecidableEq

/-- A level at which nothing was read. -/
def Level.new (opener : Option Nat) : Level := ⟨opener, none, []⟩

/-- The level with one member more. -/
def Level.add (l : Level) (c : Condition) : Level :=
  { l with members := c :: l.members }

/-- The condition a level amounts to: a group if there was a connective, else its only member. -/
def Level.close (l : Level) : Option Condition :=
  match l.connective, l.members with
  | some c, members => some (.group c members.reverse)
  | none, member :: _ => some member
  | none, [] => none

/-- A reader between two items: the current level, those around it from the inside out, and whether
a term must come next (else a connective or the end of the level). -/
structure Reader where
  level : Level
  outer : List Level
  wantsTerm : Bool
  deriving Repr, DecidableEq

/-- Nothing read yet. -/
def Reader.start : Reader := ⟨.new none, [], true⟩

/-- Reads a term where one must come. -/
def Reader.readTerm (text : List Char) (r : Reader) : Item → Except ReadError Reader
  | .phrase first more => do
    let test ← readPhrase text first more
    return { r with level := r.level.add (.card test), wantsTerm := false }
  | .opening position =>
    if maxNesting ≤ r.outer.length then .error (.fault .tooDeep position)
    else .ok ⟨.new (some position), r.level :: r.outer, true⟩
  | .closing position =>
    match r.level.opener, r.level.members with
    | some opener, [] => .error (.fault .emptyGroup opener)
    | _, _ => .error (.fault (.missingCardBefore [')']) position)
  | .connective c position => .error (.fault (.missingCardBefore c.word.toList) position)

/-- Reads what may follow a term. -/
def Reader.readLink (r : Reader) : Item → Except ReadError Reader
  | .connective c position =>
    match r.level.connective with
    | none => .ok { r with level := { r.level with connective := some c }, wantsTerm := true }
    | some first =>
      if first = c then .ok { r with wantsTerm := true }
      else .error (.fault (.mixed first c) position)
  | .closing position =>
    match r.outer, r.level.close with
    | level :: outer, some c => .ok ⟨level.add c, outer, false⟩
    | _, _ => .error (.fault .unexpectedClosing position)
  | item =>
    match r.level.opener with
    | some opener => .error (.fault .unclosed opener)
    | none => .error (.fault (.trailing item.word) item.start)

/-- Reads one item. -/
def Reader.read (text : List Char) (r : Reader) (item : Item) : Except ReadError Reader :=
  if r.wantsTerm then r.readTerm text item else r.readLink item

/-- Ends the reading after the last item. -/
def Reader.finish (text : List Char) (r : Reader) : Except ReadError Condition :=
  if r.wantsTerm then .error (.fault .missingCard text.length)
  else
    match r.level.opener, r.level.close with
    | some opener, _ => .error (.fault .unclosed opener)
    | none, some c => .ok c
    | none, none => .error (.fault .missingCard text.length)

/-- Reads items one after the other. -/
def Reader.readAll (text : List Char) (r : Reader) : List Item → Except ReadError Reader
  | [] => .ok r
  | item :: items => do (← r.read text item).readAll text items

/-- The condition that a text writes. -/
def parse (text : String) : Except ReadError Condition :=
  match Item.ofTokens (tokens text) with
  | [] => .error (.fault .empty 0)
  | items@(_ :: _) => do
    (← Reader.start.readAll text.toList items).finish text.toList

end OpeningHand.Condition
