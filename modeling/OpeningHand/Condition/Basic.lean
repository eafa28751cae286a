/-!
# Conditions

What an opening hand must hold. A condition is a test on one card (so many copies, exactly or at
least) or a group of conditions under one connective: all of them must hold, or at least one.
Equality of conditions is decidable, member by member.
-/

namespace OpeningHand

/-- How a quantity bounds the number of copies in the hand. -/
inductive Bound where
  | exactly
  | atLeast
  deriving Repr, DecidableEq

/-- The sign of a bound in the dictionary form of a condition. -/
def Bound.sign : Bound → String
  | .exactly => "="
  | .atLeast => ">="

/-- What joins the members of a group. -/
inductive Connective where
  | and
  | or
  deriving Repr, DecidableEq

/-- The word for a connective in the condition language. -/
def Connective.word : Connective → String
  | .and => "AND"
  | .or => "OR"

/-- The tag of a group in the dictionary form of a condition. -/
def Connective.tag : Connective → String
  | .and => "and"
  | .or => "or"

/-- The hand holds `quantity` copies of `name`: exactly, or at least. -/
structure CardTest where
  name : String
  quantity : Nat
  bound : Bound
  deriving Repr, DecidableEq

/-- What an opening hand must hold. -/
inductive Condition where
  | card (test : CardTest)
  | group (connective : Connective) (members : List Condition)
  deriving Repr

namespace Condition

/-- The tag of a condition's root in its dictionary form. -/
def tag : Condition → String
  | .card _ => "card"
  | .group connective _ => connective.tag

mutual

/-- Equality of conditions is decidable. -/
def decideEq : (a b : Condition) → Decidable (a = b)
  | .card s, .card t =>
    if h : s = t then isTrue (congrArg _ h) else isFalse fun e => h (Condition.card.inj e)
  | .card _, .group _ _ => isFalse fun e => nomatch e
  | .group _ _, .card _ => isFalse fun e => nomatch e
  | .group c as, .group d bs =>
    if hc : c = d then
      match decideEqAll as bs with
      | isTrue h => isTrue (by rw [hc, h])
      | isFalse h => isFalse fun e => h (Condition.group.inj e).2
    else isFalse fun e => hc (Condition.group.inj e).1

/-- Equality of lists of conditions is decidable. -/
def decideEqAll : (as bs : List Condition) → Decidable (as = bs)
  | [], [] => isTrue rfl
  | [], _ :: _ => isFalse fun e => nomatch e
  | _ :: _, [] => isFalse fun e => nomatch e
  | a :: as, b :: bs =>
    match decideEq a b with
    | isFalse h => isFalse fun e => h (List.cons.inj e).1
    | isTrue h =>
      match decideEqAll as bs with
      | isFalse h' => isFalse fun e => h' (List.cons.inj e).2
      | isTrue h' => isTrue (by rw [h, h'])

end

instance : DecidableEq Condition := decideEq

end Condition

end OpeningHand
