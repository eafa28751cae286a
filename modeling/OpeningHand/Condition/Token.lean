import OpeningHand.Condition.Basic
import OpeningHand.Text.Blank

/-!
# Tokens of the condition language

A condition's text as tokens: a parenthesis is a token of its own, and so is every longest run of
characters that are neither blank nor a parenthesis. A run that is exactly a connective's word is
that connective; any other run is a word. Blanks only separate.
-/

namespace OpeningHand.Condition

/-- What a token is. -/
inductive TokenKind where
  | opening
  | closing
  | connective (c : Connective)
  | word
  deriving Repr, DecidableEq

/-- A piece of a text: its kind, its characters, and the positions where it starts and stops. -/
structure Token where
  kind : TokenKind
  chars : List Char
  start : Nat
  stop : Nat
  deriving Repr, DecidableEq

/-- A run of characters is a connective only as a whole, in capitals. -/
def TokenKind.ofRun (run : List Char) : TokenKind :=
  if run = ['A', 'N', 'D'] then .connective .and
  else if run = ['O', 'R'] then .connective .or
  else .word

/-- The token of a run that stops before `stop`, given last character first; none for no run. -/
def Token.ofRun (stop : Nat) : List Char → List Token
  | [] => []
  | run@(_ :: _) => [⟨.ofRun run.reverse, run.reverse, stop - run.length, stop⟩]

/-- The tokens from `position` on, `run` being the run that reaches up to there, last character
first. -/
def tokensFrom (position : Nat) (run : List Char) : List Char → List Token
  | [] => Token.ofRun position run
  | c :: cs =>
    if c = '(' then
      Token.ofRun position run ++ ⟨.opening, [c], position, position + 1⟩ ::
        tokensFrom (position + 1) [] cs
    else if c = ')' then
      Token.ofRun position run ++ ⟨.closing, [c], position, position + 1⟩ ::
        tokensFrom (position + 1) [] cs
    else if Text.isBlank c then
      Token.ofRun position run ++ tokensFrom (position + 1) [] cs
    else tokensFrom (position + 1) (c :: run) cs

/-- The tokens of a condition's text, in order. -/
def tokens (text : String) : List Token :=
  tokensFrom 0 [] text.toList

end OpeningHand.Condition
