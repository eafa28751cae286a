import OpeningHand.Data

/-!
# Problems

What is wrong with a value that was checked field by field. A check goes on after a problem, so it
answers with a list of them; each has its kind and the place in the value, from the outside in. A
kind has a code, for programs, and a message, for people.
-/

namespace OpeningHand

/-- One step towards the place of a problem. -/
inductive Step where
  | field (name : String)
  | index (n : Int)
  deriving Repr, DecidableEq

/-- The kinds of problems. -/
inductive ProblemKind where
  | notDetails
  | notTree
  | noTag
  | badTag (tag : String)
  | badKey
  | flagQuantity
  | notWhole
  | notFinite
  | fractional
  | notNumeral
  | outOfSize
  | negative
  | notTuple
  | notList
  | notText
  | undecodableText
  | emptyText
  | missing
  | badOperator
  | noMembers
  | unclearFlag
  | notFlag
  deriving Repr, DecidableEq

namespace ProblemKind

/-- The code of a kind. -/
def code : ProblemKind → String
  | .notDetails => "model_type"
  | .notTree => "model_attributes_type"
  | .noTag => "union_tag_not_found"
  | .badTag _ => "union_tag_invalid"
  | .badKey => "invalid_key"
  | .flagQuantity => "value_error"
  | .notWhole => "int_type"
  | .notFinite => "finite_number"
  | .fractional => "int_from_float"
  | .notNumeral => "int_parsing"
  | .outOfSize => "int_parsing_size"
  | .negative => "greater_than_equal"
  | .notTuple => "tuple_type"
  | .notList => "list_type"
  | .notText => "string_type"
  | .undecodableText => "string_unicode"
  | .emptyText => "string_too_short"
  | .missing => "missing"
  | .badOperator => "literal_error"
  | .noMembers => "too_short"
  | .unclearFlag => "bool_parsing"
  | .notFlag => "bool_type"

/-- A kind in words. -/
def message : ProblemKind → String
  | .notDetails => "Input should be a valid dictionary or instance of CardDetails"
  | .notTree => "Input should be a valid dictionary or object to extract fields from"
  | .noTag => "Unable to extract tag using discriminator 'kind'"
  | .badTag tag =>
    "Input tag '" ++ tag ++
      "' found using 'kind' does not match any of the expected tags: 'card', 'and', 'or'"
  | .badKey => "Keys should be strings"
  | .flagQuantity => "Value error, qty must be a number, not a boolean"
  | .notWhole => "Input should be a valid integer"
  | .notFinite => "Input should be a finite number"
  | .fractional => "Input should be a valid integer, got a number with a fractional part"
  | .notNumeral => "Input should be a valid integer, unable to parse string as an integer"
  | .outOfSize => "Unable to parse input string as an integer, exceeded maximum size"
  | .negative => "Input should be greater than or equal to 0"
  | .notTuple => "Input should be a valid tuple"
  | .notList => "Input should be a valid list"
  | .notText => "Input should be a valid string"
  | .undecodableText =>
    "Input should be a valid string, unable to parse raw data as a unicode string"
  | .emptyText => "String should have at least 1 character"
  | .missing => "Field required"
  | .badOperator => "Input should be '=' or '>='"
  | .noMembers => "List should have at least 1 item after validation, not 0"
  | .unclearFlag => "Input should be a valid boolean, unable to interpret input"
  | .notFlag => "Input should be a valid boolean"

end ProblemKind

/-- A problem at its place. -/
structure Problem where
  kind : ProblemKind
  place : List Step
  deriving Repr, DecidableEq

namespace Problem

/-- A problem with the value as a whole. -/
def whole (kind : ProblemKind) : Problem := ⟨kind, []⟩

/-- The problem of a part as one of the value that holds the part. -/
def under (step : Step) (p : Problem) : Problem := { p with place := step :: p.place }

end Problem

/-- A checked value, or what is wrong with it. -/
abbrev Checked (α : Type) := Except (List Problem) α

namespace Checked

variable {α β γ : Type}

/-- One problem and no value. -/
def problem (kind : ProblemKind) : Checked α := .error [.whole kind]

/-- The check of a part as a check of the value that holds the part. -/
def under (step : Step) (c : Checked α) : Checked α := c.mapError (·.map (.under step))

/-- Two checks side by side: the problems of both. -/
def both (f : α → β → γ) : Checked α → Checked β → Checked γ
  | .ok a, .ok b => .ok (f a b)
  | .error ps, .ok _ => .error ps
  | .ok _, .error qs => .error qs
  | .error ps, .error qs => .error (ps ++ qs)

/-- The same check on each of a list, with its index as the place. -/
def each (check : α → Checked β) (index : Nat) : List α → Checked (List β)
  | [] => .ok []
  | a :: as => both List.cons (under (.index index) (check a)) (each check (index + 1) as)

theorem under_eq_ok {step : Step} {c : Checked α} {a : α} : under step c = .ok a ↔ c = .ok a := by
  cases c with
  | ok b => exact Iff.rfl
  | error ps => exact ⟨(nomatch ·), (nomatch ·)⟩

theorem both_eq_ok {f : α → β → γ} {x : Checked α} {y : Checked β} {c : γ} :
    both f x y = .ok c ↔ ∃ a b, x = .ok a ∧ y = .ok b ∧ f a b = c := by
  cases x with
  | ok a => cases y with
    | ok b =>
      constructor
      · intro h
        cases h
        exact ⟨a, b, rfl, rfl, rfl⟩
      · rintro ⟨_, _, ⟨⟩, ⟨⟩, rfl⟩
        rfl
    | error qs => exact ⟨(nomatch ·), fun ⟨_, _, _, h, _⟩ => nomatch h⟩
  | error ps => cases y with
    | ok b => exact ⟨(nomatch ·), fun ⟨_, _, h, _⟩ => nomatch h⟩
    | error qs => exact ⟨(nomatch ·), fun ⟨_, _, h, _⟩ => nomatch h⟩

end Checked

end OpeningHand
