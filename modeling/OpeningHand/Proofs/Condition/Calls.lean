import OpeningHand.Proofs.Condition.Deeds

/-!
# Calls that nest deeper

A descent is bound in how deep its calls may nest, and the bound matters only for whether it comes to
an end. Where it does, one with a higher bound comes to the same end (`descend_of_le`): every
procedure comes to the same, as far as its calls do.
-/

namespace OpeningHand.Condition

open Text (Point)

namespace Descent

/-! ## Runs -/

section

variable {α β : Type} {x y : Descent α} {f g : α → Descent β}

/-- Where one run comes to an end, the other comes to the same end. -/
def Extends (x y : Descent α) : Prop :=
  ∀ s last, x.run.run s = some last → y.run.run s = some last

theorem extends_refl (x : Descent α) : Extends x x :=
  fun _ _ h => h

theorem extends_never (y : Descent α) : Extends never y :=
  fun _ _ h => nomatch h

theorem Extends.bind (h : Extends x y) (h' : ∀ a, Extends (f a) (g a)) :
    Extends (x >>= f) (y >>= g) := by
  intro s last hlast
  cases hx : x.run.run s with
  | none => simp [ExceptT.run_bind, StateT.run_bind, hx] at hlast
  | some mid =>
    obtain ⟨result, s'⟩ := mid
    have hy := h s _ hx
    cases result with
    | ok a =>
      rw [run_bind_ok hx] at hlast
      rw [run_bind_ok hy]
      exact h' a s' last hlast
    | error e =>
      rw [run_bind_error hx] at hlast
      rw [run_bind_error hy]
      exact hlast

/-- What comes first is the same in both runs. -/
theorem extends_after (x : Descent α) (h : ∀ a, Extends (f a) (g a)) :
    Extends (x >>= f) (x >>= g) :=
  (extends_refl x).bind h

end

/-! ## Procedures -/

/-- Where the calls of one kind come back, those of the other come back the same. -/
structure Calls.Extends (c d : Calls) : Prop where
  words : ∀ taken, Descent.Extends (c.words taken) (d.words taken)
  expression : Descent.Extends c.expression d.expression
  links : ∀ connective members,
    Descent.Extends (c.links connective members) (d.links connective members)
  term : Descent.Extends c.term d.term

section

variable {text : List Point} {c d : Calls}

theorem extends_words (h : c.Extends d) (taken : List Token) :
    Extends (words text c taken) (words text d taken) := by
  refine extends_after _ fun next => ?_
  split
  next => exact extends_refl _
  next t =>
    split
    next => exact extends_after _ fun t => h.words _
    next => exact extends_refl _

theorem extends_expression (h : c.Extends d) : Extends (expression c) (expression d) :=
  extends_after _ fun _ => extends_after _ fun _ =>
    h.term.bind fun _ => (h.links _ _).bind fun _ => extends_refl _

theorem extends_links (h : c.Extends d) (connective : Option Connective)
    (members : List Condition) :
    Extends (links text c connective members) (links text d connective members) := by
  refine extends_after _ fun next => ?_
  split
  next => exact extends_refl _
  next t =>
    split
    next => exact extends_after _ fun _ => extends_after _ fun _ => h.term.bind fun _ => h.links _ _
    next => exact extends_refl _

theorem extends_group (h : c.Extends d) (entry : Place) (position : Nat) :
    Extends (group text c entry position) (group text d entry position) := by
  refine extends_after _ fun _ => extends_after _ fun next => ?_
  split
  next => exact extends_refl _
  next =>
    exact extends_after _ fun _ => extends_after _ fun _ =>
      h.expression.bind fun _ => extends_refl _

theorem extends_term (h : c.Extends d) : Extends (term text c) (term text d) := by
  refine extends_after _ fun entry => extends_after _ fun _ => extends_after _ fun next => ?_
  refine Extends.bind ?_ fun _ => extends_refl _
  cases next with
  | none => exact extends_refl _
  | some t =>
    rw [termFrom, termFrom]
    split
    next =>
      split
      next => exact extends_refl _
      next => exact extends_group h _ _
    next => exact (h.words []).bind fun _ => extends_refl _
    next => exact extends_refl _

/-- Calls that may nest one deeper come back where they did before, and the same. -/
theorem extends_calls (text : List Point) (bound : Nat) :
    (calls text bound).Extends (calls text (bound + 1)) := by
  induction bound with
  | zero =>
    exact ⟨fun _ => extends_never _, extends_never _, fun _ _ => extends_never _, extends_never _⟩
  | succ bound ih =>
    exact ⟨extends_words ih, extends_expression ih, extends_links ih, extends_term ih⟩

theorem extends_whole (h : c.Extends d) : Extends (whole text c) (whole text d) := by
  rw [whole, whole]
  split
  next => exact extends_refl _
  next => exact h.expression.bind fun _ => extends_refl _

end

end Descent

/-- A descent that has come to an end comes to the same end if its calls may nest deeper. -/
theorem descend_of_le {text : List Point} {bound more : Nat} (le : bound ≤ more)
    {result : Except Descent.Stop Condition × Descent.State}
    (h : descend text bound = some result) : descend text more = some result := by
  induction le with
  | refl => exact h
  | step _ ih => exact Descent.extends_whole (Descent.extends_calls text _) _ _ ih

end OpeningHand.Condition
