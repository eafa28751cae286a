import OpeningHand.Library
import OpeningHand.Proofs.Condition.Points
import OpeningHand.Proofs.Condition.RoundTrip
import OpeningHand.Proofs.Document.Cards
import OpeningHand.Proofs.Number.Whole

/-!
# How saving ends

Conditions that were read can always be written: their quantities are short enough, and as sketches
they have the texts that they have as conditions. So saving a scenario that was loaded fails in one
way only, when the setting that orders the document cannot be read.
-/

namespace OpeningHand

namespace Condition

/-- Every quantity in a condition has few enough digits to be written. -/
def HasShortQuantities (c : Condition) : Prop :=
  ∀ test ∈ c.tests, test.quantity < 10 ^ Number.maxDigits

theorem charsAll_eq_map (cs : List Condition) : charsAll cs = cs.map chars := by
  induction cs with
  | nil => rfl
  | cons c cs ih => rw [charsAll, ih, List.map_cons]

/-- Conditions that were read have short quantities. -/
theorem hasShortQuantities_of_readAll {texts : List (List Text.Point)} {cs : List Condition}
    (h : (readAll texts).result = .ok cs) : ∀ c ∈ cs, c.HasShortQuantities := by
  have hparsed := readAll_eq_ok_iff.mp h
  clear h
  induction hparsed with
  | nil => exact List.forall_mem_nil _
  | cons hc _ ih =>
    obtain ⟨_, -, hparse⟩ := parsePoints_eq_ok_iff_exists.mp hc
    exact List.forall_mem_cons.mpr
      ⟨fun test ht => (writable_of_parse hparse test ht).quantity, ih⟩

end Condition

namespace Sketch

open Condition (HasShortQuantities)

mutual

theorem chars?_ofCondition : ∀ c : Condition, c.HasShortQuantities →
    (ofCondition c).chars? = .ok c.chars
  | .card t => by
    intro short
    have hbound : (t.bound.sign = Bound.atLeast.sign) = (t.bound = .atLeast) := by
      cases t.bound <;> simp [Bound.sign]
    have hwritten := Number.writeWhole?_of_lt (n := t.quantity)
      (short t (List.mem_singleton_self t))
    rw [ofCondition]
    unfold chars?
    rw [hwritten, Condition.chars, Condition.testChars]
    simp only [hbound]
  | .group connective members => by
    intro short
    rw [ofCondition, Condition.chars]
    show (charsAll? (ofConditions members)).map _ = _
    rw [charsAll?_ofConditions members short]
    rfl

theorem charsAll?_ofConditions : ∀ cs : List Condition,
    (∀ test ∈ Condition.testsAll cs, test.quantity < 10 ^ Number.maxDigits) →
      charsAll? (ofConditions cs) = .ok (Condition.charsAll cs)
  | [] => fun _ => rfl
  | c :: cs => by
    intro short
    obtain ⟨first, rest⟩ := List.forall_mem_append.mp short
    rw [ofConditions, charsAll?, chars?_ofCondition c first, charsAll?_ofConditions cs rest,
      Condition.charsAll]
    rfl

end

/-- Conditions with short quantities have their own texts as sketches. -/
theorem renderAll_ofConditions {cs : List Condition} (short : ∀ c ∈ cs, c.HasShortQuantities) :
    renderAll (ofConditions cs) = .ok (cs.map Condition.render) := by
  have hshort : ∀ test ∈ Condition.testsAll cs, test.quantity < 10 ^ Number.maxDigits := by
    induction cs with
    | nil => exact List.forall_mem_nil _
    | cons c cs ih =>
      obtain ⟨first, rest⟩ := List.forall_mem_cons.mp short
      exact List.forall_mem_append.mpr ⟨first, ih rest⟩
  rw [renderAll, charsAll?_ofConditions cs hshort, Condition.charsAll_eq_map]
  show Except.ok (List.map String.ofList (cs.map Condition.chars)) = _
  rw [List.map_map]
  rfl

end Sketch

namespace Library

/-- The conditions of a scenario that was loaded were read. -/
theorem readAll_of_load {settings : Settings} {builder : DeckBuilder} {source text : String}
    {s : Scenario} (h : (load settings builder source text).result = .ok s) :
    ∃ texts, (Condition.readAll texts).result = .ok s.conditions := by
  obtain ⟨minSize, -, hread⟩ := result_load_eq_ok_iff.mp h
  rw [Document.result_read] at hread
  obtain ⟨⟨cards, texts⟩, -, hread⟩ := bind_eq_ok.mp hread
  obtain ⟨deck, -, hread⟩ := bind_eq_ok.mp hread
  obtain ⟨conditions, hconditions, hread⟩ := bind_eq_ok.mp hread
  cases hread
  exact ⟨texts, hconditions⟩

theorem hasShortQuantities_of_load {settings : Settings} {builder : DeckBuilder}
    {source text : String} {s : Scenario}
    (h : (load settings builder source text).result = .ok s) :
    ∀ c ∈ s.conditions, c.HasShortQuantities :=
  have ⟨_, hread⟩ := readAll_of_load h
  Condition.hasShortQuantities_of_readAll hread

/-- A scenario with short quantities is saved as its deck and the texts of its conditions, in the
order that is set. -/
theorem result_save (settings : Settings) {s : Scenario}
    (short : ∀ c ∈ s.conditions, c.HasShortQuantities) :
    (save settings s).result = settings.sortKeys.map fun sortKeys =>
      Document.writeAll sortKeys s.deck (s.conditions.map Condition.render) := by
  have htexts : Document.conditionTexts? (Sketch.ofConditions s.conditions) =
      .ok (s.conditions.map Condition.render) := by
    rw [Document.conditionTexts?, Sketch.renderAll_ofConditions short]
    rfl
  rw [save, saveAll, htexts]
  simp only [Recorded.result_bind]
  cases settings.sortKeys <;> rfl

end Library

end OpeningHand
