import OpeningHand.Card.Details
import OpeningHand.Proofs.Data.Entries

/-!
# Values without torn texts

A value is intact if no text in it is torn. Intact values stay so on every level, and the details of
a card that are intact have labels of characters.
-/

namespace OpeningHand.Data

variable {d : Data} {ds : List Data} {es : Entries Data}

theorem areIntact_iff : areIntact ds = true ↔ ∀ d ∈ ds, d.isIntact = true := by
  induction ds with
  | nil => exact iff_of_true rfl (List.forall_mem_nil _)
  | cons d ds ih => rw [areIntact, Bool.and_eq_true, ih, List.forall_mem_cons]

theorem holdsIntact_iff : holdsIntact es = true ↔ ∀ e ∈ es, e.2.isIntact = true := by
  induction es with
  | nil => exact iff_of_true rfl (List.forall_mem_nil _)
  | cons e es ih => rw [holdsIntact, Bool.and_eq_true, ih, List.forall_mem_cons]

/-- Where no text is torn, none is on any level. The induction is on the levels. -/
theorem isIntactBelow_of_isIntact (h : d.isIntact = true) (levels : Nat) :
    d.isIntactBelow levels = true := by
  induction levels generalizing d with
  | zero => exact h
  | succ levels ih =>
    cases d with
    | list items => exact List.all_eq_true.mpr fun item hitem => ih (areIntact_iff.mp h item hitem)
    | map es => exact List.all_eq_true.mpr fun e he => ih (holdsIntact_iff.mp h e he)
    | scalar | torn | set => rfl

/-- What stands under a key is torn no higher than the map is. -/
theorem isIntactBelow_get? {k : Scalar} {levels : Nat} (h : (map es).isIntactBelow (levels + 1) = true)
    (hd : Entries.get? k es = some d) : d.isIntactBelow levels = true := by
  obtain ⟨k', hmem, -⟩ := Entries.exists_mem_of_get? hd
  exact List.all_eq_true.mp h _ hmem

/-- Details that are torn on their first level at most have labels of characters. -/
theorem hasTornLabel_of_isIntactBelow (h : d.isIntactBelow 1 = true) :
    Details.hasTornLabel d = false := by
  cases d with
  | map es =>
    rw [Details.hasTornLabel]
    split
    · next items htags =>
      have hitems : areIntact items = true := isIntactBelow_get? h htags
      rw [List.any_eq_false]
      intro item hitem
      have hintact := areIntact_iff.mp hitems item hitem
      cases item with
      | torn points => cases hintact
      | scalar | list | set | map => exact Bool.false_ne_true
    · rfl
  | scalar | torn | list | set => rfl

end OpeningHand.Data
