import OpeningHand.Failure
import OpeningHand.Proofs.Result

/-!
# Lapses

Loading a document answers for every failure but those of files and settings, and lapses. `Answered`
says of a step that loading answers for all its failures. `LapsesIn` says of a step that it lapses in
given cases and no others; apart from that it fails only with what loading answers for, or where it
is not described what the step does. The laws put the cases of a chain together from the cases of its
steps.
-/

namespace OpeningHand

variable {α β : Type} {x : Except Failure α} {L M : Lapse → Prop}

/-- A step all of whose failures are of the document. -/
def Answered (x : Except Failure α) : Prop :=
  ∀ e, x = .error e → e.isOfDocument = true

namespace Answered

theorem ok (a : α) : Answered (.ok a : Except Failure α) :=
  fun _ he => nomatch he

theorem error {e : Failure} (he : e.isOfDocument = true) :
    Answered (.error e : Except Failure α) := by
  intro _ h
  cases h
  exact he

theorem bind {f : α → Except Failure β} (hx : Answered x) (hf : ∀ a, x = .ok a → Answered (f a)) :
    Answered (x >>= f) := by
  intro e he
  rcases bind_eq_error.mp he with he | ⟨a, ha, he⟩
  · exact hx e he
  · exact hf a ha e he

theorem map {f : α → β} (hx : Answered x) : Answered (x.map f) := by
  cases x with
  | ok a => exact ok (f a)
  | error e => exact error (hx e rfl)

/-- A step whose failures are worded as failures of the document. -/
theorem mapError {ε : Type} {x : Except ε α} {f : ε → Failure}
    (hf : ∀ e, (f e).isOfDocument = true) : Answered (x.mapError f) := by
  cases x with
  | ok a => exact ok a
  | error e => exact error (hf e)

end Answered

/-- A step that lapses in the cases of `L`, and all whose other failures are of the document or lie
outside what is described. -/
structure LapsesIn (x : Except Failure α) (L : Lapse → Prop) : Prop where
  fails : ∀ e, x = .error e → e.isOfDocument = true ∨ e = .outside ∨ ∃ l, e = .lapse l ∧ L l
  lapses : ∀ l, L l → x = .error (.lapse l)

/-- A step that never lapses. -/
abbrev NeverLapses (x : Except Failure α) : Prop := LapsesIn x fun _ => False

theorem Answered.neverLapses (h : Answered x) : NeverLapses x where
  fails e he := .inl (h e he)
  lapses _ h := h.elim

namespace LapsesIn

/-- Which lapses a job ends with is told in full. -/
theorem eq_lapse_iff (h : LapsesIn x L) {l : Lapse} : x = .error (.lapse l) ↔ L l := by
  constructor
  · intro he
    obtain hdoc | houtside | ⟨l', hl, hL⟩ := h.fails _ he
    · cases hdoc
    · cases houtside
    · cases hl
      exact hL
  · exact h.lapses l

/-- They may be told in another way. -/
theorem congr (h : LapsesIn x L) (hLM : ∀ l, L l ↔ M l) : LapsesIn x M where
  fails e he := (h.fails e he).imp_right (.imp_right fun ⟨l, hl, hL⟩ => ⟨l, hl, (hLM l).mp hL⟩)
  lapses l hM := h.lapses l ((hLM l).mpr hM)

theorem ok (a : α) : NeverLapses (.ok a : Except Failure α) :=
  (Answered.ok a).neverLapses

theorem error {e : Failure} (he : e.isOfDocument = true) :
    NeverLapses (.error e : Except Failure α) :=
  (Answered.error he).neverLapses

theorem outside : NeverLapses (.error .outside : Except Failure α) where
  fails _ h := by
    cases h
    exact .inr (.inl rfl)
  lapses _ h := h.elim

/-- Cases that never come about may be added. -/
theorem of_never (h : NeverLapses x) (hL : ∀ l, ¬ L l) : LapsesIn x L :=
  h.congr fun l => iff_of_false id (hL l)

/-- A lapse is the only one of itself. -/
theorem lapse (l : Lapse) : LapsesIn (.error (.lapse l) : Except Failure α) (· = l) where
  fails _ h := by
    cases h
    exact .inr (.inr ⟨l, rfl, rfl⟩)
  lapses _ h := by rw [h]

theorem bind {f : α → Except Failure β} {M : α → Lapse → Prop} (hx : LapsesIn x L)
    (hf : ∀ a, x = .ok a → LapsesIn (f a) (M a)) :
    LapsesIn (x >>= f) fun l => L l ∨ ∃ a, x = .ok a ∧ M a l := by
  constructor
  · intro e he
    rcases bind_eq_error.mp he with he | ⟨a, ha, he⟩
    · exact (hx.fails e he).imp_right (.imp_right fun ⟨l, hl, hL⟩ => ⟨l, hl, .inl hL⟩)
    · exact ((hf a ha).fails e he).imp_right
        (.imp_right fun ⟨l, hl, hM⟩ => ⟨l, hl, .inr ⟨a, ha, hM⟩⟩)
  · intro l h
    rcases h with hL | ⟨a, ha, hM⟩
    · exact bind_eq_error.mpr (.inl (hx.lapses l hL))
    · exact bind_eq_error.mpr (.inr ⟨a, ha, (hf a ha).lapses l hM⟩)

/-- Steps none of which lapses. -/
theorem bind_never {f : α → Except Failure β} (hx : NeverLapses x)
    (hf : ∀ a, NeverLapses (f a)) : NeverLapses (x >>= f) :=
  (hx.bind fun a _ => hf a).congr fun _ => by simp only [false_or, and_false, exists_false]

/-- A step that lapses, then one that does not. -/
theorem bind_left {f : α → Except Failure β} (hx : LapsesIn x L)
    (hf : ∀ a, x = .ok a → NeverLapses (f a)) : LapsesIn (x >>= f) L :=
  (hx.bind hf).congr fun _ => by simp only [and_false, exists_false, or_false]

/-- A step that never lapses, then one that may. -/
theorem bind_right {f : α → Except Failure β} {M : α → Lapse → Prop} (hx : NeverLapses x)
    (hf : ∀ a, LapsesIn (f a) (M a)) :
    LapsesIn (x >>= f) fun l => ∃ a, x = .ok a ∧ M a l :=
  (hx.bind fun a _ => hf a).congr fun _ => by simp only [false_or]

theorem map {f : α → β} (hx : LapsesIn x L) : LapsesIn (x.map f) L := by
  cases x with
  | ok a =>
    constructor
    · intro e he
      cases he
    · intro l hl
      cases hx.lapses l hl
  | error e =>
    constructor
    · intro e' he
      cases he
      exact hx.fails e rfl
    · intro l hl
      cases hx.lapses l hl
      rfl

end LapsesIn

end OpeningHand
