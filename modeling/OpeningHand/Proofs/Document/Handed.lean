import Mathlib.Data.List.Forall2
import OpeningHand.Document
import OpeningHand.Proofs.Data.Intact
import OpeningHand.Proofs.Journal
import OpeningHand.Proofs.Result
import OpeningHand.Proofs.Yaml.NodeValue

/-!
# What a load hands on

Between the YAML and the deck builder, a load checks the shape of a value and names its cards. What
comes of that (`handed`) is all that the builder and the reading of the conditions are given. Cards
are named by the texts of their keys, no two have one name, and none has a label that is torn.
-/

namespace OpeningHand

namespace Document

/-! ## What is handed to the builder -/

/-- What a load hands to the deck builder, and the texts of the conditions that it reads then. -/
def handed (text : String) : Except Failure (List (String × Data) × List (List Text.Point)) := do
  let data ← Yaml.load text
  let shape ← Shape.ofData data
  let cards ← named shape.deck
  return (cards, shape.conditions)

/-- Whatever the builder, it is asked once, for a deck of what is handed to it. -/
theorem result_read (builder : DeckBuilder) (minSize : Int) (text : String) :
    (read builder minSize text).result = do
      let (cards, texts) ← handed text
      let deck ← (builder cards minSize).result
      let conditions ← (Condition.readAll texts).result
      return ⟨deck, conditions⟩ := by
  have hread : (read builder minSize text).result = do
      let data ← Yaml.load text
      let shape ← Shape.ofData data
      let cards ← named shape.deck
      let deck ← (builder cards minSize).result
      let conditions ← (Condition.readAll shape.conditions).result
      return ⟨deck, conditions⟩ := by
    unfold read
    simp only [Recorded.result_bind]
    rfl
  rw [hread, handed]
  simp only [bind_assoc, pure_bind]

/-- A document has the right shape if it is a map with a map of checked cards and a list of texts. -/
theorem ofData_eq_ok_iff {d : Data} {shape : Shape} :
    Shape.ofData d = .ok shape ↔ ∃ es items, d = .map es ∧
      Entries.field? "deck" es = some (.map shape.deck) ∧
      Entries.field? "conditions" es = some (.list items) ∧ checkCards shape.deck = .ok () ∧
      conditionTexts 0 items = .ok shape.conditions := by
  constructor
  · intro h
    unfold Shape.ofData at h
    split at h
    next es =>
      split at h
      next deck items hdeck hitems =>
        obtain ⟨⟨⟩, hcheck, h⟩ := bind_eq_ok.mp h
        obtain ⟨texts, htexts, h⟩ := bind_eq_ok.mp h
        cases h
        exact ⟨es, items, rfl, hdeck, hitems, hcheck, htexts⟩
      next => cases h
      next => cases h
    next => cases h
  · rintro ⟨es, items, rfl, hdeck, hitems, hcheck, htexts⟩
    simp only [Shape.ofData, hdeck, hitems, hcheck, htexts]
    rfl

/-! ## Names -/

/-- A card is the entry under its key, with the text of the key as its name. -/
def Names (e : Scalar × Data) (c : String × Data) : Prop :=
  nameOfKey e.1 = .ok c.1 ∧ c.2 = e.2

theorem namedFrom_eq_ok_iff {seen : List String} {es : Entries Data} {cards : List (String × Data)} :
    namedFrom seen es = .ok cards ↔ List.Forall₂ Names es cards ∧
      (cards.map Prod.fst).Nodup ∧ ∀ name ∈ cards.map Prod.fst, name ∉ seen := by
  induction es generalizing seen cards with
  | nil =>
    rw [namedFrom, List.forall₂_nil_left_iff, Except.ok.injEq]
    constructor
    · rintro rfl
      exact ⟨rfl, List.nodup_nil, List.forall_mem_nil _⟩
    · rintro ⟨rfl, -, -⟩
      rfl
  | cons e es ih =>
    obtain ⟨k, d⟩ := e
    rw [namedFrom, bind_eq_ok, List.forall₂_cons_left_iff]
    constructor
    · rintro ⟨name, hname, h⟩
      split at h
      · cases h
      · next hseen =>
        obtain ⟨more, hmore, h⟩ := bind_eq_ok.mp h
        cases h
        obtain ⟨hnames, hdistinct, hfresh⟩ := ih.mp hmore
        refine ⟨⟨_, _, ⟨hname, rfl⟩, hnames, rfl⟩, ?_, ?_⟩
        · exact List.nodup_cons.mpr ⟨fun hmem => hfresh name hmem List.mem_cons_self, hdistinct⟩
        · rintro name' hname'
          rcases List.mem_cons.mp hname' with rfl | hname'
          · exact fun hmem => hseen (List.contains_iff_mem.mpr hmem)
          · exact fun hmem => hfresh name' hname' (List.mem_cons_of_mem _ hmem)
    · rintro ⟨⟨⟨name, d'⟩, more, ⟨hname, hd⟩, hnames, rfl⟩, hdistinct, hfresh⟩
      obtain rfl : d' = d := hd
      obtain ⟨hnew, hdistinct⟩ := List.nodup_cons.mp hdistinct
      refine ⟨name, hname, ?_⟩
      rw [if_neg fun h => hfresh name List.mem_cons_self (List.contains_iff_mem.mp h)]
      have hmore : namedFrom (name :: seen) es = .ok more := by
        refine ih.mpr ⟨hnames, hdistinct, fun name' hname' hmem => ?_⟩
        rcases List.mem_cons.mp hmem with rfl | hmem
        · exact hnew hname'
        · exact hfresh name' (List.mem_cons_of_mem _ hname') hmem
      rw [hmore]
      rfl

/-- Cards are named by the texts of their keys, and no two have the same name. -/
theorem named_eq_ok_iff {es : Entries Data} {cards : List (String × Data)} :
    named es = .ok cards ↔ List.Forall₂ Names es cards ∧ (cards.map Prod.fst).Nodup := by
  rw [named, namedFrom_eq_ok_iff]
  refine and_congr_right fun _ => and_iff_left fun _ _ => List.not_mem_nil

theorem mem_iff_of_names {es : Entries Data} {cards : List (String × Data)}
    (h : List.Forall₂ Names es cards) {name : String} {d : Data} :
    (name, d) ∈ cards ↔ ∃ k, (k, d) ∈ es ∧ nameOfKey k = .ok name := by
  induction h with
  | nil => simp
  | @cons e c es cards he _ ih =>
    obtain ⟨k, d'⟩ := e
    obtain ⟨name', d''⟩ := c
    obtain ⟨hname, rfl⟩ : nameOfKey k = .ok name' ∧ d'' = d' := he
    rw [List.mem_cons, ih]
    constructor
    · rintro (heq | ⟨k', hmem, hk'⟩)
      · cases heq
        exact ⟨k, List.mem_cons_self, hname⟩
      · exact ⟨k', List.mem_cons_of_mem _ hmem, hk'⟩
    · rintro ⟨k', hmem, hk'⟩
      rcases List.mem_cons.mp hmem with heq | hmem
      · cases heq
        cases hname.symm.trans hk'
        exact .inl rfl
      · exact .inr ⟨k', hmem, hk'⟩

/-- No card has a torn label: labels lie below the levels on which a document's texts may be torn. -/
theorem hasTornLabel_of_handed {text : String} {cards : List (String × Data)}
    {texts : List (List Text.Point)} (h : handed text = .ok (cards, texts)) :
    ∀ c ∈ cards, Details.hasTornLabel c.2 = false := by
  obtain ⟨data, hload, h⟩ := bind_eq_ok.mp h
  obtain ⟨shape, hshape, h⟩ := bind_eq_ok.mp h
  obtain ⟨_, hcards, h⟩ := bind_eq_ok.mp h
  cases h
  obtain ⟨es, items, rfl, hdeck, -⟩ := ofData_eq_ok_iff.mp hshape
  have hintact := Data.isIntactBelow_get? (Yaml.isIntactBelow_of_load hload) hdeck
  rintro ⟨name, d⟩ hc
  obtain ⟨k, hmem, -⟩ := (mem_iff_of_names (named_eq_ok_iff.mp hcards).1).mp hc
  exact Data.hasTornLabel_of_isIntactBelow (List.all_eq_true.mp hintact _ hmem)

end Document

end OpeningHand
