import OpeningHand.Proofs.Deck.Tally
import OpeningHand.Proofs.Document.Reload

/-!
# Building a deck again from what it holds

What a deck holds is a description itself, and the deck that is built from it with the same least
size has the same real cards. Fillers are not held: they are added again, as many as the least size
asks for. A description may list cards under the name of fillers, though, and those are lost; they
are made up for exactly as long as the least size asks for fillers anyway (`rebuild`).
-/

namespace OpeningHand.Deck

variable {entries : List (Scalar × Offer)} {cards : List (String × Details)} {minSize : Int}
  {deck d d' : Deck} {name : String}

/-- What a deck holds, as names and data. -/
def description (d : Deck) : List (String × Data) :=
  d.holdings.map fun h => (h.name, (Document.holdingEntry h).2.toData)

/-! ## Sizes -/

/-- Every slot holds a real card or is named as a filler. -/
theorem size_eq (d : Deck) : d.size = d.realSize + d.copies Card.emptyName := by
  have hreal : d.realSize = d.slots.countP fun c => !c.isEmpty := List.countP_eq_length_filter.symm
  have hcopies : d.copies Card.emptyName = d.slots.countP Card.isEmpty := by
    rw [copies, List.count, List.countP_map]
    apply List.countP_congr
    intro c _
    simp [Card.isEmpty]
  rw [size, hreal, hcopies, List.length_eq_countP_add_countP fun c => !c.isEmpty]
  simp only [Bool.not_eq_true, Bool.not_eq_false', Bool.decide_eq_true]

theorem size_of_build (cards : List (String × Details)) (minSize : Int) :
    size ⟨slotsFor cards ++ List.replicate (fillerCount minSize (slotsFor cards).length) .empty⟩ =
      max minSize.toNat (cards.map fun c => c.2.qty).sum := by
  rw [size, List.length_append, List.length_replicate, fillerCount, length_slotsFor]
  omega

/-- The real cards among the slots of cards are at most all of them, and all of them only if no
copies are listed under the name of fillers. -/
theorem realSize_of_build (cards : List (String × Details)) (fillers : Nat) :
    realSize ⟨slotsFor cards ++ List.replicate fillers .empty⟩ ≤
        (cards.map fun c => c.2.qty).sum ∧
      (realSize ⟨slotsFor cards ++ List.replicate fillers .empty⟩ =
          (cards.map fun c => c.2.qty).sum ↔
        ∀ c ∈ cards, c.1 = Card.emptyName → c.2.qty = 0) := by
  rw [realSize, realSlots_of_cards, ← length_slotsFor]
  refine ⟨List.length_filter_le _ _, ?_⟩
  rw [List.length_filter_eq_length_iff]
  constructor
  · intro hall c hc hname
    by_contra hqty
    have hslot : (⟨c.1, c.2⟩ : Card) ∈ slotsFor cards :=
      List.mem_flatMap.mpr ⟨c, hc, List.mem_replicate.mpr ⟨hqty, rfl⟩⟩
    simpa [Card.isEmpty, hname] using hall _ hslot
  · intro hnone slot hslot
    obtain ⟨c, hc, hslot⟩ := List.mem_flatMap.mp hslot
    obtain ⟨hqty, rfl⟩ := List.mem_replicate.mp hslot
    simpa [Card.isEmpty] using fun hname => hqty (hnone c hc hname)

/-! ## What is held -/

/-- Decks that hold the same have the same real cards. -/
theorem copies_of_holdings (h : d'.holdings = d.holdings) (hname : name ≠ Card.emptyName) :
    d'.copies name = d.copies name := by
  have hquantity : d'.quantity name = d.quantity name := by
    rw [quantity, quantity, counts_eq_map_holdings, counts_eq_map_holdings, h]
  rwa [quantity_eq, quantity_eq, if_neg hname, if_neg hname] at hquantity

theorem realSize_of_holdings (h : d'.holdings = d.holdings) : d'.realSize = d.realSize := by
  rw [← sum_qty_holdings, ← sum_qty_holdings, h]

theorem not_blank_of_offers (h : List.Forall₂ Offers entries cards) :
    ∀ c ∈ cards, Text.isBlankText c.1.toList = false := by
  induction h with
  | nil => exact List.forall_mem_nil _
  | cons hentry _ ih =>
    refine List.forall_mem_cons.mpr ⟨?_, ih⟩
    cases hentry with
    | ready named => exact named
    | data named _ => exact named

/-- A deck can be built again from what it holds. -/
theorem listed_of_build (h : (build entries minSize).result = .ok deck) :
    Listed deck.holdings := by
  obtain ⟨cards, hcards, hdeck⟩ := result_build_eq_ok_iff.mp h
  have hheld {h : Holding} (hmem : h ∈ deck.holdings) : ∃ c ∈ deck.slots, c.name ≠ Card.emptyName ∧
      h = told deck.slots c.name := by
    rw [holdings_eq_map_told] at hmem
    obtain ⟨name, hname, rfl⟩ := List.mem_map.mp hmem
    obtain ⟨hslot, hreal⟩ := mem_realNames_iff.mp hname
    obtain ⟨c, hc, rfl⟩ := List.mem_map.mp hslot
    exact ⟨c, hc, hreal, rfl⟩
  constructor
  · exact nodup_names deck
  · intro h hmem
    obtain ⟨c, hc, hreal, rfl⟩ := hheld hmem
    refine ⟨hreal, ?_⟩
    rw [hdeck] at hc
    rcases List.mem_append.mp hc with hc | hc
    · obtain ⟨card, hcard, hc⟩ := List.mem_flatMap.mp hc
      obtain ⟨-, rfl⟩ := List.mem_replicate.mp hc
      exact not_blank_of_offers hcards card hcard
    · obtain ⟨-, rfl⟩ := List.mem_replicate.mp hc
      exact absurd rfl hreal
  · intro h hmem
    obtain ⟨c, hc, -, rfl⟩ := hheld hmem
    exact Nat.ne_of_gt (List.count_pos_iff.mpr (List.mem_map_of_mem hc))

/-! ## Building again -/

/-- A deck that was built can be built again from what it holds. With the same least size there are
as many slots of every real card as before, and fillers up to the least size. Slots named as fillers
are as many as before exactly if the description lists no copies under their name, or no more cards
altogether than the least size asks for. -/
theorem rebuild (h : (build entries minSize).result = .ok deck) :
    ∃ cards deck', List.Forall₂ Offers entries cards ∧
      (ofEntries deck.description minSize).result = .ok deck' ∧
      (∀ name, name ≠ Card.emptyName →
        (deck'.slots.map Card.name).count name = (deck.slots.map Card.name).count name) ∧
      deck'.size = max minSize.toNat deck.realSize ∧
      ((deck'.size = deck.size ∧ ∀ name,
          (deck'.slots.map Card.name).count name = (deck.slots.map Card.name).count name) ↔
        (∀ c ∈ cards, c.1 = Card.emptyName → c.2.qty = 0) ∨
          ((cards.map fun c => c.2.qty).sum : Nat) ≤ minSize) := by
  have hlisted := listed_of_build h
  obtain ⟨cards, hcards, rfl⟩ := result_build_eq_ok_iff.mp h
  generalize hdeck : (⟨slotsFor cards ++
    List.replicate (fillerCount minSize (slotsFor cards).length) .empty⟩ : Deck) = deck at hlisted ⊢
  have htold : List.Forall₂ (fun e h => e.1 = h.name ∧ Details.ofData e.2 = .ok h.details)
      deck.description deck.holdings :=
    List.forall₂_map_left_iff.mpr (List.forall₂_same.mpr fun h _ =>
      ⟨rfl, Document.details_of_same (.refl _)⟩)
  obtain ⟨deck', hbuilt, hholdings, hsize⟩ := ofEntries_of_holdings minSize hlisted htold
  rw [realSize_of_holdings hholdings] at hsize
  have hreal (name : String) (hname : name ≠ Card.emptyName) :
      deck'.copies name = deck.copies name := copies_of_holdings hholdings hname
  refine ⟨cards, deck', hcards, hbuilt, hreal, hsize, ?_⟩
  -- with the same real cards, decks of one size have the same fillers
  have hfillers : (deck'.size = deck.size ∧ ∀ name, deck'.copies name = deck.copies name) ↔
      deck'.size = deck.size := by
    apply and_iff_left_of_imp
    intro heq name
    by_cases hname : name = Card.emptyName
    · rw [size_eq, size_eq, realSize_of_holdings hholdings] at heq
      rw [hname]
      exact Nat.add_left_cancel heq
    · exact hreal name hname
  apply hfillers.trans
  obtain ⟨hle, hall⟩ :=
    realSize_of_build cards (fillerCount minSize (slotsFor cards).length)
  have hsize' := size_of_build cards minSize
  rw [hdeck] at hle hall hsize'
  rw [hsize, hsize', ← hall]
  omega

/-- A description that lists a card under the name of fillers. -/
def listedFiller : List (Scalar × Offer) :=
  [(.text "A", .ready ⟨2, [], false, []⟩), (.text "Empty Card", .ready ⟨1, [], false, []⟩)]

/-- With a least size of six, the deck has as many fillers again. -/
theorem rebuild_listedFiller :
    ∃ deck deck', (build listedFiller 6).result = .ok deck ∧
      (ofEntries deck.description 6).result = .ok deck' ∧ deck'.size = deck.size ∧
      ∀ name, (deck'.slots.map Card.name).count name = (deck.slots.map Card.name).count name := by
  have hbuilt : (build listedFiller 6).result = .ok _ := rfl
  obtain ⟨cards, deck', hcards, hbuilt', -, -, hsame⟩ := rebuild hbuilt
  have hroom : ((cards.map fun c => c.2.qty).sum : Nat) ≤ (6 : Int) := by
    simp only [listedFiller, List.forall₂_cons_left_iff, List.forall₂_nil_left_iff] at hcards
    obtain ⟨a, _, ha, ⟨b, _, hb, rfl, rfl⟩, rfl⟩ := hcards
    cases ha
    cases hb
    decide
  obtain ⟨hsize, hcopies⟩ := hsame.mpr (.inr hroom)
  exact ⟨_, deck', hbuilt, hbuilt', hsize, hcopies⟩

/-- With a least size of two, the listed filler is lost: the deck has three slots, and the deck that
is built from what it holds has two. -/
theorem filler_lost_listedFiller :
    ∃ deck deck', (build listedFiller 2).result = .ok deck ∧
      (ofEntries deck.description 2).result = .ok deck' ∧ deck.size = 3 ∧ deck'.size = 2 :=
  ⟨_, _, rfl, rfl, rfl, rfl⟩

end OpeningHand.Deck
