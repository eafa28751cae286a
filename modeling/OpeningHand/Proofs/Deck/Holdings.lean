import Mathlib.Data.List.Nodup
import OpeningHand.Proofs.Deck.Building
import OpeningHand.Proofs.Document.Outcome

/-!
# Holdings of decks

Building expands a description into slots, and holdings sum the slots up again. Between the two some
of a description is lost: cards without copies have no slots, cards named as the empty card do not
count, and slots do not tell which of their details came from further keys. What is left of distinct
names is one holding for each card that is held, in the order of the description
(`holdings_of_cards`).
-/

namespace OpeningHand

/-- The details that a holding stands for. -/
def Holding.details (h : Holding) : Details := ⟨h.qty, h.tags, h.free, []⟩

namespace Details

/-- A text that is read is not torn. -/
theorem not_isTorn_of_each_text {items : List Data} {index : Nat} {tags : List String}
    (h : Checked.each Field.text index items = .ok tags) : ∀ item ∈ items, ¬ item.isTorn = true := by
  induction items generalizing index tags with
  | nil => exact List.forall_mem_nil _
  | cons item items ih =>
    obtain ⟨tag, more, htag, hmore, -⟩ := Checked.both_eq_ok.mp h
    refine List.forall_mem_cons.mpr ⟨fun torn => ?_, ih hmore⟩
    cases item with
    | torn points => cases Checked.under_eq_ok.mp htag
    | scalar | list | set | map => cases torn

/-- Details that can be read have labels of characters. -/
theorem hasTornLabel_of_ofData {d : Data} {details : Details} (h : ofData d = .ok details) :
    hasTornLabel d = false := by
  cases d with
  | map es =>
    obtain ⟨_, _, hfirst, -, -⟩ := Checked.both_eq_ok.mp h
    obtain ⟨_, tags, -, htags, -⟩ := Checked.both_eq_ok.mp hfirst
    have htags := Checked.under_eq_ok.mp htags
    rw [hasTornLabel]
    split
    · next items hitems =>
      rw [hitems] at htags
      exact List.any_eq_false.mpr (not_isTorn_of_each_text htags)
    · rfl
  | scalar | torn | list | set => rfl

end Details

namespace Deck

/-! ## Descriptions by name -/

/-- An entry of a description and the card that it stands for. -/
def Describes (e : String × Data) (c : String × Details) : Prop :=
  e.1 = c.1 ∧ Text.isBlankText c.1.toList = false ∧ Details.ofData e.2 = .ok c.2

theorem offers_iff_describes {e : String × Data} {labels : Details.hasTornLabel e.2 = false}
    {c : String × Details} : Offers (.text e.1, .data e.2 labels) c ↔ Describes e c := by
  constructor
  · intro h
    cases h with
    | data named read => exact ⟨rfl, named, read⟩
  · obtain ⟨name, details⟩ := c
    rintro ⟨rfl, named, read⟩
    exact .data named read

theorem forall₂_offers_iff {entries : List (String × Data)}
    (labels : ∀ e ∈ entries, Details.hasTornLabel e.2 = false) {cards : List (String × Details)} :
    List.Forall₂ Offers (entries.pmap (fun e h => (.text e.1, .data e.2 h)) labels) cards ↔
      List.Forall₂ Describes entries cards := by
  induction entries generalizing cards with
  | nil => rw [List.pmap_nil, List.forall₂_nil_left_iff, List.forall₂_nil_left_iff]
  | cons e entries ih =>
    rw [List.pmap_cons, List.forall₂_cons_left_iff, List.forall₂_cons_left_iff]
    simp only [offers_iff_describes, ih]

/-- Entries that describe cards have labels of characters. -/
theorem labels_of_describes {entries : List (String × Data)} {cards : List (String × Details)}
    (h : List.Forall₂ Describes entries cards) :
    ∀ e ∈ entries, Details.hasTornLabel e.2 = false := by
  induction h with
  | nil => exact List.forall_mem_nil _
  | cons he _ ih => exact List.forall_mem_cons.mpr ⟨Details.hasTornLabel_of_ofData he.2.2, ih⟩

/-- A deck is built if every entry describes a card; it has the slots of the cards, and fillers. -/
theorem result_ofEntries_eq_ok_iff {entries : List (String × Data)} {minSize : Int} {deck : Deck} :
    (ofEntries entries minSize).result = .ok deck ↔
      ∃ cards, List.Forall₂ Describes entries cards ∧
        deck = ⟨slotsFor cards ++
          List.replicate (fillerCount minSize (slotsFor cards).length) .empty⟩ := by
  rw [ofEntries]
  split
  · next labels => simp only [result_build_eq_ok_iff, forall₂_offers_iff labels]
  · next torn =>
    refine iff_of_false ?_ ?_
    · rintro ⟨⟩
    · rintro ⟨cards, hcards, -⟩
      exact torn (labels_of_describes hcards)

/-! ## Holdings -/

/-- The holding that is left of a card, if any is. -/
def held (c : String × Details) : Option Holding :=
  if c.1 = Card.emptyName ∨ c.2.qty = 0 then none else some ⟨c.1, c.2.qty, c.2.tags, c.2.free⟩

variable {c : Card} {hs : List Holding}

/-- A slot adds its name to holdings that lack it, and changes no other name. -/
theorem map_name_hold (c : Card) (hs : List Holding) : (hold c hs).map Holding.name =
    if c.name ∈ hs.map Holding.name then hs.map Holding.name
    else hs.map Holding.name ++ [c.name] := by
  induction hs with
  | nil => rfl
  | cons h hs ih =>
    rw [hold]
    by_cases hname : h.name = c.name
    · have hmem : c.name ∈ (h :: hs).map Holding.name := by
        rw [← hname]
        exact List.mem_cons_self
      rw [if_pos hname, if_pos hmem]
      rfl
    · have hmem : c.name ∈ (h :: hs).map Holding.name ↔ c.name ∈ hs.map Holding.name := by
        rw [List.map_cons, List.mem_cons, or_iff_right (Ne.symm hname)]
      rw [if_neg hname, List.map_cons, ih]
      simp only [hmem]
      split <;> rfl

/-- No name is held twice. -/
theorem nodup_names (d : Deck) : (d.holdings.map Holding.name).Nodup := by
  have hrun (slots : List Card) : ∀ hs : List Holding, (hs.map Holding.name).Nodup →
      ((slots.foldl (fun acc c => hold c acc) hs).map Holding.name).Nodup := by
    induction slots with
    | nil => exact fun _ h => h
    | cons c slots ih =>
      intro hs h
      refine ih (hold c hs) ?_
      rw [map_name_hold]
      split
      next => exact h
      next hfresh =>
        rw [← List.concat_eq_append]
        exact .concat hfresh h
  exact hrun d.realSlots [] List.nodup_nil

/-- A slot counts for the holding of its name. -/
theorem tally_holdings (c : Card) (hs : List Holding) :
    tally c.name (hs.map fun h => (h.name, h.qty)) = (hold c hs).map fun h => (h.name, h.qty) := by
  induction hs with
  | nil => rfl
  | cons h hs ih =>
    rw [List.map_cons, tally, hold]
    split
    · rfl
    · rw [ih, List.map_cons]

/-- The counts of a deck are the copies of what it holds. -/
theorem counts_eq_map_holdings (d : Deck) :
    d.counts = d.holdings.map fun h => (h.name, h.qty) := by
  have hrun (slots : List Card) : ∀ hs : List Holding,
      slots.foldl (fun acc c => tally c.name acc) (hs.map fun h => (h.name, h.qty)) =
        (slots.foldl (fun acc c => hold c acc) hs).map fun h => (h.name, h.qty) := by
    induction slots with
    | nil => exact fun _ => rfl
    | cons c slots ih =>
      intro hs
      rw [List.foldl_cons, List.foldl_cons, tally_holdings]
      exact ih (hold c hs)
  exact hrun d.realSlots []

/-- A slot adds one copy to holdings. -/
theorem sum_qty_hold (c : Card) (hs : List Holding) :
    ((hold c hs).map Holding.qty).sum = (hs.map Holding.qty).sum + 1 := by
  induction hs with
  | nil => rfl
  | cons h hs ih =>
    rw [hold]
    split
    · simp only [List.map_cons, List.sum_cons]
      omega
    · rw [List.map_cons, List.sum_cons, ih, List.map_cons, List.sum_cons, Nat.add_assoc]

/-- The real cards of a deck are the copies that it holds. -/
theorem sum_qty_holdings (d : Deck) : (d.holdings.map Holding.qty).sum = d.realSize := by
  have hrun (slots : List Card) : ∀ hs : List Holding,
      ((slots.foldl (fun acc c => hold c acc) hs).map Holding.qty).sum =
        (hs.map Holding.qty).sum + slots.length := by
    induction slots with
    | nil => exact fun _ => rfl
    | cons c slots ih =>
      intro hs
      rw [List.foldl_cons, ih, sum_qty_hold, List.length_cons]
      omega
  exact (hrun d.realSlots []).trans (Nat.zero_add _)

/-- The first slot of a name starts a holding. -/
theorem hold_of_not_mem (fresh : c.name ∉ hs.map Holding.name) :
    hold c hs = hs ++ [⟨c.name, 1, c.details.tags, c.details.free⟩] := by
  induction hs with
  | nil => rfl
  | cons h hs ih =>
    obtain ⟨hne, fresh⟩ := List.ne_and_not_mem_of_not_mem_cons fresh
    rw [hold, if_neg (Ne.symm hne), ih fresh, List.cons_append]

/-- A further slot of the last name counts there. -/
theorem hold_last (fresh : c.name ∉ hs.map Holding.name) (qty : Nat) (tags : List String)
    (free : Bool) :
    hold c (hs ++ [⟨c.name, qty, tags, free⟩]) = hs ++ [⟨c.name, qty + 1, tags, free⟩] := by
  induction hs with
  | nil => rw [List.nil_append, hold, if_pos rfl, List.nil_append]
  | cons h hs ih =>
    obtain ⟨hne, fresh⟩ := List.ne_and_not_mem_of_not_mem_cons fresh
    rw [List.cons_append, hold, if_neg (Ne.symm hne), ih fresh, List.cons_append]

/-- A run of slots with a new name becomes one holding. -/
theorem foldl_hold_replicate (fresh : c.name ∉ hs.map Holding.name) (n : Nat) :
    (List.replicate (n + 1) c).foldl (fun acc c => hold c acc) hs =
      hs ++ [⟨c.name, n + 1, c.details.tags, c.details.free⟩] := by
  induction n with
  | zero => exact hold_of_not_mem fresh
  | succ n ih =>
    rw [List.replicate_succ', List.foldl_append, ih]
    exact hold_last fresh _ _ _

/-- Holdings take in the slots of further cards with names of their own. -/
theorem foldl_hold_slotsFor {cards : List (String × Details)}
    (distinct : (cards.map Prod.fst).Nodup)
    (fresh : ∀ name ∈ cards.map Prod.fst, name ∉ hs.map Holding.name) :
    ((slotsFor cards).filter fun c => !c.isEmpty).foldl (fun acc c => hold c acc) hs =
      hs ++ cards.filterMap held := by
  induction cards generalizing hs with
  | nil => exact (List.append_nil hs).symm
  | cons card cards ih =>
    obtain ⟨name, details⟩ := card
    obtain ⟨hnew, distinct⟩ := List.nodup_cons.mp distinct
    have hfresh : ∀ name ∈ cards.map Prod.fst, name ∉ hs.map Holding.name :=
      fun name' h => fresh name' (List.mem_cons_of_mem _ h)
    rw [slotsFor, List.flatMap_cons, List.filter_append, List.foldl_append]
    change List.foldl _ (List.foldl _ hs _) ((slotsFor cards).filter fun c => !c.isEmpty) = _
    by_cases hempty : name = Card.emptyName
    · have hskip : (List.replicate details.qty (⟨name, details⟩ : Card)).filter
          (fun c => !c.isEmpty) = [] := by
        refine List.filter_eq_nil_iff.mpr fun c hc => ?_
        rw [List.eq_of_mem_replicate hc]
        simp [Card.isEmpty, hempty]
      rw [hskip, List.foldl_nil, ih distinct hfresh, List.filterMap_cons, held,
        if_pos (.inl hempty)]
    · have hkeep : (List.replicate details.qty (⟨name, details⟩ : Card)).filter
          (fun c => !c.isEmpty) = List.replicate details.qty ⟨name, details⟩ := by
        refine List.filter_eq_self.mpr fun c hc => ?_
        rw [List.eq_of_mem_replicate hc]
        simp [Card.isEmpty, hempty]
      rw [hkeep, List.filterMap_cons]
      cases hqty : details.qty with
      | zero =>
        rw [List.replicate_zero, List.foldl_nil, ih distinct hfresh, held, if_pos (.inr hqty)]
      | succ n =>
        rw [foldl_hold_replicate (c := ⟨name, details⟩) (fresh name List.mem_cons_self) n,
          ih distinct ?_, held, if_neg (by simp [hempty, hqty]), hqty, List.append_assoc]
        · rfl
        · intro name' hname' hmem
          rw [List.map_append, List.mem_append] at hmem
          rcases hmem with hmem | hmem
          · exact hfresh name' hname' hmem
          · rw [List.map_singleton, List.mem_singleton] at hmem
            obtain rfl : name' = name := hmem
            exact hnew hname'

/-- Fillers are no real cards. -/
theorem realSlots_of_cards (cards : List (String × Details)) (fillers : Nat) :
    realSlots ⟨slotsFor cards ++ List.replicate fillers .empty⟩ =
      (slotsFor cards).filter fun c => !c.isEmpty := by
  have hskip : (List.replicate fillers Card.empty).filter (fun c => !c.isEmpty) = [] := by
    refine List.filter_eq_nil_iff.mpr fun c hc => ?_
    rw [List.eq_of_mem_replicate hc]
    decide
  rw [realSlots, List.filter_append, hskip, List.append_nil]

/-- A deck built from cards with distinct names holds those that are held, in their order. -/
theorem holdings_of_cards {cards : List (String × Details)}
    (distinct : (cards.map Prod.fst).Nodup) (fillers : Nat) :
    holdings ⟨slotsFor cards ++ List.replicate fillers .empty⟩ = cards.filterMap held := by
  rw [holdings, realSlots_of_cards,
    foldl_hold_slotsFor distinct fun _ _ => List.not_mem_nil, List.nil_append]

/-- A deck built from real cards is filled up to the least size. -/
theorem size_of_cards {cards : List (String × Details)}
    (real : ∀ c ∈ cards, c.1 ≠ Card.emptyName) (minSize : Int) :
    size ⟨slotsFor cards ++ List.replicate (fillerCount minSize (slotsFor cards).length) .empty⟩ =
      max minSize.toNat (realSize
        ⟨slotsFor cards ++ List.replicate (fillerCount minSize (slotsFor cards).length) .empty⟩) := by
  have hkeep : (slotsFor cards).filter (fun c => !c.isEmpty) = slotsFor cards := by
    refine List.filter_eq_self.mpr fun c hc => ?_
    obtain ⟨card, hmem, hc⟩ := List.mem_flatMap.mp hc
    rw [List.eq_of_mem_replicate hc]
    simpa [Card.isEmpty] using real card hmem
  rw [realSize, realSlots_of_cards, hkeep, size, List.length_append, List.length_replicate,
    fillerCount]
  omega

/-- Holdings that a deck can be built with: names that may be given to cards, all different, and
copies of each. -/
structure Listed (hs : List Holding) : Prop where
  distinct : (hs.map Holding.name).Nodup
  named : ∀ h ∈ hs, h.name ≠ Card.emptyName ∧ Text.isBlankText h.name.toList = false
  copies : ∀ h ∈ hs, h.qty ≠ 0

theorem Listed.perm {hs hs' : List Holding} (h : Listed hs) (order : hs'.Perm hs) :
    Listed hs' where
  distinct := (order.map _).nodup_iff.mpr h.distinct
  named h' hmem := h.named h' (order.mem_iff.mp hmem)
  copies h' hmem := h.copies h' (order.mem_iff.mp hmem)

/-- The names of what is held are among the names of the cards, in their order. -/
theorem sublist_names (cards : List (String × Details)) :
    ((cards.filterMap held).map Holding.name).Sublist (cards.map Prod.fst) := by
  induction cards with
  | nil => exact .slnil
  | cons c cards ih =>
    rw [List.filterMap_cons, held]
    split
    next h =>
      split at h
      · exact ih.cons _
      · cases h
    next h =>
      split at h
      · cases h
      · cases h
        exact ih.cons_cons _

/-- What a deck holds that was built from entries with different names. -/
theorem listed_of_ofEntries {entries : List (String × Data)} {minSize : Int} {deck : Deck}
    (distinct : (entries.map Prod.fst).Nodup)
    (h : (ofEntries entries minSize).result = .ok deck) : Listed deck.holdings := by
  obtain ⟨cards, hcards, rfl⟩ := result_ofEntries_eq_ok_iff.mp h
  have hnames : entries.map Prod.fst = cards.map Prod.fst := by
    clear h distinct
    induction hcards with
    | nil => rfl
    | cons hc _ ih => rw [List.map_cons, List.map_cons, hc.1, ih]
  have hblank : ∀ c ∈ cards, Text.isBlankText c.1.toList = false := by
    clear h distinct hnames
    induction hcards with
    | nil => exact List.forall_mem_nil _
    | cons hc _ ih => exact List.forall_mem_cons.mpr ⟨hc.2.1, ih⟩
  have hheld {h : Holding} (hmem : h ∈ cards.filterMap held) :
      ∃ c ∈ cards, h.name = c.1 ∧ h.name ≠ Card.emptyName ∧ h.qty ≠ 0 := by
    obtain ⟨c, hc, heq⟩ := List.mem_filterMap.mp hmem
    rw [held] at heq
    split at heq
    · cases heq
    next hkeep =>
      cases heq
      exact ⟨c, hc, rfl, not_or.mp hkeep⟩
  rw [holdings_of_cards (hnames ▸ distinct)]
  constructor
  · exact (sublist_names cards).nodup (hnames ▸ distinct)
  · intro h hmem
    obtain ⟨c, hc, hname, hne, -⟩ := hheld hmem
    exact ⟨hne, hname ▸ hblank c hc⟩
  · intro h hmem
    obtain ⟨_, -, -, -, hqty⟩ := hheld hmem
    exact hqty

/-- Entries that describe holdings build a deck that holds them, filled up to the least size. -/
theorem ofEntries_of_holdings {entries : List (String × Data)} {hs : List Holding} (minSize : Int)
    (listed : Listed hs)
    (hentries : List.Forall₂
      (fun e h => e.1 = h.name ∧ Details.ofData e.2 = .ok h.details) entries hs) :
    ∃ deck, (ofEntries entries minSize).result = .ok deck ∧ deck.holdings = hs ∧
      deck.size = max minSize.toNat deck.realSize := by
  have hnames : (hs.map fun h => (h.name, h.details)).map Prod.fst = hs.map Holding.name := by
    rw [List.map_map]
    rfl
  have hdescribes :
      List.Forall₂ Describes entries (hs.map fun h => (h.name, h.details)) := by
    have hblank := fun h hmem => (listed.named h hmem).2
    clear listed hnames
    induction hentries with
    | nil => exact .nil
    | cons he _ ih =>
      obtain ⟨hb, hblank⟩ := List.forall_mem_cons.mp hblank
      exact .cons ⟨he.1, hb, he.2⟩ (ih hblank)
  have hreal : ∀ c ∈ hs.map fun h => (h.name, h.details), c.1 ≠ Card.emptyName :=
    List.forall_mem_map.mpr fun h hmem => (listed.named h hmem).1
  refine ⟨_, result_ofEntries_eq_ok_iff.mpr ⟨_, hdescribes, rfl⟩, ?_, size_of_cards hreal minSize⟩
  rw [holdings_of_cards (hnames ▸ listed.distinct), List.filterMap_map]
  refine (List.filterMap_congr fun h hmem => ?_).trans List.filterMap_some
  exact if_neg (not_or.mpr ⟨(listed.named h hmem).1, listed.copies h hmem⟩)

/-! ## Descriptions -/

/-- The names among the keys of a description. -/
def namesIn (entries : List (Scalar × Offer)) : List String :=
  entries.filterMap fun entry =>
    match entry.1 with
    | .text name => some name
    | _ => none

theorem namesIn_of_offers {entries : List (Scalar × Offer)} {cards : List (String × Details)}
    (h : List.Forall₂ Offers entries cards) : namesIn entries = cards.map Prod.fst := by
  induction h with
  | nil => rfl
  | cons hentry _ ih =>
    cases hentry <;> exact congrArg (_ :: ·) ih

/-- What is held of cards: those with copies that are not named as the empty card. -/
theorem filterMap_held (cards : List (String × Details)) :
    cards.filterMap held =
      (cards.filter fun c => 1 ≤ c.2.qty ∧ c.1 ≠ Card.emptyName).map fun c =>
        ⟨c.1, c.2.qty, c.2.tags, c.2.free⟩ := by
  induction cards with
  | nil => rfl
  | cons c cards ih =>
    by_cases hheld : c.1 = Card.emptyName ∨ c.2.qty = 0
    · have hnot : ¬ (1 ≤ c.2.qty ∧ c.1 ≠ Card.emptyName) := by
        rintro ⟨hqty, hname⟩
        exact hheld.elim hname (Nat.ne_of_gt hqty)
      rw [List.filterMap_cons, held, if_pos hheld, List.filter_cons_of_neg (by simpa using hnot)]
      exact ih
    · obtain ⟨hname, hqty⟩ := not_or.mp hheld
      have hkeep : 1 ≤ c.2.qty ∧ c.1 ≠ Card.emptyName := ⟨Nat.pos_of_ne_zero hqty, hname⟩
      rw [List.filterMap_cons, held, if_neg hheld, List.filter_cons_of_pos (by simpa using hkeep),
        List.map_cons]
      exact congrArg (_ :: ·) ih

/-- Building a description with different names fails exactly if some entry is faulty. Then the
failure is that of the first such entry, and its words show the key of the entry, unless the key is a
number with more digits than may be written: then they tell that limit. Otherwise the deck
has the copies of each card, in the order of the entries, and fillers up to the least size; and it
holds just the cards with copies that are not named as the empty card, in the same order and with
their own labels and flag, whatever the least size is. -/
theorem build_ends {entries : List (Scalar × Offer)} (distinct : (namesIn entries).Nodup)
    (minSize : Int) :
    ((∃ e, (build entries minSize).result = .error e) ↔ ∃ entry ∈ entries, IsFaulty entry) ∧
    ((∃ before entry after e, entries = before ++ entry :: after ∧
        (∀ earlier ∈ before, ¬ IsFaulty earlier) ∧ Refuses entry e ∧
        (¬ TooLong entry.1 → Shows e.message entry.1) ∧
        (TooLong entry.1 → e.message = Number.tooLongMessage) ∧
        (build entries minSize).result = .error e) ∨
      ∃ cards deck, List.Forall₂ Offers entries cards ∧
        (build entries minSize).result = .ok deck ∧
        deck.slots = cards.flatMap (fun c => List.replicate c.2.qty ⟨c.1, c.2⟩) ++
          List.replicate (max 0 (minSize - (cards.map fun c => c.2.qty).sum)).toNat .empty ∧
        deck.holdings = (cards.filter fun c => 1 ≤ c.2.qty ∧ c.1 ≠ Card.emptyName).map fun c =>
          ⟨c.1, c.2.qty, c.2.tags, c.2.free⟩) := by
  rcases all_offer_or_first_refuses entries with ⟨cards, hcards⟩ |
    ⟨before, entry, after, cards, e, rfl, hcards, he⟩
  · have hresult : (build entries minSize).result = .ok _ :=
      result_build_eq_ok_iff.mpr ⟨cards, hcards, rfl⟩
    refine ⟨iff_of_false ?_ ?_, .inr ⟨cards, _, hcards, hresult, ?_, ?_⟩⟩
    · rintro ⟨e, he⟩
      cases hresult.symm.trans he
    · rintro ⟨entry, hmem, hfaulty⟩
      exact not_isFaulty_of_offers hcards entry hmem hfaulty
    · have hfillers : fillerCount minSize (slotsFor cards).length =
          (max 0 (minSize - (cards.map fun c => c.2.qty).sum)).toNat := by
        rw [length_slotsFor, fillerCount]
        omega
      show slotsFor cards ++ List.replicate _ Card.empty = _
      rw [hfillers]
      rfl
    · rw [holdings_of_cards (namesIn_of_offers hcards ▸ distinct), filterMap_held]
  · have hresult : (build (before ++ entry :: after) minSize).result = .error e :=
      result_build_eq_error_iff.mpr ⟨before, entry, after, cards, rfl, hcards, he⟩
    have hmem : entry ∈ before ++ entry :: after := List.mem_append_right _ List.mem_cons_self
    refine ⟨iff_of_true ⟨e, hresult⟩ ⟨entry, hmem, isFaulty_iff.mpr ⟨e, he⟩⟩, .inl ?_⟩
    exact ⟨before, entry, after, e, rfl, not_isFaulty_of_offers hcards, he, he.shows,
      he.message_of_tooLong, hresult⟩

/-- A description with a card that is read, one named as the empty card, one without copies and one
that is ready. -/
def fourEntries : List (Scalar × Offer) :=
  [(.text "A", .data (.map [(.text "qty", .scalar (.whole 2)), (.text "tags", .list [])]) rfl),
    (.text "Empty Card", .ready ⟨1, [], false, []⟩),
    (.text "B", .ready ⟨0, ["t"], false, []⟩),
    (.text "C", .ready ⟨1, ["t"], true, []⟩)]

theorem build_ends_fourEntries :
    (namesIn fourEntries).Nodup ∧ ∃ deck, (build fourEntries 6).result = .ok deck ∧
      deck.slots.map Card.name =
        ["A", "A", "Empty Card", "C", "Empty Card", "Empty Card"] ∧
      deck.holdings = [⟨"A", 2, [], false⟩, ⟨"C", 1, ["t"], true⟩] := by
  have distinct : (namesIn fourEntries).Nodup := by decide +kernel
  obtain ⟨-, ⟨_, _, _, e, -, -, -, -, -, herror⟩ |
    ⟨cards, deck, hcards, hresult, hslots, hholdings⟩⟩ := build_ends distinct 6
  · cases herror
  · simp only [fourEntries, List.forall₂_cons_left_iff, List.forall₂_nil_left_iff] at hcards
    obtain ⟨a, _, ha, ⟨b, _, hb, ⟨c, _, hc, ⟨d, _, hd, rfl, rfl⟩, rfl⟩, rfl⟩, rfl⟩ := hcards
    have hdetails : Details.ofData (.map [(.text "qty", .scalar (.whole 2)),
        (.text "tags", .list [])]) = .ok ⟨2, [], false, []⟩ := rfl
    cases ha with
    | data named read =>
      cases hdetails.symm.trans read
      cases hb
      cases hc
      cases hd
      exact ⟨distinct, deck, hresult, by rw [hslots]; rfl, by rw [hholdings]; rfl⟩

/-- The words for too many digits show no key that is not a text. -/
theorem not_shows_tooLongMessage {k : Scalar} (noText : ∀ name, k ≠ .text name) :
    ¬ Shows Number.tooLongMessage k := by
  rintro (⟨cs, -, hmessage⟩ | ⟨name, hname, -⟩)
  · unfold Number.tooLongMessage at hmessage
    -- the two differ in their first letters, before any digits
    generalize toString Number.maxDigits = digits at hmessage
    have hhead := congrArg (fun s : String => s.toList.head?) hmessage
    simp only [String.toList_append, List.append_assoc, List.head?_append] at hhead
    simp at hhead
  · exact noText name hname

/-- The least number with too many digits. -/
def longKey : Scalar := .whole (10 ^ Number.maxDigits : Nat)

theorem tooLong_longKey : TooLong longKey :=
  ⟨_, rfl, (Int.natAbs_natCast _).ge⟩

/-- A description with such a key is refused with words that do not show the key. -/
theorem longKey_not_shown :
    ∃ e, (build [(longKey, .ready ⟨1, [], false, []⟩)] 40).result = .error e ∧
      ¬ Shows e.message longKey := by
  have noText (name : String) : longKey ≠ .text name := Scalar.noConfusion
  have refuses : Refuses (longKey, .ready ⟨1, [], false, []⟩) (.cardName longKey) := .key noText
  refine ⟨_, result_build_eq_error_iff.mpr ⟨[], _, [], [], rfl, .nil, refuses⟩, ?_⟩
  rw [refuses.message_of_tooLong tooLong_longKey]
  exact not_shows_tooLongMessage noText

/-- The first faulty entry stops the building, though others follow. -/
example : (build [(.text "A", .ready ⟨1, [], false, []⟩), (.whole 5, .ready ⟨1, [], false, []⟩),
    (.text " ", .ready ⟨1, [], false, []⟩)] 40).result = .error (.cardName (.whole 5)) :=
  rfl

end Deck

end OpeningHand
