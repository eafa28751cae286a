import OpeningHand.Proofs.Data.Distinct
import OpeningHand.Proofs.Deck.Holdings

/-!
# What a deck tells of its slots

Counts and holdings are summed up slot by slot, each in its own way. Both come to what can be told of
a name by looking at all slots at once (`holdings_eq_map_told`): how many slots have it, and what the
first of them says. Slots with one name may differ in their details and stand anywhere; only real
cards are told of (`told_by_slots`).
-/

namespace OpeningHand.Deck

variable {c : Card} {slots : List Card} {name : String} {names : List String}

/-- The number of slots with a name, fillers included. -/
def copies (d : Deck) (name : String) : Nat := (d.slots.map Card.name).count name

/-- What slots tell of a name: how many have it, and the labels and flag of the first. -/
def told (slots : List Card) (name : String) : Holding :=
  let first := (slots.find? fun c => c.name = name).getD .empty
  ⟨name, (slots.map Card.name).count name, first.details.tags, first.details.free⟩

/-! ## One slot more -/

theorem find?_concat_of_mem (h : name ∈ slots.map Card.name) :
    (slots ++ [c]).find? (fun c => c.name = name) = slots.find? fun c => c.name = name := by
  obtain ⟨first, hfirst, rfl⟩ := List.mem_map.mp h
  obtain ⟨found, hfound⟩ := Option.isSome_iff_exists.mp
    (List.find?_isSome (p := fun c => c.name = first.name).mpr ⟨first, hfirst, by simp⟩)
  rw [List.find?_append, hfound, Option.some_or]

/-- A slot with another name tells nothing of a name. -/
theorem told_concat_of_ne (hne : c.name ≠ name) : told (slots ++ [c]) name = told slots name := by
  have hfind : [c].find? (fun c => c.name = name) = none := by simp [hne]
  simp only [told, List.find?_append, hfind, Option.or_none, List.map_append, List.count_append,
    List.map_singleton, List.count_singleton, beq_iff_eq, hne, if_false, Nat.add_zero]

/-- A further slot with a name adds to the copies alone. -/
theorem told_concat_of_mem (h : c.name ∈ slots.map Card.name) :
    told (slots ++ [c]) c.name =
      { told slots c.name with qty := (told slots c.name).qty + 1 } := by
  simp only [told, find?_concat_of_mem h, List.map_append, List.count_append, List.map_singleton,
    List.count_singleton_self]

/-- The first slot with a name tells its labels and flag. -/
theorem told_concat_of_not_mem (h : c.name ∉ slots.map Card.name) :
    told (slots ++ [c]) c.name = ⟨c.name, 1, c.details.tags, c.details.free⟩ := by
  have hnone : slots.find? (fun c' => c'.name = c.name) = none := by
    apply List.find?_eq_none.mpr
    intro c' hc' hname
    exact h (of_decide_eq_true hname ▸ List.mem_map_of_mem hc')
  simp [told, List.find?_append, hnone, List.count_eq_zero_of_not_mem h]

/-! ## All slots -/

/-- A slot whose name is held adds a copy there. -/
theorem hold_map {f : String → Holding} (distinct : names.Nodup)
    (named : ∀ name, (f name).name = name) (mem : c.name ∈ names) :
    hold c (names.map f) =
      names.map fun name =>
        if name = c.name then { f name with qty := (f name).qty + 1 } else f name := by
  induction names with
  | nil => cases mem
  | cons name names ih =>
    obtain ⟨hnew, distinct⟩ := List.nodup_cons.mp distinct
    rw [List.map_cons, List.map_cons, hold]
    by_cases heq : name = c.name
    · have hrest : ∀ other ∈ names, other ≠ c.name := by
        rintro other hother rfl
        exact hnew (heq ▸ hother)
      rw [if_pos ((named name).trans heq), if_pos heq]
      apply congrArg (_ :: ·)
      apply List.map_congr_left
      intro other hother
      rw [if_neg (hrest other hother)]
    · have hmem : c.name ∈ names := (List.mem_cons.mp mem).resolve_left (Ne.symm heq)
      rw [if_neg (mt (named name).symm.trans heq), if_neg heq, ih distinct hmem]

/-- Slots are held under their names, in order of first appearance, as they tell of them. The
induction is on the last slot. -/
theorem foldl_hold_eq (slots : List Card) :
    slots.foldl (fun acc c => hold c acc) [] =
      (slots.map Card.name).eraseDups.map (told slots) := by
  induction slots using List.reverseRecOn with
  | nil => rfl
  | append_singleton slots c ih =>
    have hkeep : ∀ names : List String, c.name ∉ names →
        names.map (told (slots ++ [c])) = names.map (told slots) := by
      intro names hnames
      apply List.map_congr_left
      intro name hname
      exact told_concat_of_ne fun heq => hnames (heq ▸ hname)
    rw [List.foldl_append, ih, List.foldl_cons, List.foldl_nil, List.map_append, List.map_singleton,
      eraseDups_concat]
    by_cases hmem : c.name ∈ slots.map Card.name
    · rw [if_pos hmem, hold_map (nodup_eraseDups _) (fun _ => rfl) (List.mem_eraseDups.mpr hmem)]
      apply List.map_congr_left
      intro name _
      by_cases heq : name = c.name
      · rw [if_pos heq, heq, told_concat_of_mem hmem]
      · rw [if_neg heq, told_concat_of_ne (Ne.symm heq)]
    · have hfresh : c.name ∉ (slots.map Card.name).eraseDups := mt List.mem_eraseDups.mp hmem
      have hnew : c.name ∉ ((slots.map Card.name).eraseDups.map (told slots)).map Holding.name := by
        rw [List.map_map]
        simpa [Function.comp_def, told] using hmem
      rw [if_neg hmem, hold_of_not_mem hnew, List.map_append, hkeep _ hfresh,
        List.map_singleton, told_concat_of_not_mem hmem]

/-! ## Real cards -/

theorem names_realSlots (d : Deck) :
    d.realSlots.map Card.name = (d.slots.map Card.name).filter (· ≠ Card.emptyName) := by
  rw [realSlots, List.filter_map]
  apply congrArg
  apply List.filter_congr
  intro c _
  simp [Card.isEmpty]

/-- Fillers tell nothing of a real card. -/
theorem told_realSlots (d : Deck) (hname : name ≠ Card.emptyName) :
    told d.realSlots name = told d.slots name := by
  have hfind : d.realSlots.find? (fun c => c.name = name) =
      d.slots.find? fun c => c.name = name := by
    rw [realSlots, List.find?_filter]
    congr 1
    funext c
    by_cases heq : c.name = name
    · simp [Card.isEmpty, heq, hname]
    · simp [heq]
  have hcount : (d.realSlots.map Card.name).count name = (d.slots.map Card.name).count name := by
    rw [names_realSlots, List.count_filter (by simpa using hname)]
  simp only [told, hfind, hcount]

/-- The names of the real cards of a deck, in order of first appearance. -/
def realNames (d : Deck) : List String :=
  ((d.slots.map Card.name).filter (· ≠ Card.emptyName)).eraseDups

theorem mem_realNames_iff {d : Deck} :
    name ∈ d.realNames ↔ name ∈ d.slots.map Card.name ∧ name ≠ Card.emptyName := by
  rw [realNames, List.mem_eraseDups, List.mem_filter, decide_eq_true_eq]

theorem holdings_eq_map_told (d : Deck) : d.holdings = d.realNames.map (told d.slots) := by
  rw [holdings, foldl_hold_eq, names_realSlots]
  apply List.map_congr_left
  intro name hname
  exact told_realSlots d (mem_realNames_iff.mp hname).2

theorem map_name_holdings (d : Deck) : d.holdings.map Holding.name = d.realNames := by
  rw [holdings_eq_map_told, List.map_map]
  exact List.map_id _

/-- Looking up a name finds the copies of a real card, and nothing for any other name. -/
theorem quantity_eq (d : Deck) (name : String) :
    d.quantity name = if name = Card.emptyName then 0 else d.copies name := by
  have hcounts : d.counts = d.realNames.map fun name => (name, d.copies name) := by
    rw [counts_eq_map_holdings, holdings_eq_map_told, List.map_map]
    rfl
  rw [quantity, hcounts]
  by_cases hmem : name ∈ d.realNames
  · rw [List.lookup_graph _ hmem, if_neg (mem_realNames_iff.mp hmem).2, Option.getD_some]
  · have hnone : (d.realNames.map fun name => (name, d.copies name)).lookup name = none := by
      apply List.lookup_eq_none_iff.mpr
      intro p hp
      obtain ⟨other, hother, rfl⟩ := List.mem_map.mp hp
      exact bne_iff_ne.mpr fun heq => hmem (heq ▸ hother)
    rw [hnone, Option.getD_none]
    split
    next => rfl
    next hname =>
      have hslots : name ∉ d.slots.map Card.name :=
        fun h => hmem (mem_realNames_iff.mpr ⟨h, hname⟩)
      exact (List.count_eq_zero_of_not_mem hslots).symm

/-- Counts and holdings tell the same of a deck, whatever its slots are: the same names in order of
first appearance, with the same copies, which are the slots with that name. Fillers are not told of,
and no real card is left out: the copies add up to their number, and no other name has copies. The
labels and the flag of a name are those of its first slot. -/
theorem told_by_slots (d : Deck) :
    d.counts = d.holdings.map (fun h => (h.name, h.qty)) ∧
    d.holdings.map Holding.name =
      ((d.slots.map Card.name).filter (· ≠ Card.emptyName)).eraseDups ∧
    (∀ h ∈ d.holdings, h.name ≠ Card.emptyName ∧
      h.qty = (d.slots.map Card.name).count h.name ∧ h.qty = d.quantity h.name ∧
      ∃ first, d.slots.find? (fun c => c.name = h.name) = some first ∧
        h.tags = first.details.tags ∧ h.free = first.details.free) ∧
    (d.holdings.map Holding.qty).sum = d.realSize ∧
    ∀ name, name ∉ d.holdings.map Holding.name → d.quantity name = 0 := by
  refine ⟨counts_eq_map_holdings d, map_name_holdings d, ?_, sum_qty_holdings d, ?_⟩
  · intro h hmem
    rw [holdings_eq_map_told] at hmem
    obtain ⟨name, hname, rfl⟩ := List.mem_map.mp hmem
    obtain ⟨hslot, hreal⟩ := mem_realNames_iff.mp hname
    obtain ⟨c, hc, rfl⟩ := List.mem_map.mp hslot
    obtain ⟨first, hfirst⟩ := Option.isSome_iff_exists.mp
      (List.find?_isSome (p := fun c' => c'.name = c.name).mpr ⟨c, hc, by simp⟩)
    refine ⟨hreal, rfl, ?_, first, hfirst, ?_, ?_⟩
    · rw [quantity_eq]
      exact (if_neg hreal).symm
    · simp only [told, hfirst, Option.getD_some]
    · simp only [told, hfirst, Option.getD_some]
  · intro name hname
    rw [map_name_holdings, mem_realNames_iff] at hname
    rw [quantity_eq]
    by_cases hempty : name = Card.emptyName
    · exact if_pos hempty
    · rw [if_neg hempty]
      exact List.count_eq_zero_of_not_mem fun h => hname ⟨h, hempty⟩

/-- A later slot of a name changes neither labels nor flag, and a filler is left out. -/
example : holdings ⟨[⟨"A", ⟨1, ["t"], true, []⟩⟩, ⟨"B", ⟨1, [], false, []⟩⟩, .empty,
    ⟨"A", ⟨1, [], false, []⟩⟩]⟩ = [⟨"A", 2, ["t"], true⟩, ⟨"B", 1, [], false⟩] :=
  rfl

end OpeningHand.Deck
