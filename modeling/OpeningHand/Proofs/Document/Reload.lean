import Mathlib.Data.List.Perm.Basic
import OpeningHand.Proofs.Condition.Points
import OpeningHand.Proofs.Condition.RoundTrip
import OpeningHand.Proofs.Data.OutlineData
import OpeningHand.Proofs.Deck.Holdings
import OpeningHand.Proofs.Document.Cards
import OpeningHand.Proofs.Document.Saving

/-!
# Saving and loading again

A scenario that was loaded can be saved, and the saved text can be loaded again, provided that the
text says what was saved. The second load gives the holdings of the first, in their order unless the
document was sorted, and the same conditions; saved again, it gives the same text. It fails in one
case only: a condition whose groups nest one level deeper than its text may.

That the text says what was saved is a hypothesis on the text, `Yaml.load` of it, up to the order of
entries if the document was sorted.
-/

namespace OpeningHand

/-! ## Details -/

namespace Details

/-- Texts are read as they are. -/
theorem each_text (tags : List String) (index : Nat) :
    Checked.each Field.text index (tags.map fun s => .scalar (.text s)) = .ok tags := by
  induction tags generalizing index with
  | nil => rfl
  | cons s tags ih =>
    rw [List.map_cons, Checked.each, ih]
    rfl

theorem readExtra_of_own {es : Entries Data}
    (own : ∀ k ∈ es.map Prod.fst, k ∈ ownFields.map Scalar.text) : readExtra es = .ok [] := by
  induction es with
  | nil => rfl
  | cons e es ih =>
    obtain ⟨k, d⟩ := e
    obtain ⟨hk, hes⟩ := List.forall_mem_cons.mp own
    obtain ⟨name, hname, rfl⟩ := List.mem_map.mp hk
    rw [readExtra, if_pos (List.contains_iff_mem.mpr hname)]
    exact ih hes

end Details

namespace Document

/-- The fields of a holding, whatever their order. -/
theorem fields_of_same {h : Holding} {d : Data} (same : d.Same (holdingEntry h).2.toData) :
    ∃ es, d = .map es ∧ Entries.field? "qty" es = some (.scalar (.whole h.qty)) ∧
      Entries.field? "tags" es = some (.list (h.tags.map fun s => .scalar (.text s))) ∧
      Entries.field? "free" es = some (.scalar (.flag h.free)) ∧
      ∀ k ∈ es.map Prod.fst, k ∈ Details.ownFields.map Scalar.text := by
  obtain ⟨es, rfl, same⟩ := same.exists_entries
  have distinct : (Entries.keys (Outline.entriesData [("qty", .number h.qty),
      ("tags", .list (h.tags.map .text)), ("free", .flag h.free)])).Nodup :=
    show [Scalar.Key.text "qty", .text "tags", .text "free"].Nodup by decide
  have htags : Outline.itemsData (h.tags.map .text) =
      (h.tags.map Scalar.text).map Data.scalar := by
    rw [Outline.itemsData_eq_map, List.map_map, List.map_map]
    rfl
  obtain ⟨qty, hqty, sameQty⟩ := same.get? (k := .text "qty") distinct rfl
  obtain ⟨tags, htags', sameTags⟩ := same.get? (k := .text "tags") distinct rfl
  obtain ⟨free, hfree, sameFree⟩ := same.get? (k := .text "free") distinct rfl
  refine ⟨es, rfl, ?_, ?_, ?_, fun k hk => same.perm_names.mem_iff.mp hk⟩
  · rw [Entries.field?, hqty, sameQty.eq_scalar]
  · rw [Outline.toData, htags] at sameTags
    rw [Entries.field?, htags', sameTags.eq_scalars, List.map_map]
    rfl
  · rw [Entries.field?, hfree, sameFree.eq_scalar]

theorem details_of_same {h : Holding} {d : Data} (same : d.Same (holdingEntry h).2.toData) :
    Details.ofData d = .ok h.details := by
  obtain ⟨es, rfl, hqty, htags, hfree, own⟩ := fields_of_same same
  rw [Details.ofData, Details.ofEntries, hqty, htags, hfree, Details.readExtra_of_own own,
    Details.readTags, Details.each_text]
  rfl

theorem checkCard_of_same {h : Holding} {d : Data} (same : d.Same (holdingEntry h).2.toData) :
    checkCard (.text h.name) d = .ok () := by
  obtain ⟨es, rfl, hqty, htags, -⟩ := fields_of_same same
  rw [checkCard, if_neg (by simp), hqty, htags]
  rfl

/-! ## Stages of a load -/

/-- An entry of a deck that is checked and read as a holding. -/
structure Fits (e : Scalar × Data) (h : Holding) : Prop where
  key : e.1 = .text h.name
  checked : checkCard e.1 e.2 = .ok ()
  details : Details.ofData e.2 = .ok h.details

variable {ds : Entries Data} {hs : List Holding}

theorem checkCards_of_fits (h : List.Forall₂ Fits ds hs) : checkCards ds = .ok () := by
  induction h with
  | nil => rfl
  | cons he _ ih =>
    rw [checkCards, he.checked, ih]
    rfl

/-- Cards are named as the holdings that their entries are read as. -/
theorem named_of_fits (h : List.Forall₂ Fits ds hs) (distinct : (hs.map Holding.name).Nodup) :
    ∃ cards, named ds = .ok cards ∧
      List.Forall₂ (fun e h => e.1 = h.name ∧ Details.ofData e.2 = .ok h.details) cards hs := by
  have hcards : ∃ cards, List.Forall₂ Names ds cards ∧ cards.map Prod.fst = hs.map Holding.name ∧
      List.Forall₂ (fun e h => e.1 = h.name ∧ Details.ofData e.2 = .ok h.details) cards hs := by
    clear distinct
    induction h with
    | nil => exact ⟨[], .nil, rfl, .nil⟩
    | @cons e h _ _ he _ ih =>
      obtain ⟨cards, hnames, heq, hdetails⟩ := ih
      refine ⟨(h.name, e.2) :: cards, .cons ⟨?_, rfl⟩ hnames, ?_,
        .cons ⟨rfl, he.details⟩ hdetails⟩
      · rw [he.key, nameOfKey, Scalar.text?]
        simp only [String.ofList_toList]
      · rw [List.map_cons, List.map_cons, heq]
  obtain ⟨cards, hnames, heq, hdetails⟩ := hcards
  exact ⟨cards, named_eq_ok_iff.mpr ⟨hnames, heq ▸ distinct⟩, hdetails⟩

theorem conditionTexts_text (texts : List String) (index : Nat) :
    conditionTexts index (texts.map fun s => .scalar (.text s)) =
      .ok (texts.map Text.points) := by
  induction texts generalizing index with
  | nil => rfl
  | cons s texts ih =>
    rw [List.map_cons, conditionTexts, Data.points?, ih]
    rfl

/-- A text whose map is read as holdings and holds texts of conditions: reading it builds a deck with
these holdings, filled up to the least size, and then reads the conditions. -/
theorem result_read_of_fits {text : String} {es : Entries Data} {texts : List String}
    (minSize : Int) (hload : Yaml.load text = .ok (.map es))
    (hdeck : Entries.field? "deck" es = some (.map ds)) (hds : List.Forall₂ Fits ds hs)
    (hconditions : Entries.field? "conditions" es =
      some (.list (texts.map fun s => .scalar (.text s))))
    (listed : Deck.Listed hs) :
    ∃ deck : Deck, deck.holdings = hs ∧ deck.size = max minSize.toNat deck.realSize ∧
      (read Deck.ofEntries minSize text).result = do
        let conditions ← (Condition.readAll (texts.map Text.points)).result
        return ⟨deck, conditions⟩ := by
  obtain ⟨cards, hcards, hdetails⟩ := named_of_fits hds listed.distinct
  obtain ⟨deck, hbuilt, hholdings, hsize⟩ := Deck.ofEntries_of_holdings minSize listed hdetails
  have hshape : Shape.ofData (.map es) = .ok ⟨ds, texts.map Text.points⟩ :=
    ofData_eq_ok_iff.mpr ⟨es, _, rfl, hdeck, hconditions, checkCards_of_fits hds,
      conditionTexts_text texts 0⟩
  have hhanded : handed text = .ok (cards, texts.map Text.points) := by
    rw [handed, hload]
    refine bind_eq_ok.mpr ⟨_, rfl, bind_eq_ok.mpr ⟨_, hshape, bind_eq_ok.mpr ⟨_, hcards, rfl⟩⟩⟩
  refine ⟨deck, hholdings, hsize, ?_⟩
  rw [result_read, hhanded]
  show (do
    let deck ← (Deck.ofEntries cards minSize).result
    let conditions ← (Condition.readAll (texts.map Text.points)).result
    return (⟨deck, conditions⟩ : Scenario)) = _
  rw [hbuilt]
  rfl

/-- An entry of a deck that says what a holding is. -/
def Tells (e : Scalar × Data) (h : Holding) : Prop :=
  e.1 = .text h.name ∧ e.2.Same (holdingEntry h).2.toData

theorem Tells.fits {e : Scalar × Data} {h : Holding} (tells : Tells e h) : Fits e h where
  key := tells.1
  checked := tells.1 ▸ checkCard_of_same tells.2
  details := details_of_same tells.2

/-- A text whose map tells of holdings and holds texts of conditions: reading it builds a deck with
these holdings, and then reads the conditions. -/
theorem result_read_of_tells {text : String} {es : Entries Data} {texts : List String}
    (minSize : Int) (hload : Yaml.load text = .ok (.map es))
    (hdeck : Entries.field? "deck" es = some (.map ds)) (hds : List.Forall₂ Tells ds hs)
    (hconditions : Entries.field? "conditions" es =
      some (.list (texts.map fun s => .scalar (.text s))))
    (listed : Deck.Listed hs) :
    ∃ deck : Deck, deck.holdings = hs ∧ (read Deck.ofEntries minSize text).result = do
      let conditions ← (Condition.readAll (texts.map Text.points)).result
      return ⟨deck, conditions⟩ := by
  obtain ⟨deck, hholdings, -, hresult⟩ := result_read_of_fits minSize hload hdeck
    (hds.imp fun _ _ tells => tells.fits) hconditions listed
  exact ⟨deck, hholdings, hresult⟩

end Document

/-! ## Conditions -/

namespace Condition

theorem readAll_points_eq_ok_iff {texts : List String} {cs : List Condition} :
    (readAll (texts.map Text.points)).result = .ok cs ↔
      List.Forall₂ (fun text c => parse text = .ok c) texts cs := by
  rw [readAll_eq_ok_iff, List.forall₂_map_left_iff]
  simp only [parsePoints_points]

/-- The text of a condition that was read is read as that condition, or not at all. -/
theorem parse_render_of_parse {text : String} {c c' : Condition} (h : parse text = .ok c) :
    parse (render c) = .ok c' ↔ c' = c ∧ c.depth ≤ maxNesting := by
  obtain ⟨expr, -, -⟩ := expr_of_parse h
  have writable := writable_of_parse h
  have groups : c.GroupsHave 1 := expr.groupsHave.mono (by decide)
  by_cases room : c.depth ≤ maxNesting
  · rw [parse_render groups writable room, collapse_eq_self expr.groupsHave, and_iff_left room]
    exact ⟨fun h => (Except.ok.inj h).symm, fun h => congrArg _ h.symm⟩
  · obtain ⟨position, hdeep⟩ := parse_render_too_deep groups writable (Nat.not_le.mp room)
    rw [hdeep]
    exact iff_of_false (nomatch ·) fun h => room h.2

/-- The texts of conditions that were read are read as these conditions, or not at all. -/
theorem readAll_render {texts : List (List Text.Point)} {cs cs' : List Condition}
    (h : (readAll texts).result = .ok cs) :
    (readAll ((cs.map render).map Text.points)).result = .ok cs' ↔
      cs' = cs ∧ ∀ c ∈ cs, c.depth ≤ maxNesting := by
  rw [readAll_points_eq_ok_iff]
  rw [readAll_eq_ok_iff] at h
  induction h generalizing cs' with
  | nil =>
    rw [List.map_nil, List.forall₂_nil_left_iff]
    exact (and_iff_left (List.forall_mem_nil _)).symm
  | @cons text c texts cs hc _ ih =>
    obtain ⟨s, -, hs⟩ := parsePoints_eq_ok_iff_exists.mp hc
    rw [List.map_cons, List.forall₂_cons_left_iff, List.forall_mem_cons]
    simp only [parse_render_of_parse hs, ih]
    constructor
    · rintro ⟨_, _, ⟨rfl, hdepth⟩, ⟨rfl, hdepths⟩, rfl⟩
      exact ⟨rfl, hdepth, hdepths⟩
    · rintro ⟨rfl, hdepth, hdepths⟩
      exact ⟨c, cs, ⟨rfl, hdepth⟩, ⟨rfl, hdepths⟩, rfl⟩

end Condition

/-! ## Saving and loading again -/

namespace Library

/-- What is saved of a scenario. -/
def outline (s : Scenario) : Outline :=
  .record [Document.deckEntry s.deck, Document.conditionsEntry (s.conditions.map Condition.render)]

/-- A text says what was saved of a scenario, up to the order of entries if it was sorted. -/
def Says (sortKeys : Bool) (text : String) (s : Scenario) : Prop :=
  ∃ d, Yaml.load text = .ok d ∧
    if sortKeys then d.Same (outline s).toData else d = (outline s).toData

theorem toData_outline (s : Scenario) :
    (outline s).toData = .map [
      (.text "deck", .map (s.deck.holdings.map fun h =>
        (.text h.name, (Document.holdingEntry h).2.toData))),
      (.text "conditions", .list (s.conditions.map fun c => .scalar (.text c.render)))] := by
  simp only [outline, Document.deckEntry, Document.conditionsEntry, Outline.toData,
    Outline.entriesData, Outline.entriesData_eq_map, Outline.itemsData_eq_map, List.map_map,
    Function.comp_def]
  rfl

/-- A text that says what was saved tells of the holdings, in their order if it was not sorted. -/
theorem Says.tells {sortKeys : Bool} {text : String} {s : Scenario} (h : Says sortKeys text s) :
    ∃ es ds hs, Yaml.load text = .ok (.map es) ∧
      Entries.field? "deck" es = some (.map ds) ∧ List.Forall₂ Document.Tells ds hs ∧
      Entries.field? "conditions" es =
        some (.list ((s.conditions.map Condition.render).map fun s => .scalar (.text s))) ∧
      hs.Perm s.deck.holdings ∧ (sortKeys = false → hs = s.deck.holdings) := by
  obtain ⟨d, hload, hd⟩ := h
  have htells : List.Forall₂ Document.Tells (s.deck.holdings.map fun h =>
      (.text h.name, (Document.holdingEntry h).2.toData)) s.deck.holdings :=
    List.forall₂_map_left_iff.mpr (List.forall₂_same.mpr fun h _ => ⟨rfl, .refl _⟩)
  cases sortKeys with
  | false =>
    have hd : d = (outline s).toData := hd
    rw [toData_outline] at hd
    subst hd
    refine ⟨_, _, _, hload, rfl, htells, ?_, .refl _, fun _ => rfl⟩
    rw [List.map_map]
    rfl
  | true =>
    have same : d.Same (outline s).toData := hd
    rw [toData_outline] at same
    obtain ⟨es, rfl, same⟩ := same.exists_entries
    have distinct : (Entries.keys [
        (Scalar.text "deck", Data.map (s.deck.holdings.map fun h =>
          (.text h.name, (Document.holdingEntry h).2.toData))),
        (.text "conditions", .list (s.conditions.map fun c => .scalar (.text c.render)))]).Nodup :=
      show [Scalar.Key.text "deck", .text "conditions"].Nodup by decide
    obtain ⟨deck, hdeck, sameDeck⟩ := same.get? (k := .text "deck") distinct rfl
    obtain ⟨conditions, hconditions, sameConditions⟩ :=
      same.get? (k := .text "conditions") distinct rfl
    obtain ⟨ds, rfl, sameDeck⟩ := sameDeck.exists_entries
    obtain ⟨between, order, heach⟩ := sameDeck.exists_between
    obtain ⟨hs, hds, horder⟩ :=
      List.perm_comp_forall₂ order (List.forall₂_map_right_iff.mp heach)
    refine ⟨es, ds, hs, hload, hdeck, hds.imp fun e h he => ⟨he.1, he.2⟩, ?_, horder, nofun⟩
    have hrender : s.conditions.map (fun c => Data.scalar (.text c.render)) =
        (s.conditions.map fun c => Scalar.text c.render).map Data.scalar :=
      (List.map_map ..).symm
    rw [hrender] at sameConditions
    rw [Entries.field?, hconditions, sameConditions.eq_scalars, ← hrender, List.map_map]
    rfl

/-- What a load with the library's own builder gives: holdings that a deck can be built with, and
conditions that were read. -/
theorem parts_of_load {settings : Settings} {source text : String} {s : Scenario}
    (h : (load settings Deck.ofEntries source text).result = .ok s) :
    Deck.Listed s.deck.holdings ∧ ∃ texts, (Condition.readAll texts).result = .ok s.conditions := by
  refine ⟨?_, readAll_of_load h⟩
  obtain ⟨minSize, -, hread⟩ := result_load_eq_ok_iff.mp h
  rw [Document.result_read] at hread
  obtain ⟨⟨cards, texts⟩, hhanded, hread⟩ := bind_eq_ok.mp hread
  obtain ⟨deck, hbuilt, hread⟩ := bind_eq_ok.mp hread
  obtain ⟨conditions, -, hread⟩ := bind_eq_ok.mp hread
  cases hread
  obtain ⟨_, -, hrest⟩ := bind_eq_ok.mp hhanded
  obtain ⟨_, -, hrest⟩ := bind_eq_ok.mp hrest
  obtain ⟨_, hcards, hrest⟩ := bind_eq_ok.mp hrest
  cases hrest
  exact Deck.listed_of_ofEntries (Document.named_eq_ok_iff.mp hcards).2 hbuilt

/-- Scenarios with the same conditions, and with holdings that differ at most in an order that is
sorted away, are saved alike. -/
theorem result_save_congr {settings : Settings} {sortKeys : Bool} {s s' : Scenario}
    (hsort : settings.sortKeys = .ok sortKeys) (conditions : s'.conditions = s.conditions)
    (order : s'.deck.holdings.Perm s.deck.holdings)
    (unsorted : sortKeys = false → s'.deck.holdings = s.deck.holdings)
    (distinct : (s.deck.holdings.map Holding.name).Nodup)
    (short : ∀ c ∈ s.conditions, c.HasShortQuantities) :
    (save settings s').result = (save settings s).result := by
  rw [result_save _ short, result_save _ (conditions ▸ short), hsort, conditions]
  refine congrArg Except.ok ?_
  cases sortKeys with
  | false =>
    have hdeck : Document.deckEntry s'.deck = Document.deckEntry s.deck := by
      rw [Document.deckEntry, Document.deckEntry, unsorted rfl]
    simp only [Document.writeAll, hdeck]
  | true =>
    have hsorted : (Outline.record (s'.deck.holdings.map Document.holdingEntry)).sorted =
        (Outline.record (s.deck.holdings.map Document.holdingEntry)).sorted := by
      refine Outline.sorted_perm (order.map _) ?_
      rw [List.map_map]
      exact (order.map _).nodup_iff.mpr distinct
    simp only [Document.writeAll, Document.write, Document.deckEntry, Outline.sorted,
      Outline.sortedEntries, if_true] at hsorted ⊢
    rw [Outline.record.inj hsorted]

/-- A scenario that was loaded with the library's own builder is saved under settings that can be
read. If the saved text says what was saved, then it is loaded again exactly if the groups of every
condition keep to the limit; and what is loaded has the same conditions, the same holdings, in the
same order unless it was sorted, and is saved as the same text. -/
theorem reload {settings : Settings} {sortKeys : Bool} {source text : String} {s : Scenario}
    (hload : (load settings Deck.ofEntries source text).result = .ok s)
    (hsort : settings.sortKeys = .ok sortKeys) :
    ∃ saved, (save settings s).result = .ok saved ∧ (Says sortKeys saved s → ∀ source',
      ((∃ s', (load settings Deck.ofEntries source' saved).result = .ok s') ↔
        ∀ c ∈ s.conditions, c.depth ≤ Condition.maxNesting) ∧
      ∀ s', (load settings Deck.ofEntries source' saved).result = .ok s' →
        s'.conditions = s.conditions ∧ s'.deck.holdings.Perm s.deck.holdings ∧
        (sortKeys = false → s'.deck.holdings = s.deck.holdings) ∧
        (save settings s').result = .ok saved) := by
  have short := hasShortQuantities_of_load hload
  obtain ⟨saved, hsaved⟩ : ∃ saved, (save settings s).result = .ok saved := by
    rw [result_save _ short, hsort]
    exact ⟨_, rfl⟩
  refine ⟨saved, hsaved, fun hsays source' => ?_⟩
  obtain ⟨listed, texts, hread⟩ := parts_of_load hload
  obtain ⟨minSize, hsize, -⟩ := result_load_eq_ok_iff.mp hload
  obtain ⟨es, ds, hs, hdata, hdeck, hds, hconditions, order, unsorted⟩ := hsays.tells
  obtain ⟨deck, hholdings, hresult⟩ := Document.result_read_of_tells minSize hdata hdeck hds
    hconditions (listed.perm order)
  have hagain (s' : Scenario) : (load settings Deck.ofEntries source' saved).result = .ok s' ↔
      s' = ⟨deck, s.conditions⟩ ∧ ∀ c ∈ s.conditions, c.depth ≤ Condition.maxNesting := by
    rw [result_load_eq_ok_iff, hsize]
    simp only [Except.ok.injEq, exists_eq_left', hresult, bind_eq_ok,
      Condition.readAll_render hread]
    constructor
    · rintro ⟨_, ⟨rfl, room⟩, h⟩
      cases h
      exact ⟨rfl, room⟩
    · rintro ⟨rfl, room⟩
      exact ⟨_, ⟨rfl, room⟩, rfl⟩
  refine ⟨⟨fun ⟨s', h⟩ => ((hagain s').mp h).2, fun room => ⟨_, (hagain _).mpr ⟨rfl, room⟩⟩⟩, ?_⟩
  intro s' hs'
  obtain ⟨rfl, -⟩ := (hagain s').mp hs'
  subst hholdings
  have hconditions' : (Scenario.mk deck s.conditions).conditions = s.conditions := rfl
  exact ⟨hconditions', order, unsorted,
    (result_save_congr hsort hconditions' order unsorted listed.distinct short).trans hsaved⟩

/-- A document with one card and one condition. -/
def oneCard : String :=
  "deck: \x7bA: \x7bqty: 1, tags: []\x7d\x7d\nconditions: [A]\n"

/-- The document as it is saved. -/
def oneCardSaved : String :=
  "deck:\n  A:\n    qty: 1\n    tags: []\n    free: false\nconditions:\n- A\n"

/-- The node of the saved document. -/
def oneCardNode : Yaml.Node :=
  .map .map [
    (.scalar .text "deck".toList, .map .map [(.scalar .text ['A'], .map .map [
      (.scalar .text "qty".toList, .scalar .whole ['1']),
      (.scalar .text "tags".toList, .list .list []),
      (.scalar .text "free".toList, .scalar .flag "false".toList)])]),
    (.scalar .text "conditions".toList, .list .list [.scalar .text ['A']])]

/-- The document is loaded, saved and loaded again, with the same condition and the same holding. -/
theorem reload_oneCard :
    ∃ s, (load .default Deck.ofEntries "YAML" oneCard).result = .ok s ∧
      Settings.default.sortKeys = .ok false ∧ (save .default s).result = .ok oneCardSaved ∧
      Says false oneCardSaved s ∧ (∀ c ∈ s.conditions, c.depth ≤ Condition.maxNesting) ∧
      ∃ s', (load .default Deck.ofEntries "YAML" oneCardSaved).result = .ok s' ∧
        s'.conditions = s.conditions ∧ s'.deck.holdings = s.deck.holdings := by
  have hparts : (load .default Deck.ofEntries "YAML" oneCard).result.toOption.map (fun s =>
      (s.deck.holdings, s.conditions.map fun c => (c.render, c.depth),
        (save .default s).result.toOption)) =
      some ([⟨"A", 1, [], false⟩], [("A", 0)], some oneCardSaved) := by
    decide +kernel
  obtain ⟨s, hs, hparts⟩ := Option.map_eq_some_iff.mp hparts
  obtain ⟨hholdings, hparts⟩ := Prod.mk.inj hparts
  obtain ⟨hconditions, hsaved⟩ := Prod.mk.inj hparts
  have hs := toOption_eq_some.mp hs
  have hsaved := toOption_eq_some.mp hsaved
  have hrender : s.conditions.map (fun c => Data.scalar (.text c.render)) =
      [.scalar (.text "A")] := by
    have h := congrArg (List.map fun p : String × Nat => Data.scalar (.text p.1)) hconditions
    rwa [List.map_map] at h
  have room : ∀ c ∈ s.conditions, c.depth ≤ Condition.maxNesting := by
    intro c hc
    have hmem : (c.render, c.depth) ∈ [("A", 0)] :=
      hconditions ▸ List.mem_map_of_mem (f := fun c => (c.render, c.depth)) hc
    rw [(Prod.mk.inj (List.mem_singleton.mp hmem)).2]
    exact Nat.zero_le _
  have hnode : Yaml.Node.ofText oneCardSaved.toList = .ok (some oneCardNode) :=
    toOption_eq_some.mp (by decide +kernel)
  have hsays : Says false oneCardSaved s := by
    refine ⟨_, ?_, rfl⟩
    rw [toData_outline, hholdings, hrender, Yaml.load, hnode]
    rfl
  obtain ⟨saved, hsaved', hreload⟩ := reload hs (rfl : Settings.default.sortKeys = .ok false)
  cases hsaved.symm.trans hsaved'
  obtain ⟨hagain, hsame⟩ := hreload hsays "YAML"
  obtain ⟨s', hs'⟩ := hagain.mpr room
  obtain ⟨hconditions', -, hholdings', -⟩ := hsame s' hs'
  exact ⟨s, hs, rfl, hsaved, hsays, room, s', hs', hconditions', hholdings' rfl⟩

end Library

end OpeningHand
