import OpeningHand.Proofs.Data.Entries
import OpeningHand.Proofs.Document.Outcome
import OpeningHand.Proofs.Yaml.NodeEquality

/-!
# The cards of a document

Which cards a load hands to the deck builder, in terms of the pairs that the document writes under
`deck`. Pairs become entries of a map before anything looks at their names, and a map holds an entry
for each key, not for each pair: pairs whose keys are equal (equal texts, or equal in value as
numbers and truth values are) become one card without a word, with the name of the first and the
details of the last. So there is one card for each pair exactly if no two keys are equal. Keys that
differ and have one text are found out: no two cards have the same name.
-/

namespace OpeningHand

/-- Only a text is the key of a text. -/
theorem Scalar.key_eq_text_iff {k : Scalar} {s : String} : k.key = .text s ↔ k = .text s := by
  cases k with
  | text s' => simp [Scalar.key]
  | real x =>
    rw [Scalar.key]
    cases x.toInt? <;> simp
  | moment m =>
    rw [Scalar.key]
    cases m.offset <;> simp
  | null | flag | whole | bytes | date => simp [Scalar.key]

namespace Document

/-- Every entry that was put into a map is a card of its own exactly if no two have equal keys. -/
theorem names_written_iff {written : Entries Data} {cards : List (String × Data)}
    (h : List.Forall₂ Names (Entries.ofList written) cards) :
    List.Forall₂ Names written cards ↔ (Entries.keys written).Nodup := by
  constructor
  · intro hall
    have hlength : (Entries.keys written).dedup.length = (Entries.keys written).length := by
      rw [← Entries.length_ofList, h.length_eq, ← hall.length_eq, Entries.keys, List.length_map]
    exact List.dedup_eq_self.mp ((List.dedup_sublist _).eq_of_length hlength)
  · intro distinct
    rwa [Entries.ofList_eq_self distinct] at h

end Document

/-! ## Pairs under a name -/

namespace Yaml.Node

/-- A document has a node under a name: it is the value of the last pair with that name, those
merged in first. -/
def Under (name : String) (n v : Node) : Prop :=
  ∃ t pairs before k after, n = .map t pairs ∧ flatPairs pairs = .ok (before ++ (k, v) :: after) ∧
    k.toData = .ok (.scalar (.text name)) ∧
    ∀ p ∈ after, p.1.toData ≠ .ok (.scalar (.text name))

/-- What the pairs around one of them write stands around what that one writes. -/
theorem writes_around {before after : List (Node × Node)} {p : Node × Node}
    {written : Entries Data} (h : List.Forall₂ Writes (before ++ p :: after) written) :
    ∃ front e back, written = front ++ e :: back ∧ Writes p e ∧
      List.Forall₂ Writes after back := by
  induction before generalizing written with
  | nil =>
    obtain ⟨e, back, he, hback, rfl⟩ := List.forall₂_cons_left_iff.mp h
    exact ⟨[], e, back, rfl, he, hback⟩
  | cons q before ih =>
    obtain ⟨f, rest, -, hrest, rfl⟩ := List.forall₂_cons_left_iff.mp h
    obtain ⟨front, e, back, rfl, he, hback⟩ := ih hrest
    exact ⟨f :: front, e, back, rfl, he, hback⟩

/-- Pairs without a name write no entry under it. -/
theorem get?_of_writes {name : String} {pairs : List (Node × Node)} {written : Entries Data}
    (h : List.Forall₂ Writes pairs written)
    (hname : ∀ p ∈ pairs, p.1.toData ≠ .ok (.scalar (.text name))) :
    Entries.get? (.text name) written.reverse = none := by
  rw [Entries.get?_eq_none_iff, Entries.keys, List.map_reverse, List.mem_reverse]
  induction h with
  | nil => exact List.not_mem_nil
  | @cons p e pairs written he _ ih =>
    rw [List.map_cons, List.mem_cons, not_or]
    refine ⟨fun hkey => ?_, ih fun q hq => hname q (List.mem_cons_of_mem p hq)⟩
    exact hname p List.mem_cons_self (Scalar.key_eq_text_iff.mp hkey.symm ▸ he.1)

/-- What stands under a name in a document is what is found under it in its value. -/
theorem Under.field? {name : String} {n v : Node} {es : Entries Data} {d : Data}
    (h : n.Under name v) (hn : n.toData = .ok (.map es)) (hd : Entries.field? name es = some d) :
    v.toData = .ok d := by
  obtain ⟨t, pairs, before, k, after, rfl, hflat, hk, hafter⟩ := h
  obtain ⟨_, heq⟩ := exists_pairs_of_toData hn
  obtain ⟨rfl, -⟩ := Node.map.inj heq
  obtain ⟨flat, written, hflat', hwritten, rfl⟩ := toData_map.mp hn
  cases hflat.symm.trans hflat'
  obtain ⟨front, e, back, rfl, ⟨hkey, hvalue⟩, hback⟩ := writes_around hwritten
  obtain rfl : d = e.2 := by
    have hk' : e.1 = .text name := Data.scalar.inj (Except.ok.inj (hkey.symm.trans hk))
    rw [Entries.field?, Entries.get?_ofList, List.reverse_append, List.reverse_cons,
      List.append_assoc, Entries.get?_append, get?_of_writes hback hafter, Option.none_or,
      List.singleton_append, Entries.get?, if_pos (congrArg Scalar.key hk')] at hd
    exact (Option.some.inj hd).symm
  exact hvalue

end Yaml.Node

/-! ## Cards of the deck -/

namespace Library

/-- A load answers with a scenario if the least size can be read and the document can. -/
theorem result_load_eq_ok_iff {settings : Settings} {builder : DeckBuilder} {source text : String}
    {s : Scenario} :
    (load settings builder source text).result = .ok s ↔ ∃ minSize,
      settings.minDeckSize = .ok minSize ∧ (Document.read builder minSize text).result = .ok s := by
  unfold load
  cases settings.minDeckSize with
  | error e =>
    refine iff_of_false (nomatch ·) ?_
    rintro ⟨_, h, -⟩
    cases h
  | ok minSize =>
    refine Iff.trans ?_ ⟨fun h => ⟨minSize, rfl, h⟩, fun ⟨_, hsize, h⟩ => by cases hsize; exact h⟩
    simp only [Document.load]
    split
    next s' h => rw [h]
    next e h =>
      rw [h]
      split <;> exact iff_of_false (nomatch ·) (nomatch ·)

/-- What a load hands to the deck builder when the document is a tree and its deck is written as pairs
without merge keys: each pair writes one entry, and of the entries with equal keys one card is left,
named by the first key and with the last details. A pair is a card of its own exactly if no two keys
are equal, and two cards never have one name. -/
theorem cards_of_load {settings : Settings} {builder : DeckBuilder} {source text : String}
    {s : Scenario} {n : Yaml.Node} {t : Yaml.Tag} {pairs : List (Yaml.Node × Yaml.Node)}
    (hload : (load settings builder source text).result = .ok s)
    (node : Yaml.Node.Composes text.toList n)
    (hdeck : n.Under "deck" (.map t pairs)) (plain : ∀ p ∈ pairs, p.1.tag ≠ .merge) :
    ∃ minSize cards texts written,
      settings.minDeckSize = .ok minSize ∧ Document.handed text = .ok (cards, texts) ∧
      (builder cards minSize).result = .ok s.deck ∧
      List.Forall₂ (fun p e => Yaml.Node.Writes (p.1.asKey, p.2) e) pairs written ∧
      (List.Forall₂ Document.Names written cards ↔ (Entries.keys written).Nodup) ∧
      cards.length = (Entries.keys written).dedup.length ∧ (cards.map Prod.fst).Nodup ∧
      ∀ name d, (name, d) ∈ cards ↔ ∃ k, Entries.First k written ∧
        Document.nameOfKey k = .ok name ∧ Entries.get? k written.reverse = some d := by
  obtain ⟨minSize, hsize, hread⟩ := result_load_eq_ok_iff.mp hload
  rw [Document.result_read] at hread
  obtain ⟨⟨cards, texts⟩, hhanded, hread⟩ := bind_eq_ok.mp hread
  obtain ⟨deck, hbuilt, hread⟩ := bind_eq_ok.mp hread
  obtain ⟨conditions, -, hread⟩ := bind_eq_ok.mp hread
  cases hread
  obtain ⟨data, hdata, hrest⟩ := bind_eq_ok.mp hhanded
  obtain ⟨shape, hshape, hrest⟩ := bind_eq_ok.mp hrest
  obtain ⟨_, hcards, hrest⟩ := bind_eq_ok.mp hrest
  cases hrest
  obtain ⟨es, items, rfl, hfield, -⟩ := Document.ofData_eq_ok_iff.mp hshape
  have hnode : Yaml.Node.ofText text.toList = .ok (some n) := by
    refine node.ofText_eq.resolve_right fun houtside => ?_
    rw [Yaml.load, houtside] at hdata
    cases hdata
  have hvalue := ((Yaml.load_eq_ok_iff_of_node hnode).mp hdata).1
  have hmap := hdeck.field? hvalue hfield
  obtain ⟨_, heq⟩ := Yaml.Node.exists_pairs_of_toData hmap
  obtain ⟨rfl, -⟩ := Yaml.Node.map.inj heq
  obtain ⟨flat, written, hflat, hwritten, hofList⟩ := Yaml.Node.toData_map.mp hmap
  cases hflat.symm.trans (Yaml.Node.flatPairs_of_plain plain)
  obtain ⟨hnames, hdistinct⟩ := Document.named_eq_ok_iff.mp hcards
  rw [← hofList] at hnames
  refine ⟨minSize, cards, _, written, hsize, hhanded, hbuilt,
    List.forall₂_map_left_iff.mp hwritten, Document.names_written_iff hnames, ?_, hdistinct, ?_⟩
  · rw [← hnames.length_eq, Entries.length_ofList]
  · intro name d
    rw [Document.mem_iff_of_names hnames]
    simp only [Entries.mem_ofList_iff]
    exact exists_congr fun k => by rw [and_assoc, and_comm (a := Document.nameOfKey k = _)]

/-- A document that describes one card twice. -/
def describedTwice : String :=
  "deck: \x7bA: \x7bqty: 1, tags: []\x7d, A: \x7bqty: 2, tags: []\x7d\x7d\nconditions: []\n"

/-- The details of a card without labels. -/
def detailsNode (qty : Char) : Yaml.Node :=
  .map .map [(.scalar .text "qty".toList, .scalar .whole [qty]),
    (.scalar .text "tags".toList, .list .list [])]

/-- The two pairs of the deck that is described twice. -/
def twicePairs : List (Yaml.Node × Yaml.Node) :=
  [(.scalar .text ['A'], detailsNode '1'), (.scalar .text ['A'], detailsNode '2')]

/-- The node of the document. -/
def twiceNode : Yaml.Node :=
  .map .map [(.scalar .text "deck".toList, .map .map twicePairs),
    (.scalar .text "conditions".toList, .list .list [])]

theorem composes_describedTwice : Yaml.Node.Composes describedTwice.toList twiceNode := by
  have hroot : (Yaml.Node.compose describedTwice.toList).toOption.map (·.root) =
      some (some twiceNode) := by decide +kernel
  obtain ⟨c, hcompose, hroot⟩ := Option.map_eq_some_iff.mp hroot
  exact ⟨⟨c, toOption_eq_some.mp hcompose, hroot⟩, by decide +kernel⟩

theorem under_twiceNode : twiceNode.Under "deck" (.map .map twicePairs) := by
  refine ⟨.map, _, [], .scalar .text "deck".toList,
    [(.scalar .text "conditions".toList, .list .list [])], rfl, rfl,
    Yaml.Node.toData_scalar rfl, fun p hp => ?_⟩
  rw [List.mem_singleton.mp hp, Yaml.Node.toData_scalar (s := .text "conditions") rfl]
  simp

theorem plain_twicePairs : ∀ p ∈ twicePairs, p.1.tag ≠ .merge := by
  decide +kernel

/-- The document is loaded. -/
theorem load_describedTwice :
    ∃ s, (load .default Deck.ofEntries "YAML" describedTwice).result = .ok s := by
  have hsome :
      (load .default Deck.ofEntries "YAML" describedTwice).result.toOption.isSome = true := by
    decide +kernel
  obtain ⟨s, hs⟩ := Option.isSome_iff_exists.mp hsome
  exact ⟨s, toOption_eq_some.mp hs⟩

/-- Two pairs with one key make one card, with the details of the second. -/
theorem cards_of_load_describedTwice :
    ∃ s, (load .default Deck.ofEntries "YAML" describedTwice).result = .ok s ∧
      Yaml.Node.Composes describedTwice.toList twiceNode ∧
      twiceNode.Under "deck" (.map .map twicePairs) ∧
      (∀ p ∈ twicePairs, p.1.tag ≠ .merge) ∧
      ∃ cards texts, Document.handed describedTwice = .ok (cards, texts) ∧
        (cards.map Prod.fst).Nodup := by
  obtain ⟨s, hs⟩ := load_describedTwice
  obtain ⟨_, cards, texts, _, -, hhanded, -, -, -, -, hdistinct, -⟩ :=
    cards_of_load hs composes_describedTwice under_twiceNode plain_twicePairs
  exact ⟨s, hs, composes_describedTwice, under_twiceNode, plain_twicePairs, cards, texts, hhanded,
    hdistinct⟩

/-- The first of the two pairs is lost: the document is loaded, two pairs with one text as their
keys are written in its deck, and one card is handed to the builder. -/
theorem card_lost_describedTwice :
    Yaml.Node.Composes describedTwice.toList twiceNode ∧
      twiceNode.Under "deck" (.map .map twicePairs) ∧ (∀ p ∈ twicePairs, p.1.tag ≠ .merge) ∧
      (∃ s, (load .default Deck.ofEntries "YAML" describedTwice).result = .ok s) ∧
      ∃ cards texts, Document.handed describedTwice = .ok (cards, texts) ∧
        cards.length < twicePairs.length := by
  have hcount : (Document.handed describedTwice).toOption.map (·.1.length) = some 1 := by
    decide +kernel
  obtain ⟨⟨cards, texts⟩, hhanded, hlength⟩ := Option.map_eq_some_iff.mp hcount
  refine ⟨composes_describedTwice, under_twiceNode, plain_twicePairs, load_describedTwice, cards,
    texts, toOption_eq_some.mp hhanded, ?_⟩
  rw [show cards.length = 1 from hlength]
  decide

end Library

end OpeningHand
