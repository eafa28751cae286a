import OpeningHand.Proofs.Deck.Holdings
import OpeningHand.Proofs.Document.Saving
import OpeningHand.Proofs.Yaml.NodeEquality
import OpeningHand.Proofs.Yaml.Written.Values

/-!
# What saved documents say

A saved document is read as what was saved: the holdings of the deck, and the texts of the
conditions, in another order at most. Two kinds of text are lost on the way. One is a text between
apostrophes with the newline U+0085 in it: apostrophes allow every newline, and reading folds it as
it folds any other. The other is a short name that is written long, because most of its characters
are escapes: before its colon it may have 1024 characters, and a name counts as short by its own
characters. All else is kept.
-/

namespace OpeningHand

open Yaml.Writer

/-! ## Trees of conditions -/

namespace Sketch

mutual

/-- A tree of conditions, with no other value in it and no quantity that is too long to be written. -/
def IsTree : Sketch → Prop
  | .card _ quantity _ => quantity.natAbs < 10 ^ Number.maxDigits
  | .group _ members => AreTrees members
  | .other _ => False

/-- `IsTree` of all sketches. -/
def AreTrees : List Sketch → Prop
  | [] => True
  | s :: ss => s.IsTree ∧ AreTrees ss

end

mutual

/-- A tree has a text. -/
theorem exists_chars : ∀ s : Sketch, s.IsTree → ∃ cs, s.chars? = .ok cs
  | .card _ _ _ => by
    intro h
    unfold chars?
    rw [Number.writeWhole?_of_lt h]
    exact ⟨_, rfl⟩
  | .group connective members => by
    intro h
    obtain ⟨css, hcss⟩ := exists_charsAll members h
    show ∃ cs, (charsAll? members).map _ = .ok cs
    rw [hcss]
    exact ⟨_, rfl⟩
  | .other _ => False.elim

theorem exists_charsAll : ∀ ss : List Sketch, AreTrees ss → ∃ css, charsAll? ss = .ok css
  | [] => fun _ => ⟨_, rfl⟩
  | s :: ss => by
    intro h
    obtain ⟨cs, hcs⟩ := exists_chars s h.1
    obtain ⟨css, hcss⟩ := exists_charsAll ss h.2
    exact ⟨_, by rw [charsAll?, hcs, hcss]; rfl⟩

end

end Sketch

namespace Document

/-- Trees of conditions have texts. -/
theorem exists_conditionTexts {ss : List Sketch} (trees : Sketch.AreTrees ss) :
    ∃ texts, conditionTexts? ss = .ok texts := by
  obtain ⟨css, hcss⟩ := Sketch.exists_charsAll ss trees
  refine ⟨css.map String.ofList, ?_⟩
  rw [conditionTexts?, Sketch.renderAll, hcss]
  rfl

/-! ## What is saved -/

/-- The data of a deck: its holdings by name. -/
def deckData (d : Deck) : Data :=
  .map (d.holdings.map fun h => (.text h.name, .map [(.text "qty", .scalar (.whole h.qty)),
    (.text "tags", .list (h.tags.map fun s => .scalar (.text s))),
    (.text "free", .scalar (.flag h.free))]))

/-- The data of the texts of conditions. -/
def conditionsData (texts : List String) : Data :=
  .list (texts.map fun s => .scalar (.text s))

/-- What is said of a deck is read back: its names, labels and numbers of copies. -/
structure KeepsDeck (d : Deck) : Prop where
  names : ∀ h ∈ d.holdings, Outline.IsReadableName h.name.toList
  tags : ∀ h ∈ d.holdings, ∀ s ∈ h.tags, IsKept s.toList
  copies : ∀ h ∈ d.holdings, h.qty < 10 ^ Number.maxDigits

/-- The texts of conditions are read back. -/
def KeepsTexts (texts : List String) : Prop :=
  ∀ s ∈ texts, IsKept s.toList

/-- A text is read as data, up to the order of entries. -/
def Denotes (text : String) (d : Data) : Prop :=
  ∃ d', Yaml.load text = .ok d' ∧ d'.Same d

/-! ### Entries -/

/-- Texts that are kept make a list that is read as it was written. -/
theorem readable_texts {texts : List String} (h : KeepsTexts texts) :
    Outline.ReadableItems (texts.map .text) := by
  induction texts with
  | nil => trivial
  | cons s texts ih =>
    obtain ⟨hs, htexts⟩ := List.forall_mem_cons.mp h
    exact ⟨hs, ih htexts⟩

theorem depth_texts (texts : List String) : Outline.depthItems (texts.map .text) = 0 := by
  induction texts with
  | nil => rfl
  | cons s texts ih =>
    rw [List.map_cons, Outline.depthItems, ih]
    rfl

/-- A holding stands for its copies, its labels and its flag. -/
theorem toData_holding (h : Holding) : (holdingEntry h).2.toData =
    .map [(.text "qty", .scalar (.whole h.qty)),
      (.text "tags", .list (h.tags.map fun s => .scalar (.text s))),
      (.text "free", .scalar (.flag h.free))] := by
  simp only [holdingEntry, Outline.toData, Outline.entriesData, Outline.itemsData_eq_map,
    List.map_map]
  rfl

theorem toData_deckEntry (d : Deck) : (deckEntry d).2.toData = deckData d := by
  rw [deckEntry, Outline.toData, Outline.entriesData_eq_map, List.map_map, deckData]
  refine congrArg Data.map (List.map_congr_left fun h _ => ?_)
  exact congrArg (Prod.mk (Scalar.text h.name)) (toData_holding h)

theorem toData_conditionsEntry (texts : List String) :
    (conditionsEntry texts).2.toData = conditionsData texts := by
  rw [conditionsEntry, Outline.toData, Outline.itemsData_eq_map, List.map_map, conditionsData]
  rfl

/-- The names that documents use themselves are read back. -/
theorem readable_ownNames : ∀ name ∈ ["deck", "conditions", "qty", "tags", "free"],
    Outline.IsReadableName name.toList := by
  decide +kernel

/-- Two things may keep a holding from being read: its labels and how many copies there are. -/
theorem readable_holding {h : Holding} (tags : ∀ s ∈ h.tags, IsKept s.toList)
    (copies : h.qty < 10 ^ Number.maxDigits) : (holdingEntry h).2.Readable :=
  ⟨show ["qty", "tags", "free"].Nodup by decide,
    readable_ownNames "qty" (by decide), copies,
    readable_ownNames "tags" (by decide), readable_texts tags,
    readable_ownNames "free" (by decide), trivial, trivial⟩

theorem depth_holding (h : Holding) : (holdingEntry h).2.depth = 2 := by
  simp only [holdingEntry, Outline.depth, Outline.depthEntries, depth_texts]
  rfl

/-- A deck that is kept makes an entry that is read as it was written. -/
theorem readable_deckEntry {d : Deck} (h : KeepsDeck d) : (deckEntry d).2.Readable := by
  refine ⟨?_, Outline.readableEntries_iff.mpr fun e he => ?_⟩
  · rw [List.map_map]
    exact Deck.nodup_names d
  · obtain ⟨holding, hmem, rfl⟩ := List.mem_map.mp he
    exact ⟨h.names holding hmem, readable_holding (h.tags holding hmem) (h.copies holding hmem)⟩

/-- Documents are three levels deep, far from where the lines would get too long. -/
theorem depth_deckEntry_le (d : Deck) : (deckEntry d).2.depth ≤ 3 := by
  refine Nat.succ_le_succ (Outline.depthEntries_le_iff.mpr fun e he => ?_)
  obtain ⟨h, -, rfl⟩ := List.mem_map.mp he
  exact Nat.le_of_eq (depth_holding h)

theorem depth_conditionsEntry_le (texts : List String) : (conditionsEntry texts).2.depth ≤ 3 := by
  rw [conditionsEntry, Outline.depth, depth_texts]
  decide

/-! ### Documents -/

/-- A document of entries that are no deeper than a deck is read as their data. -/
theorem denotes_write {es : List (String × Outline)} (hread : (Outline.record es).Readable)
    (hne : es ≠ []) (hdepth : ∀ e ∈ es, e.2.depth ≤ 3) (sortKeys : Bool) :
    Denotes (write sortKeys es) (Outline.record es).toData := by
  have hle : Outline.depthEntries es ≤ 3 := Outline.depthEntries_le_iff.mpr hdepth
  have hwidth : 2 * 3 + 2 < maxWidth := by decide
  obtain ⟨d, hload, hsame, -⟩ := load_write hread hne (by omega) sortKeys
  exact ⟨d, hload, hsame⟩

/-- A deck alone. -/
theorem denotes_writeDeck {d : Deck} (h : KeepsDeck d) (sortKeys : Bool) :
    Denotes (writeDeck sortKeys d) (.map [(.text "deck", deckData d)]) := by
  have hread : (Outline.record [deckEntry d]).Readable :=
    ⟨List.nodup_singleton _, readable_ownNames "deck" (by decide), readable_deckEntry h, trivial⟩
  rw [← toData_deckEntry]
  exact denotes_write hread (List.cons_ne_nil _ _)
    (List.forall_mem_singleton.mpr (depth_deckEntry_le d)) sortKeys

/-- The texts of conditions alone. -/
theorem denotes_writeConditions {texts : List String} (h : KeepsTexts texts) (sortKeys : Bool) :
    Denotes (writeConditions sortKeys texts) (.map [(.text "conditions", conditionsData texts)]) := by
  have hread : (Outline.record [conditionsEntry texts]).Readable :=
    ⟨List.nodup_singleton _, readable_ownNames "conditions" (by decide), readable_texts h, trivial⟩
  rw [← toData_conditionsEntry]
  exact denotes_write hread (List.cons_ne_nil _ _)
    (List.forall_mem_singleton.mpr (depth_conditionsEntry_le texts)) sortKeys

/-- Both in one document. -/
theorem denotes_writeAll {d : Deck} {texts : List String} (hd : KeepsDeck d)
    (htexts : KeepsTexts texts) (sortKeys : Bool) : Denotes (writeAll sortKeys d texts)
      (.map [(.text "deck", deckData d), (.text "conditions", conditionsData texts)]) := by
  have hread : (Outline.record [deckEntry d, conditionsEntry texts]).Readable :=
    ⟨show ["deck", "conditions"].Nodup by decide,
      readable_ownNames "deck" (by decide), readable_deckEntry hd,
      readable_ownNames "conditions" (by decide), readable_texts htexts, trivial⟩
  rw [← toData_deckEntry, ← toData_conditionsEntry]
  exact denotes_write hread (List.cons_ne_nil _ _) (List.forall_mem_cons.mpr
    ⟨depth_deckEntry_le d, List.forall_mem_singleton.mpr (depth_conditionsEntry_le texts)⟩) sortKeys

end Document

namespace Library

open Document

variable {settings : Settings} {sortKeys : Bool} {d : Deck} {ss : List Sketch}

/-- A deck and trees of conditions whose texts are kept are saved as documents that say just them,
alone or together, sorted or not. -/
theorem saved_denotes (hsort : settings.sortKeys = .ok sortKeys) (trees : Sketch.AreTrees ss) :
    (KeepsDeck d → ∃ text, saveDeck settings d = .ok text ∧
      Denotes text (.map [(.text "deck", deckData d)])) ∧
    ∃ texts, conditionTexts? ss = .ok texts ∧
      (KeepsTexts texts → ∃ text, saveConditions settings ss = .ok text ∧
        Denotes text (.map [(.text "conditions", conditionsData texts)])) ∧
      (KeepsDeck d → KeepsTexts texts → ∃ text, (saveAll settings d ss).result = .ok text ∧
        Denotes text (.map [(.text "deck", deckData d),
          (.text "conditions", conditionsData texts)])) := by
  obtain ⟨texts, htexts⟩ := exists_conditionTexts trees
  refine ⟨fun hd => ⟨_, ?_, denotes_writeDeck hd sortKeys⟩, texts, htexts,
    fun hkept => ⟨_, ?_, denotes_writeConditions hkept sortKeys⟩,
    fun hd hkept => ⟨_, ?_, denotes_writeAll hd hkept sortKeys⟩⟩
  · rw [saveDeck, hsort]
    rfl
  · rw [saveConditions, htexts, hsort]
    rfl
  · rw [saveAll, htexts]
    simp only [Recorded.result_bind]
    rw [hsort]
    rfl

/-- A deck with a quoted name and a quoted label. -/
def quotedDeck : Deck := ⟨[⟨"Card: 1", ⟨1, ["yes", "#a"], true, []⟩⟩]⟩

/-- A condition on its card. -/
def quotedConditions : List Sketch := [.card "Card: 1" 2 ">="]

/-- The deck and the condition are saved as a document that says just them. -/
theorem saved_denotes_quoted : Settings.default.sortKeys = .ok false ∧
    Sketch.AreTrees quotedConditions ∧ KeepsDeck quotedDeck ∧ KeepsTexts ["2+ Card: 1"] ∧
      ∃ text, (saveAll .default quotedDeck quotedConditions).result = .ok text ∧
        Denotes text (.map [(.text "deck", deckData quotedDeck),
          (.text "conditions", conditionsData ["2+ Card: 1"])]) := by
  have hsort : Settings.default.sortKeys = .ok false := rfl
  have trees : Sketch.AreTrees quotedConditions :=
    ⟨show (2 : Int).natAbs < 10 ^ Number.maxDigits by decide +kernel, trivial⟩
  have hholdings : quotedDeck.holdings = [⟨"Card: 1", 1, ["yes", "#a"], true⟩] := by decide
  have hdeck : KeepsDeck quotedDeck := by
    constructor <;> rw [hholdings] <;> decide +kernel
  have hkept : KeepsTexts ["2+ Card: 1"] := by
    unfold KeepsTexts
    decide +kernel
  have htexts : conditionTexts? quotedConditions = .ok ["2+ Card: 1"] := by decide +kernel
  obtain ⟨-, texts, htexts', -, hall⟩ := saved_denotes (d := quotedDeck) hsort trees
  cases htexts.symm.trans htexts'
  exact ⟨hsort, trees, hdeck, hkept, hall hdeck hkept⟩

/-- A deck whose card has the newline U+0085 in its name. -/
def newlineDeck : Deck := ⟨[⟨"a\x85b", ⟨1, [], false, []⟩⟩]⟩

/-- The deck as it is saved. -/
def newlineSaved : String :=
  "deck:\n  ? 'a\x85    b'\n  : qty: 1\n    tags: []\n    free: false\n"

/-- The node of the saved deck: the newline was read as a space. -/
def newlineNode : Yaml.Node :=
  .map .map [(.scalar .text "deck".toList, .map .map [(.scalar .text "a b".toList, .map .map [
    (.scalar .text "qty".toList, .scalar .whole ['1']),
    (.scalar .text "tags".toList, .list .list []),
    (.scalar .text "free".toList, .scalar .flag "false".toList)])])]

/-- The newline of the name is lost: the saved deck is read as one with another card. -/
theorem name_lost_newline : Settings.default.sortKeys = .ok false ∧
    saveDeck .default newlineDeck = .ok newlineSaved ∧
      ¬ Denotes newlineSaved (.map [(.text "deck", deckData newlineDeck)]) := by
  refine ⟨rfl, toOption_eq_some.mp (by decide +kernel), ?_⟩
  rintro ⟨d, hload, same⟩
  have hnode : Yaml.Node.ofText newlineSaved.toList = .ok (some newlineNode) :=
    toOption_eq_some.mp (by decide +kernel)
  obtain ⟨es, hread⟩ : ∃ es, Yaml.load newlineSaved =
      .ok (.map [(.text "deck", .map [(.text "a b", .map es)])]) :=
    ⟨_, by rw [Yaml.load, hnode]; rfl⟩
  cases hread.symm.trans hload
  have distinct : (Entries.keys [(Scalar.text "deck", deckData newlineDeck)]).Nodup :=
    List.nodup_singleton _
  obtain ⟨_, hdeck, sameDeck⟩ := same.get? (k := .text "deck") distinct rfl
  cases hdeck
  have hnames : [Scalar.text "a b"].Perm [.text "a\x85b"] := sameDeck.perm_names
  exact absurd hnames (by decide)

end Library

end OpeningHand
