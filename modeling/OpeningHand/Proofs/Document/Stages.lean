import Mathlib.Data.List.Induction
import OpeningHand.Proofs.Document.Misshapen

/-!
# The stages of a load

A load of a value goes through its stages in order: the shape, the names of the cards, the cards, the
conditions. It ends with a scenario if every stage passes (`Accepts`); otherwise with the fault of
the first stage that does not, and there with the first fault (`Fails`). One of the two always holds,
so each of them decides how the load ends (`load_decided`).

The deck builder is asked between the names and the conditions. How often, and for what, is seen in
the journal of a builder that notes every request (`noting`).
-/

namespace OpeningHand

namespace Document

variable {e : Scalar × Data} {before after deck : Entries Data} {data : Data} {text : String}
  {cause : Failure} {minSize : Int}

/-! ## Names -/

/-- What stands under each key, named by the text of the key. -/
def cardsOf (deck : Entries Data) : List (String × Data) := deck.map fun e => (keyName e.1, e.2)

/-- The names of cards, in order. -/
def namesOf (deck : Entries Data) : List String := deck.map fun e => keyName e.1

/-- The first card with the name of an earlier one has this name. -/
def NamedTwice (deck : Entries Data) (name : String) : Prop :=
  ∃ before e after, deck = before ++ e :: after ∧ (namesOf before).Nodup ∧
    keyName e.1 ∈ namesOf before ∧ name = keyName e.1

/-- Keys with different names name cards, each its own. -/
theorem named_of_distinct (written : ∀ e ∈ deck, ∃ cs, e.1.text? = some cs)
    (distinct : (namesOf deck).Nodup) : named deck = .ok (cardsOf deck) := by
  apply named_eq_ok_iff.mpr
  constructor
  · apply List.forall₂_map_right_iff.mpr
    apply List.forall₂_same.mpr
    intro e he
    obtain ⟨cs, htext⟩ := written e he
    exact ⟨nameOfKey_eq htext, rfl⟩
  · rw [cardsOf, List.map_map]
    exact distinct

/-- Names that are new are passed up to one that is not. The induction is on the cards before. -/
theorem namedFrom_twice {seen : List String}
    (written : ∀ e' ∈ before ++ [e], ∃ cs, e'.1.text? = some cs)
    (distinct : (namesOf before).Nodup) (fresh : ∀ name ∈ namesOf before, name ∉ seen)
    (twice : keyName e.1 ∈ namesOf before ∨ keyName e.1 ∈ seen) (after : Entries Data) :
    namedFrom seen (before ++ e :: after) = .error (.shape (.nameTwice (keyName e.1))) := by
  induction before generalizing seen with
  | nil =>
    obtain ⟨cs, htext⟩ := written e (List.mem_append_right _ (List.mem_singleton_self e))
    have hseen : keyName e.1 ∈ seen := twice.resolve_left List.not_mem_nil
    obtain ⟨k, d⟩ := e
    rw [List.nil_append, namedFrom, nameOfKey_eq htext]
    show (if seen.contains (keyName k) then _ else _) = _
    rw [if_pos (List.contains_iff_mem.mpr hseen)]
  | cons first before ih =>
    obtain ⟨k, d⟩ := first
    obtain ⟨cs, htext⟩ := written (k, d) List.mem_cons_self
    obtain ⟨hnew, distinct⟩ := List.nodup_cons.mp distinct
    obtain ⟨hk, fresh⟩ := List.forall_mem_cons.mp fresh
    have hrest : namedFrom (keyName k :: seen) (before ++ e :: after) =
        .error (.shape (.nameTwice (keyName e.1))) := by
      apply ih fun e' he' => written e' (List.mem_cons_of_mem _ he')
      · exact distinct
      · intro name hname hmem
        rcases List.mem_cons.mp hmem with rfl | hmem
        · exact hnew hname
        · exact fresh name hname hmem
      · rcases twice with hbefore | hseen
        · rcases List.mem_cons.mp hbefore with heq | hbefore
          · exact .inr (heq ▸ List.mem_cons_self)
          · exact .inl hbefore
        · exact .inr (List.mem_cons_of_mem _ hseen)
    rw [List.cons_append, namedFrom, nameOfKey_eq htext]
    show (if seen.contains (keyName k) then _ else _) = _
    rw [if_neg (mt List.contains_iff_mem.mp hk), hrest]
    rfl

/-- The second key with a name is refused. -/
theorem NamedTwice.named {name : String} (written : ∀ e ∈ deck, ∃ cs, e.1.text? = some cs)
    (h : NamedTwice deck name) : named deck = .error (.shape (.nameTwice name)) := by
  obtain ⟨before, e, after, rfl, distinct, htwice, rfl⟩ := h
  apply namedFrom_twice _ distinct (fun _ _ => List.not_mem_nil) (.inl htwice)
  intro e' he'
  apply written e'
  rw [List.append_cons]
  exact List.mem_append_left _ he'

/-- One of the two is the case. -/
theorem distinct_or_twice (deck : Entries Data) :
    (namesOf deck).Nodup ∨ ∃ name, NamedTwice deck name := by
  induction deck using List.reverseRecOn with
  | nil => exact .inl List.nodup_nil
  | append_singleton deck e ih =>
    rcases ih with hdistinct | ⟨name, before, twin, after, rfl, hbefore, htwice, rfl⟩
    · by_cases hmem : keyName e.1 ∈ namesOf deck
      · exact .inr ⟨_, deck, e, [], rfl, hdistinct, hmem, rfl⟩
      · left
        rw [namesOf, List.map_append, List.map_singleton, ← List.concat_eq_append]
        exact hdistinct.concat hmem
    · exact .inr ⟨_, before, twin, after ++ [e], List.append_assoc .., hbefore, htwice, rfl⟩

/-! ## Cards -/

/-- An entry describes a card: its name is not blank, and its value can be read as details. -/
def IsDescribed (e : Scalar × Data) : Prop :=
  Text.isBlankText (keyName e.1).toList = false ∧ ∃ details, Details.ofData e.2 = .ok details

/-- What is offered to the builder for an entry. -/
def offerOf (e : Scalar × Data) (labels : Details.hasTornLabel e.2 = false) : Scalar × Deck.Offer :=
  (.text (keyName e.1), .data e.2 labels)

/-- The builder refuses what is offered for an entry. -/
def IsRefused (e : Scalar × Data) (cause : Failure) : Prop :=
  ∃ labels, Deck.Refuses (offerOf e labels) cause

/-- Details that are described are offered to the builder as they are. -/
theorem exists_offers (described : ∀ e ∈ deck, IsDescribed e)
    (labels : ∀ e ∈ deck, Details.hasTornLabel e.2 = false) :
    ∃ cards, List.Forall₂ Deck.Offers (deck.pmap offerOf labels) cards := by
  induction deck with
  | nil => exact ⟨[], .nil⟩
  | cons e deck ih =>
    obtain ⟨⟨hblank, details, hdetails⟩, hmore⟩ := List.forall_mem_cons.mp described
    obtain ⟨cards, hcards⟩ := ih hmore (List.forall_mem_cons.mp labels).2
    exact ⟨_ :: cards, .cons (.data hblank hdetails) hcards⟩

/-- The builder gets what the entries offer. -/
theorem ofEntries_cardsOf (labels : ∀ e ∈ deck, Details.hasTornLabel e.2 = false) (minSize : Int) :
    Deck.ofEntries (cardsOf deck) minSize = Deck.build (deck.pmap offerOf labels) minSize := by
  have labels' : ∀ c ∈ cardsOf deck, Details.hasTornLabel c.2 = false :=
    List.forall_mem_map.mpr labels
  rw [Deck.ofEntries, dif_pos labels']
  congr 1
  exact List.pmap_map ..

/-- A deck is built of entries that all describe cards. -/
theorem build_of_described (described : ∀ e ∈ deck, IsDescribed e) (minSize : Int) :
    ∃ built, (Deck.ofEntries (cardsOf deck) minSize).result = .ok built := by
  have labels (e : Scalar × Data) (he : e ∈ deck) : Details.hasTornLabel e.2 = false := by
    obtain ⟨-, details, hdetails⟩ := described e he
    exact Details.hasTornLabel_of_ofData hdetails
  obtain ⟨cards, hcards⟩ := exists_offers described labels
  rw [ofEntries_cardsOf labels]
  exact ⟨_, Deck.result_build_eq_ok_iff.mpr ⟨cards, hcards, rfl⟩⟩

/-- Building stops at the first entry that describes no card. -/
theorem build_of_refused
    (labels : ∀ e' ∈ before ++ e :: after, Details.hasTornLabel e'.2 = false)
    (described : ∀ e ∈ before, IsDescribed e) (refused : IsRefused e cause) (minSize : Int) :
    (Deck.ofEntries (cardsOf (before ++ e :: after)) minSize).result = .error cause := by
  obtain ⟨_, refused⟩ := refused
  obtain ⟨hbefore, -⟩ := List.forall_mem_append.mp labels
  obtain ⟨cards, hcards⟩ := exists_offers described hbefore
  rw [ofEntries_cardsOf labels, List.pmap_append, List.pmap_cons]
  exact Deck.result_build_eq_error_iff.mpr ⟨_, _, _, cards, rfl, hcards, refused⟩

/-- An entry is described or refused, and never both. -/
theorem described_or_refused (labels : Details.hasTornLabel e.2 = false) :
    IsDescribed e ∨ ∃ cause, IsRefused e cause := by
  rcases Deck.offers_or_refuses (offerOf e labels) with ⟨c, hoffers⟩ | ⟨cause, refused⟩
  · cases hoffers with
    | data hblank hdetails => exact .inl ⟨hblank, _, hdetails⟩
  · exact .inr ⟨cause, labels, refused⟩

end Document

/-! ## Conditions -/

namespace Condition

variable {text : List Text.Point} {before texts : List (List Text.Point)} {refusal : Refusal}

/-- Texts of conditions are read up to the first that is none. -/
theorem readAll_of_unread (read : ∀ text ∈ before, ∃ c, parsePoints text = .ok c)
    (unread : parsePoints text = .error refusal) (after : List (List Text.Point)) :
    (readAll (before ++ text :: after)).result = .error (refusal.failure text) := by
  induction before with
  | nil =>
    have hread : (readPoints text).result = .error (refusal.failure text) := by
      rw [readPoints, unread]
      rfl
    rw [List.nil_append, readAll, Recorded.result_bind, hread]
    rfl
  | cons first before ih =>
    obtain ⟨⟨c, hc⟩, hbefore⟩ := List.forall_mem_cons.mp read
    rw [List.cons_append, readAll, Recorded.result_bind, result_readPoints.mpr hc]
    show ((readAll (before ++ text :: after)) >>= _).result = _
    rw [Recorded.result_bind, ih hbefore]
    rfl

/-- Texts that are each read are read in order. -/
theorem exists_readAll {texts : List String} (read : ∀ text ∈ texts, ∃ c, parse text = .ok c) :
    ∃ cs, (readAll (texts.map Text.points)).result = .ok cs := by
  induction texts with
  | nil => exact ⟨[], rfl⟩
  | cons text texts ih =>
    obtain ⟨⟨c, hc⟩, hrest⟩ := List.forall_mem_cons.mp read
    obtain ⟨cs, hcs⟩ := ih hrest
    exact ⟨c :: cs, readAll_points_eq_ok_iff.mpr (.cons hc (readAll_points_eq_ok_iff.mp hcs))⟩

/-- A text of points is read or refused. -/
theorem read_or_unread (text : List Text.Point) :
    (∃ c, parsePoints text = .ok c) ∨ ∃ refusal, parsePoints text = .error refusal := by
  cases hparse : parsePoints text with
  | ok c => exact .inl ⟨c, rfl⟩
  | error refusal => exact .inr ⟨refusal, rfl⟩

/-- Texts that can all be read are texts of characters. -/
theorem exists_texts_of_read (read : ∀ text ∈ texts, ∃ c, parsePoints text = .ok c) :
    ∃ words : List String, texts = words.map Text.points ∧ ∀ text ∈ words, ∃ c, parse text = .ok c := by
  induction texts with
  | nil => exact ⟨[], rfl, List.forall_mem_nil _⟩
  | cons text texts ih =>
    obtain ⟨⟨c, hc⟩, hrest⟩ := List.forall_mem_cons.mp read
    obtain ⟨s, rfl, hs⟩ := parsePoints_eq_ok_iff_exists.mp hc
    obtain ⟨words, rfl, hwords⟩ := ih hrest
    exact ⟨s :: words, rfl, List.forall_mem_cons.mpr ⟨⟨c, hs⟩, hwords⟩⟩

end Condition

/-! ## All stages -/

namespace Document

variable {e : Scalar × Data} {before after deck : Entries Data} {data : Data}
  {texts : List (List Text.Point)} {text : String} {cards : List (String × Data)} {cause : Failure}
  {minSize : Int}

/-- Every stage passes: the value has the shape of a document, its cards have different names and are
described, and the texts of its conditions can be read. -/
structure Accepts (data : Data) (deck : Entries Data) (texts : List String) : Prop where
  shaped : Shaped data deck (texts.map Text.points)
  distinct : (namesOf deck).Nodup
  described : ∀ e ∈ deck, IsDescribed e
  readable : ∀ text ∈ texts, ∃ c, Condition.parse text = .ok c

/-- The first fault of a value: of its shape; else the first name that comes twice; else of the first
entry that describes no card; else of the first text that is no condition. -/
inductive Fails (data : Data) : Failure → Prop where
  | shape {fault : ShapeFault} (misshapen : Misshapen data fault) : Fails data (.shape fault)
  | names {deck : Entries Data} {texts : List (List Text.Point)} {name : String}
      (shaped : Shaped data deck texts) (twice : NamedTwice deck name) :
      Fails data (.shape (.nameTwice name))
  | cards {before after : Entries Data} {e : Scalar × Data} {texts : List (List Text.Point)}
      {cause : Failure} (shaped : Shaped data (before ++ e :: after) texts)
      (distinct : (namesOf (before ++ e :: after)).Nodup)
      (described : ∀ e ∈ before, IsDescribed e) (refused : IsRefused e cause) : Fails data cause
  | conditions {deck : Entries Data} {before after : List (List Text.Point)}
      {text : List Text.Point} {refusal : Condition.Refusal}
      (shaped : Shaped data deck (before ++ text :: after)) (distinct : (namesOf deck).Nodup)
      (described : ∀ e ∈ deck, IsDescribed e)
      (read : ∀ text ∈ before, ∃ c, Condition.parsePoints text = .ok c)
      (unread : Condition.parsePoints text = .error refusal) : Fails data (refusal.failure text)

/-- The labels of a loaded value's cards are no torn texts. -/
theorem Shaped.labels (hload : Yaml.load text = .ok data) (h : Shaped data deck texts) :
    ∀ e ∈ deck, Details.hasTornLabel e.2 = false := by
  obtain ⟨es, items, rfl, hdeck, -⟩ := h.parts
  have hintact := Data.isIntactBelow_get? (Yaml.isIntactBelow_of_load hload) hdeck
  exact fun e he => Data.hasTornLabel_of_isIntactBelow (List.all_eq_true.mp hintact e he)

/-- Every document is accepted or fails at one of the stages. -/
theorem accepts_or_fails (hload : Yaml.load text = .ok data) :
    (∃ deck texts, Accepts data deck texts) ∨ ∃ cause, Fails data cause := by
  rcases shaped_or_misshapen data with ⟨deck, texts, hshaped⟩ | ⟨fault, hmisshapen⟩
  · rcases distinct_or_twice deck with hdistinct | ⟨name, htwice⟩
    · have either (e : Scalar × Data) (he : e ∈ deck) :=
        described_or_refused (hshaped.labels hload e he)
      rcases forall_or_first either with
        hdescribed | ⟨before, e, after, cause, rfl, hbefore, hrefused⟩
      · rcases forall_or_first fun text (_ : text ∈ texts) => Condition.read_or_unread text with
          hread | ⟨before, text, after, refusal, rfl, hbefore, hunread⟩
        · obtain ⟨words, rfl, hwords⟩ := Condition.exists_texts_of_read hread
          exact .inl ⟨deck, words, hshaped, hdistinct, hdescribed, hwords⟩
        · exact .inr ⟨_, .conditions hshaped hdistinct hdescribed hbefore hunread⟩
      · exact .inr ⟨cause, .cards hshaped hdistinct hbefore hrefused⟩
    · exact .inr ⟨_, .names hshaped htwice⟩
  · exact .inr ⟨_, .shape hmisshapen⟩

/-- Loading answers for every fault of a value. -/
theorem Fails.isOfDocument (h : Fails data cause) : cause.isOfDocument = true := by
  cases h with
  | shape => rfl
  | names => rfl
  | cards _ _ _ refused =>
    obtain ⟨_, refused⟩ := refused
    cases refused <;> rfl
  | @conditions _ _ _ _ refusal => cases refusal <;> rfl

/-- Keys that can be written have texts to name cards by. -/
theorem Shaped.exists_text (keys : HasWritableKeys data) (h : Shaped data deck texts) :
    ∀ e ∈ deck, ∃ cs, e.1.text? = some cs := by
  obtain ⟨es, items, rfl, hdeck, -⟩ := h.parts
  exact keys.exists_text hdeck

/-- What is handed on of a value whose shape and names are right. -/
theorem Shaped.handed (keys : HasWritableKeys data) (hload : Yaml.load text = .ok data)
    (h : Shaped data deck texts) (distinct : (namesOf deck).Nodup) :
    handed text = .ok (cardsOf deck, texts) :=
  bind_eq_ok.mpr ⟨data, hload, bind_eq_ok.mpr ⟨_, h.ofData,
    bind_eq_ok.mpr ⟨_, named_of_distinct (h.exists_text keys) distinct, rfl⟩⟩⟩

/-- A shape that is wrong stops everything that comes after. -/
theorem Misshapen.handed {fault : ShapeFault} (keys : HasWritableKeys data)
    (hload : Yaml.load text = .ok data) (h : Misshapen data fault) :
    handed text = .error (.shape fault) := by
  rw [Document.handed, hload]
  exact bind_eq_error.mpr (.inr ⟨data, rfl, bind_eq_error.mpr (.inl (h.ofData keys))⟩)

/-- So does a name that is used twice. -/
theorem Shaped.handed_of_twice {name : String} (keys : HasWritableKeys data)
    (hload : Yaml.load text = .ok data) (h : Shaped data deck texts)
    (twice : NamedTwice deck name) : Document.handed text = .error (.shape (.nameTwice name)) := by
  rw [Document.handed, hload]
  exact bind_eq_error.mpr (.inr ⟨data, rfl, bind_eq_error.mpr (.inr ⟨_, h.ofData,
    bind_eq_error.mpr (.inl (twice.named (h.exists_text keys)))⟩)⟩)

/-- An accepted document is read, whatever the least size is. -/
theorem Accepts.result_read {texts : List String} (keys : HasWritableKeys data)
    (hload : Yaml.load text = .ok data) (h : Accepts data deck texts) (minSize : Int) :
    ∃ s, (read Deck.ofEntries minSize text).result = .ok s ∧
      List.Forall₂ (fun text c => Condition.parse text = .ok c) texts s.conditions := by
  obtain ⟨built, hbuilt⟩ := build_of_described h.described minSize
  obtain ⟨conditions, hconditions⟩ := Condition.exists_readAll h.readable
  refine ⟨⟨built, conditions⟩, ?_, Condition.readAll_points_eq_ok_iff.mp hconditions⟩
  rw [Document.result_read, h.shaped.handed keys hload h.distinct]
  exact bind_eq_ok.mpr ⟨_, rfl, bind_eq_ok.mpr ⟨_, hbuilt, bind_eq_ok.mpr ⟨_, hconditions, rfl⟩⟩⟩

/-- A document that fails does so for that cause. -/
theorem Fails.result_read (keys : HasWritableKeys data) (hload : Yaml.load text = .ok data)
    (h : Fails data cause) (minSize : Int) :
    (read Deck.ofEntries minSize text).result = .error cause := by
  rw [Document.result_read]
  cases h with
  | shape misshapen =>
    rw [misshapen.handed keys hload]
    rfl
  | names shaped twice =>
    rw [shaped.handed_of_twice keys hload twice]
    rfl
  | cards shaped distinct described refused =>
    rw [shaped.handed keys hload distinct]
    exact bind_eq_error.mpr (.inr ⟨_, rfl, bind_eq_error.mpr
      (.inl (build_of_refused (shaped.labels hload) described refused minSize))⟩)
  | conditions shaped distinct described hread unread =>
    obtain ⟨built, hbuilt⟩ := build_of_described described minSize
    rw [shaped.handed keys hload distinct]
    exact bind_eq_error.mpr (.inr ⟨_, rfl, bind_eq_error.mpr (.inr ⟨built, hbuilt,
      bind_eq_error.mpr (.inl (Condition.readAll_of_unread hread unread _))⟩)⟩)

/-! ## The builder -/

/-- A builder that notes every request before it does what another one does. -/
def noting (note : List (String × Data) → Int → Record) (builder : DeckBuilder) : DeckBuilder :=
  fun cards minSize =>
    ⟨note cards minSize :: (builder cards minSize).records, (builder cards minSize).result⟩

/-- The value asks for a deck of these cards: its shape and its names are right. -/
def Asks (data : Data) (cards : List (String × Data)) : Prop :=
  ∃ deck texts, Shaped data deck texts ∧ (namesOf deck).Nodup ∧ cards = cardsOf deck

/-- Before the builder is asked nothing is recorded. -/
theorem read_of_handed {rest : List (List Text.Point)} (hhanded : handed text = .ok (cards, rest))
    (builder : DeckBuilder) (minSize : Int) :
    read builder minSize text = do
      let deck ← builder cards minSize
      let conditions ← Condition.readAll rest
      return ⟨deck, conditions⟩ := by
  obtain ⟨data, hload, hhanded⟩ := bind_eq_ok.mp hhanded
  obtain ⟨shape, hshape, hhanded⟩ := bind_eq_ok.mp hhanded
  obtain ⟨_, hnamed, hhanded⟩ := bind_eq_ok.mp hhanded
  cases hhanded
  rw [read, hload, Recorded.ofExcept_ok_bind, hshape, Recorded.ofExcept_ok_bind, hnamed,
    Recorded.ofExcept_ok_bind]

/-- Without cards to hand on, the builder is not asked. -/
theorem read_of_not_handed (hhanded : handed text = .error cause) (builder : DeckBuilder)
    (minSize : Int) : read builder minSize text = .ofExcept (.error cause) := by
  rw [read]
  rcases bind_eq_error.mp hhanded with hload | ⟨data, hload, hhanded⟩
  · rw [hload]
    rfl
  rw [hload, Recorded.ofExcept_ok_bind]
  rcases bind_eq_error.mp hhanded with hshape | ⟨shape, hshape, hhanded⟩
  · rw [hshape]
    rfl
  rw [hshape, Recorded.ofExcept_ok_bind]
  rcases bind_eq_error.mp hhanded with hnamed | ⟨_, _, hdone⟩
  · rw [hnamed]
    rfl
  · cases hdone

/-- A record that reading makes first is the first that loading makes. -/
theorem load_of_read_cons {builder builder' : DeckBuilder} {r : Record}
    (h : read builder' minSize text =
      ⟨r :: (read builder minSize text).records, (read builder minSize text).result⟩)
    (source : String) :
    load builder' minSize source text = ⟨r :: (load builder minSize source text).records,
      (load builder minSize source text).result⟩ := by
  simp only [load, h]
  cases (read builder minSize text).result with
  | ok s => rfl
  | error e =>
    dsimp only
    split <;> rfl

/-- A value that asks for a deck asks once, for a deck of its cards. -/
theorem load_noting_of_asks (keys : HasWritableKeys data) (hload : Yaml.load text = .ok data)
    (h : Asks data cards) (note : List (String × Data) → Int → Record) (builder : DeckBuilder)
    (source : String) :
    load (noting note builder) minSize source text =
      ⟨note cards minSize :: (load builder minSize source text).records,
        (load builder minSize source text).result⟩ := by
  obtain ⟨deck, texts, shaped, distinct, rfl⟩ := h
  have hhanded := shaped.handed keys hload distinct
  apply load_of_read_cons
  rw [read_of_handed hhanded, read_of_handed hhanded]
  exact Recorded.cons_bind _ _ _

/-- Any other value does not ask for a deck. -/
theorem load_noting_of_not_asks (keys : HasWritableKeys data) (hload : Yaml.load text = .ok data)
    (h : ∀ cards, ¬ Asks data cards) (note : List (String × Data) → Int → Record)
    (builder : DeckBuilder) (source : String) :
    load (noting note builder) minSize source text = load builder minSize source text := by
  have hhanded : ∃ cause, handed text = .error cause := by
    rcases shaped_or_misshapen data with ⟨deck, texts, shaped⟩ | ⟨fault, misshapen⟩
    · rcases distinct_or_twice deck with distinct | ⟨name, twice⟩
      · exact absurd ⟨deck, texts, shaped, distinct, rfl⟩ (h _)
      · exact ⟨_, shaped.handed_of_twice keys hload twice⟩
    · exact ⟨_, misshapen.handed keys hload⟩
  obtain ⟨cause, hhanded⟩ := hhanded
  simp only [load, read_of_not_handed hhanded]

end Document

/-! ## Loading -/

namespace Library

open Document

/-- A load fails with a fault that it answers for under the name of the source. -/
theorem result_load_of_error {settings : Settings} {builder : DeckBuilder} {minSize : Int}
    {source text : String} {cause : Failure} (hmin : settings.minDeckSize = .ok minSize)
    (hread : (Document.read builder minSize text).result = .error cause)
    (hcause : cause.isOfDocument = true) :
    (load settings builder source text).result = .error (.load source cause) := by
  simp only [load, hmin, Document.load, hread, hcause, if_true]

/-- How a load ends is decided by the value of its text, if settings can be read and no key of the
deck is a number with too many digits. It answers with a scenario exactly if the value passes every
stage, and then with the conditions that the texts say, in order. Otherwise it fails with the first
fault of the first stage that does not pass. Whatever the builder is, it is asked once, for a deck of
the cards by name, if the shape and the names are right; otherwise it is not asked. -/
theorem load_decided {settings : Settings} {minSize : Int} {text : String} {data : Data}
    (hmin : settings.minDeckSize = .ok minSize) (hload : Yaml.load text = .ok data)
    (keys : HasWritableKeys data) (source : String) :
    ((∃ s, (load settings Deck.ofEntries source text).result = .ok s) ↔
      ∃ deck texts, Accepts data deck texts) ∧
    (∀ s, (load settings Deck.ofEntries source text).result = .ok s → ∃ deck texts,
      Accepts data deck texts ∧
        List.Forall₂ (fun text c => Condition.parse text = .ok c) texts s.conditions) ∧
    (∀ e, (load settings Deck.ofEntries source text).result = .error e ↔
      ∃ cause, e = .load source cause ∧ Fails data cause) ∧
    ∀ builder note,
      (∀ cards, Asks data cards → load settings (noting note builder) source text =
        ⟨note cards minSize :: (load settings builder source text).records,
          (load settings builder source text).result⟩) ∧
      ((∀ cards, ¬ Asks data cards) →
        load settings (noting note builder) source text = load settings builder source text) := by
  have hasks : ∀ builder note,
      (∀ cards, Asks data cards → load settings (noting note builder) source text =
        ⟨note cards minSize :: (load settings builder source text).records,
          (load settings builder source text).result⟩) ∧
      ((∀ cards, ¬ Asks data cards) →
        load settings (noting note builder) source text = load settings builder source text) := by
    intro builder note
    simp only [load, hmin]
    exact ⟨fun _ h => load_noting_of_asks keys hload h note builder source,
      fun h => load_noting_of_not_asks keys hload h note builder source⟩
  rcases accepts_or_fails hload with ⟨deck, texts, haccepts⟩ | ⟨cause, hfails⟩
  · obtain ⟨s, hs, hconditions⟩ := haccepts.result_read keys hload minSize
    have hresult : (load settings Deck.ofEntries source text).result = .ok s :=
      result_load_eq_ok_iff.mpr ⟨minSize, hmin, hs⟩
    refine ⟨iff_of_true ⟨s, hresult⟩ ⟨deck, texts, haccepts⟩, ?_, ?_, hasks⟩
    · intro s' hs'
      cases hresult.symm.trans hs'
      exact ⟨deck, texts, haccepts, hconditions⟩
    · intro e
      constructor
      · intro he
        cases hresult.symm.trans he
      · rintro ⟨cause, -, hfails⟩
        cases hs.symm.trans (hfails.result_read keys hload minSize)
  · have hread := hfails.result_read keys hload minSize
    have hresult : (load settings Deck.ofEntries source text).result =
        .error (.load source cause) := result_load_of_error hmin hread hfails.isOfDocument
    refine ⟨iff_of_false ?_ ?_, ?_, ?_, hasks⟩
    · rintro ⟨s, hs⟩
      cases hresult.symm.trans hs
    · rintro ⟨deck, texts, haccepts⟩
      obtain ⟨s, hs, -⟩ := haccepts.result_read keys hload minSize
      cases hread.symm.trans hs
    · intro s hs
      cases hresult.symm.trans hs
    · intro e
      constructor
      · intro he
        cases hresult.symm.trans he
        exact ⟨cause, rfl, hfails⟩
      · rintro ⟨cause', rfl, hfails'⟩
        cases hread.symm.trans (hfails'.result_read keys hload minSize)
        exact hresult

/-- A document with a card that has too few copies and with a text that is no condition. -/
def twoFaults : String :=
  "deck: \x7bA: \x7bqty: -1, tags: []\x7d\x7d\nconditions: ['(']\n"

/-- The entry of the card. -/
def tooFewCopies : Scalar × Data :=
  (.text "A", .map [(.text "qty", .scalar (.whole (-1))), (.text "tags", .list [])])

/-- The value of the document. -/
def twoFaultsData : Data :=
  .map [(.text "deck", .map [tooFewCopies]), (.text "conditions", .list [.scalar (.text "(")])]

/-- The node of the document. -/
def twoFaultsNode : Yaml.Node :=
  .map .map [
    (.scalar .text "deck".toList, .map .map [(.scalar .text ['A'], .map .map [
      (.scalar .text "qty".toList, .scalar .whole "-1".toList),
      (.scalar .text "tags".toList, .list .list [])])]),
    (.scalar .text "conditions".toList, .list .list [.scalar .text ['(']])]

/-- The card is at fault before the text of the condition is. -/
theorem load_decided_twoFaults :
    Settings.default.minDeckSize = .ok 40 ∧ Yaml.load twoFaults = .ok twoFaultsData ∧
      HasWritableKeys twoFaultsData ∧ ∃ problems,
        (load .default Deck.ofEntries "YAML" twoFaults).result =
          .error (.load "YAML" (.cardDetails "A" problems)) := by
  have hnode : Yaml.Node.ofText twoFaults.toList = .ok (some twoFaultsNode) :=
    toOption_eq_some.mp (by decide +kernel)
  have hload : Yaml.load twoFaults = .ok twoFaultsData := by
    exact (Yaml.load_eq_ok_iff_of_node hnode).mpr ⟨rfl, rfl⟩
  have keys : HasWritableKeys twoFaultsData := by
    intro es deck hdata hdeck e he n hn
    cases hdata
    cases hdeck
    cases List.mem_singleton.mp he
    cases hn
  have shaped : Shaped twoFaultsData ([] ++ [tooFewCopies]) [Text.points "("] := by
    refine ⟨⟨_, _, rfl, rfl, rfl, rfl⟩, ?_⟩
    intro e he
    cases List.mem_singleton.mp he
    exact ⟨by decide, _, _, _, rfl, rfl, rfl, rfl⟩
  have refused : ∃ problems, IsRefused tooFewCopies (.cardDetails "A" problems) :=
    ⟨_, rfl, .details (by decide) rfl⟩
  obtain ⟨problems, refused⟩ := refused
  have hfails : Fails twoFaultsData (.cardDetails "A" problems) :=
    .cards shaped (List.nodup_singleton _) (List.forall_mem_nil _) refused
  have hmin : Settings.default.minDeckSize = .ok 40 := rfl
  obtain ⟨-, -, hfailure, -⟩ := load_decided hmin hload keys "YAML"
  exact ⟨hmin, hload, keys, problems, (hfailure _).mpr ⟨_, rfl, hfails⟩⟩

end Library

end OpeningHand
