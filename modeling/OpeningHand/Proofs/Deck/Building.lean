import Mathlib.Algebra.GroupWithZero.Nat
import Mathlib.Data.List.Forall2
import OpeningHand.Deck
import OpeningHand.Proofs.Number.Whole
import OpeningHand.Proofs.Result

/-!
# Building a deck from a description

Every entry of a description stands for a card or is refused (`offers_or_refuses`), and never both.
Building goes through the entries in order: the first that is refused stops it, and its failure is
the answer; without one, the deck has the slots of all cards in the order of the entries, and then
as many fillers as the least size asks for (`result_build_eq_error_iff`, `result_build_eq_ok_iff`).
-/

namespace OpeningHand.Deck

/-- The slots of cards with details, in order. -/
def slotsFor (cards : List (String × Details)) : List Card :=
  cards.flatMap fun c => List.replicate c.2.qty ⟨c.1, c.2⟩

theorem length_slotsFor (cards : List (String × Details)) :
    (slotsFor cards).length = (cards.map fun c => c.2.qty).sum := by
  rw [slotsFor, List.length_flatMap]
  simp only [List.length_replicate]

/-! ## Entries -/

variable {entry : Scalar × Offer} {entries before : List (Scalar × Offer)}
  {c : String × Details} {cards : List (String × Details)} {e : Failure}

/-- An entry stands for a card: its key is a text that is not blank, and its details are ready or
can be read. -/
inductive Offers : Scalar × Offer → String × Details → Prop where
  | ready {name : String} {details : Details} (named : Text.isBlankText name.toList = false) :
      Offers (.text name, .ready details) (name, details)
  | data {name : String} {d : Data} {labels : Details.hasTornLabel d = false} {details : Details}
      (named : Text.isBlankText name.toList = false) (read : Details.ofData d = .ok details) :
      Offers (.text name, .data d labels) (name, details)

/-- An entry is refused: its key is no text, or a blank text, or its details cannot be read. -/
inductive Refuses : Scalar × Offer → Failure → Prop where
  | key {k : Scalar} {offer : Offer} (noText : ∀ name, k ≠ .text name) :
      Refuses (k, offer) (.cardName k)
  | blank {name : String} {offer : Offer} (blank : Text.isBlankText name.toList = true) :
      Refuses (.text name, offer) (.cardName (.text name))
  | details {name : String} {d : Data} {labels : Details.hasTornLabel d = false} {ps : List Problem}
      (named : Text.isBlankText name.toList = false) (unread : Details.ofData d = .error ps) :
      Refuses (.text name, .data d labels) (.cardDetails name ps)

theorem offers_or_refuses (entry : Scalar × Offer) :
    (∃ c, Offers entry c) ∨ ∃ e, Refuses entry e := by
  obtain ⟨k, offer⟩ := entry
  by_cases htext : ∃ name, k = .text name
  · obtain ⟨name, rfl⟩ := htext
    cases hblank : Text.isBlankText name.toList with
    | true => exact .inr ⟨_, .blank hblank⟩
    | false =>
      cases offer with
      | ready details => exact .inl ⟨_, .ready hblank⟩
      | data d labels =>
        cases hread : Details.ofData d with
        | ok details => exact .inl ⟨_, .data hblank hread⟩
        | error ps => exact .inr ⟨_, .details hblank hread⟩
  · exact .inr ⟨_, .key (not_exists.mp htext)⟩

theorem Offers.slotsOf (h : Offers entry c) :
    slotsOf entry.1 entry.2 = .ok (List.replicate c.2.qty ⟨c.1, c.2⟩) := by
  cases h with
  | ready named => simp only [Deck.slotsOf, named, Bool.false_eq_true, if_false]
  | data named read => simp only [Deck.slotsOf, named, Bool.false_eq_true, if_false, read]

theorem Refuses.slotsOf (h : Refuses entry e) : slotsOf entry.1 entry.2 = .error e := by
  cases h with
  | @key k offer noText =>
    cases k with
    | text name => exact absurd rfl (noText name)
    | _ => rfl
  | blank blank => simp only [Deck.slotsOf, blank, if_true]
  | details named unread => simp only [Deck.slotsOf, named, Bool.false_eq_true, if_false, unread]

/-- No entry both stands for a card and is refused. -/
theorem Refuses.not_offers (h : Refuses entry e) : ¬ Offers entry c := by
  intro hoffers
  cases h.slotsOf.symm.trans hoffers.slotsOf

/-- An entry of which no card can be made: its key is no text, or one without anything but blanks,
or what it offers cannot be read as details. -/
def IsFaulty (entry : Scalar × Offer) : Prop :=
  (∀ name, entry.1 ≠ .text name) ∨
    (∃ name, entry.1 = .text name ∧ Text.isBlankText name.toList = true) ∨
    ∃ d labels ps, entry.2 = .data d labels ∧ Details.ofData d = .error ps

theorem isFaulty_iff : IsFaulty entry ↔ ∃ e, Refuses entry e := by
  constructor
  · intro hfaulty
    refine (offers_or_refuses entry).resolve_left ?_
    rintro ⟨c, hoffers⟩
    cases hoffers with
    | ready named =>
      rcases hfaulty with hkey | ⟨name, hname, hblank⟩ | ⟨d, labels, ps, hdata, -⟩
      · exact hkey _ rfl
      · cases hname
        cases named.symm.trans hblank
      · cases hdata
    | data named read =>
      rcases hfaulty with hkey | ⟨name, hname, hblank⟩ | ⟨d, labels, ps, hdata, hread⟩
      · exact hkey _ rfl
      · cases hname
        cases named.symm.trans hblank
      · cases hdata
        cases read.symm.trans hread
  · rintro ⟨e, hrefuses⟩
    cases hrefuses with
    | key noText => exact .inl noText
    | blank hblank => exact .inr (.inl ⟨_, rfl, hblank⟩)
    | details named unread => exact .inr (.inr ⟨_, _, _, rfl, unread⟩)

/-- A whole number with more digits than may be written. -/
def TooLong (key : Scalar) : Prop :=
  ∃ n : Int, key = .whole n ∧ 10 ^ Number.maxDigits ≤ n.natAbs

/-- Words that show the key of an entry: inspected if the key is at fault, plain if its details
are. -/
def Shows (message : String) (key : Scalar) : Prop :=
  (∃ cs, key.inspect? = some cs ∧ message = "Invalid card name: " ++ String.ofList cs) ∨
    ∃ name, key = .text name ∧
      message = "Invalid card details for " ++ name ++ ": " ++ Failure.problemsText

theorem keyMessage_of_tooLong {k : Scalar} (h : TooLong k) :
    Failure.keyMessage k = Number.tooLongMessage := by
  obtain ⟨n, rfl, long⟩ := h
  have hnone : (Scalar.whole n).inspect? = none := by
    rw [Scalar.inspect?, Number.writeWhole?, Nat.pow_eq, if_pos long]
  rw [Failure.keyMessage, hnone]

theorem shows_keyMessage {k : Scalar} (h : ¬ TooLong k) : Shows (Failure.keyMessage k) k := by
  have hsome : ∃ cs, k.inspect? = some cs := by
    cases k with
    | whole n =>
      exact ⟨_, Number.writeWhole?_of_lt (Nat.not_le.mp fun long => h ⟨n, rfl, long⟩)⟩
    | _ => exact ⟨_, rfl⟩
  obtain ⟨cs, hcs⟩ := hsome
  rw [Failure.keyMessage, hcs]
  exact .inl ⟨cs, hcs, rfl⟩

/-- The words of a refusal show the key, unless it is a number with too many digits. -/
theorem Refuses.shows (h : Refuses entry e) (short : ¬ TooLong entry.1) :
    Shows e.message entry.1 := by
  cases h with
  | key => exact shows_keyMessage short
  | blank => exact shows_keyMessage short
  | details => exact .inr ⟨_, rfl, rfl⟩

/-- A key with too many digits is refused with words that show no key. -/
theorem Refuses.message_of_tooLong (h : Refuses entry e) (long : TooLong entry.1) :
    e.message = Number.tooLongMessage := by
  cases h with
  | key => exact keyMessage_of_tooLong long
  | blank | details =>
    obtain ⟨n, hn, -⟩ := long
    cases hn

/-! ## Descriptions -/

/-- Entries that stand for cards come first with their slots; what follows them is read next. -/
theorem slotsOfAll_append (h : List.Forall₂ Offers before cards) (rest : List (Scalar × Offer)) :
    slotsOfAll (before ++ rest) = (slotsOfAll rest).map (slotsFor cards ++ ·) := by
  induction h with
  | nil =>
    rw [List.nil_append]
    cases slotsOfAll rest <;> rfl
  | cons hentry _ ih =>
    rw [List.cons_append, slotsOfAll, hentry.slotsOf, ih]
    cases slotsOfAll rest with
    | error e => rfl
    | ok slots => exact congrArg Except.ok (List.append_assoc _ _ _).symm

/-- All entries stand for cards, or there is a first that is refused. The induction is on the
entries. -/
theorem all_offer_or_first_refuses (entries : List (Scalar × Offer)) :
    (∃ cards, List.Forall₂ Offers entries cards) ∨
      ∃ before entry after cards e, entries = before ++ entry :: after ∧
        List.Forall₂ Offers before cards ∧ Refuses entry e := by
  induction entries with
  | nil => exact .inl ⟨[], .nil⟩
  | cons entry entries ih =>
    rcases offers_or_refuses entry with ⟨c, hc⟩ | ⟨e, he⟩
    · rcases ih with ⟨cards, hcards⟩ | ⟨before, bad, after, cards, e, rfl, hcards, he⟩
      · exact .inl ⟨c :: cards, .cons hc hcards⟩
      · exact .inr ⟨entry :: before, bad, after, c :: cards, e, rfl, .cons hc hcards, he⟩
    · exact .inr ⟨[], entry, entries, [], e, rfl, .nil, he⟩

theorem not_isFaulty_of_offers (h : List.Forall₂ Offers entries cards) :
    ∀ entry ∈ entries, ¬ IsFaulty entry := by
  induction h with
  | nil => exact List.forall_mem_nil _
  | cons hentry _ ih =>
    refine List.forall_mem_cons.mpr ⟨fun hfaulty => ?_, ih⟩
    obtain ⟨e, hrefuses⟩ := isFaulty_iff.mp hfaulty
    exact hrefuses.not_offers hentry

theorem slotsOfAll_of_offers (h : List.Forall₂ Offers entries cards) :
    slotsOfAll entries = .ok (slotsFor cards) := by
  have hall := slotsOfAll_append h []
  rw [List.append_nil] at hall
  rw [hall]
  exact congrArg Except.ok (List.append_nil _)

theorem slotsOfAll_of_refuses (h : List.Forall₂ Offers before cards) (he : Refuses entry e)
    (after : List (Scalar × Offer)) : slotsOfAll (before ++ entry :: after) = .error e := by
  rw [slotsOfAll_append h, slotsOfAll, he.slotsOf]
  rfl

/-! ## Building -/

variable {minSize : Int} {deck : Deck}

/-- A deck is built if every entry stands for a card; it has the slots of the cards, and fillers. -/
theorem result_build_eq_ok_iff :
    (build entries minSize).result = .ok deck ↔
      ∃ cards, List.Forall₂ Offers entries cards ∧
        deck = ⟨slotsFor cards ++
          List.replicate (fillerCount minSize (slotsFor cards).length) .empty⟩ := by
  constructor
  · intro h
    rcases all_offer_or_first_refuses entries with ⟨cards, hcards⟩ |
      ⟨before, entry, after, cards, e, rfl, hcards, he⟩
    · rw [build, slotsOfAll_of_offers hcards] at h
      exact ⟨cards, hcards, (Except.ok.inj h).symm⟩
    · rw [build, slotsOfAll_of_refuses hcards he] at h
      cases h
  · rintro ⟨cards, hcards, rfl⟩
    rw [build, slotsOfAll_of_offers hcards]

/-- Building stops at the first entry that is refused. -/
theorem result_build_eq_error_iff :
    (build entries minSize).result = .error e ↔
      ∃ before entry after cards, entries = before ++ entry :: after ∧
        List.Forall₂ Offers before cards ∧ Refuses entry e := by
  constructor
  · intro h
    rcases all_offer_or_first_refuses entries with ⟨cards, hcards⟩ |
      ⟨before, entry, after, cards, e', rfl, hcards, he⟩
    · rw [build, slotsOfAll_of_offers hcards] at h
      cases h
    · rw [build, slotsOfAll_of_refuses hcards he] at h
      cases h
      exact ⟨before, entry, after, cards, rfl, hcards, he⟩
  · rintro ⟨before, entry, after, cards, rfl, hcards, he⟩
    rw [build, slotsOfAll_of_refuses hcards he]
    rfl

end OpeningHand.Deck
