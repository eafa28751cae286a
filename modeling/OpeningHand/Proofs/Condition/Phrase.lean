import OpeningHand.Proofs.Condition.Grammar
import OpeningHand.Proofs.Result
import Mathlib.Data.List.TakeWhile

/-!
# Phrases and items

The first two stages of reading a condition against the grammar. A phrase is read as the card test
that its words write, if its quantity has few enough digits (`readPhrase_eq_ok_iff`). The items of a
list of tokens are its parentheses and connectives and, between them, the words, all that stand
together in one phrase (`cut_ofTokens`), and no other items are (`Cut.items`).
-/

namespace OpeningHand.Condition

open Grammar

/-! ## First words -/

theorem plus_not_decimal : Text.isDecimal '+' = false := by decide

/-- Digits are what a word starts with up to the first character that is none. -/
theorem span_decimal {digits rest : List Char} (h : ∀ c ∈ digits, Text.isDecimal c = true)
    (hrest : ∀ c ∈ rest.head?, Text.isDecimal c = false) :
    (digits ++ rest).takeWhile Text.isDecimal = digits ∧
      (digits ++ rest).dropWhile Text.isDecimal = rest := by
  rw [List.takeWhile_append_of_pos h, List.dropWhile_append_of_pos h]
  cases rest with
  | nil => exact ⟨List.append_nil _, rfl⟩
  | cons c rest =>
    have hc : ¬ Text.isDecimal c = true := by simp [hrest c rfl]
    rw [List.takeWhile_cons_of_neg hc, List.dropWhile_cons_of_neg hc]
    exact ⟨List.append_nil _, rfl⟩

/-- A word that starts with digits and a plus sign is cut there. -/
theorem span_startsLeast {w : List Char} (h : StartsLeast w) :
    w.takeWhile Text.isDecimal ≠ [] ∧ ∃ rest, w.dropWhile Text.isDecimal = '+' :: rest := by
  obtain ⟨digits, rest, hdigits, rfl⟩ := h
  have hplus : ∀ c ∈ ('+' :: rest).head?, Text.isDecimal c = false := by simp [plus_not_decimal]
  have hspan := span_decimal hdigits.2 hplus
  exact ⟨by rw [hspan.1]; exact hdigits.1, rest, hspan.2⟩

/-- A count is digits, with at most a plus sign after them. -/
theorem span_isCount {w digits : List Char} (h : IsCount w digits) :
    w.takeWhile Text.isDecimal = digits ∧
      (w.dropWhile Text.isDecimal = [] ∨ w.dropWhile Text.isDecimal = ['+']) := by
  obtain ⟨hdigits, rfl | rfl⟩ := h
  · have hnil : ∀ c ∈ ([] : List Char).head?, Text.isDecimal c = false := by simp
    have hspan := span_decimal hdigits.2 hnil
    rw [List.append_nil] at hspan
    exact ⟨hspan.1, .inl hspan.2⟩
  · have hplus : ∀ c ∈ ['+'].head?, Text.isDecimal c = false := by simp [plus_not_decimal]
    have hspan := span_decimal hdigits.2 hplus
    exact ⟨hspan.1, .inr hspan.2⟩

/-- A word has one count at most. -/
theorem Grammar.IsCount.eq {w d e : List Char} (hd : IsCount w d) (he : IsCount w e) : d = e :=
  (span_isCount hd).1.symm.trans (span_isCount he).1

theorem Grammar.IsNumeral.isCount {digits : List Char} (h : IsNumeral digits) :
    IsCount digits digits :=
  ⟨h, .inl rfl⟩

theorem Grammar.IsNumeral.isCount_plus {digits : List Char} (h : IsNumeral digits) :
    IsCount (digits ++ ['+']) digits :=
  ⟨h, .inr rfl⟩

/-- Digits alone have no plus sign. -/
theorem Grammar.IsNumeral.not_startsLeast {w : List Char} (h : IsNumeral w) :
    ¬ StartsLeast w := by
  intro h
  obtain ⟨digits, rest, -, rfl⟩ := h
  have hplus := h.2 '+' (List.mem_append_right _ List.mem_cons_self)
  rw [plus_not_decimal] at hplus
  cases hplus

/-- The forms of a first word, and how each is read. -/
theorem ofWord_cases (w : List Char) :
    (IsNumeral w ∧ Lead.ofWord w = .count w) ∨
    (∃ digits, IsNumeral digits ∧ w = digits ++ ['+'] ∧ Lead.ofWord w = .least digits) ∨
    (StartsLeast w ∧ (∀ digits, ¬ IsCount w digits) ∧ Lead.ofWord w = .glued) ∨
    (¬ StartsLeast w ∧ (∀ digits, ¬ IsCount w digits) ∧ Lead.ofWord w = .name) := by
  have hw : w.takeWhile Text.isDecimal ++ w.dropWhile Text.isDecimal = w :=
    List.takeWhile_append_dropWhile
  have hall : ∀ c ∈ w.takeWhile Text.isDecimal, Text.isDecimal c = true :=
    fun c hc => List.all_eq_true.mp List.all_takeWhile c hc
  have least := @span_startsLeast w
  have count := @span_isCount w
  rw [Lead.ofWord]
  generalize w.takeWhile Text.isDecimal = digits at hw hall least count ⊢
  generalize w.dropWhile Text.isDecimal = rest at hw least count ⊢
  subst hw
  cases digits with
  | nil =>
    refine .inr (.inr (.inr ⟨fun h => (least h).1 rfl, fun ds h => ?_, rfl⟩))
    exact h.1.1 (count h).1.symm
  | cons d digits =>
    have numeral : IsNumeral (d :: digits) := ⟨List.cons_ne_nil d digits, hall⟩
    cases rest with
    | nil => exact .inl ⟨by rwa [List.append_nil], by rw [List.append_nil]⟩
    | cons c rest =>
      by_cases hc : c = '+'
      · subst hc
        cases rest with
        | nil => exact .inr (.inl ⟨_, numeral, rfl, rfl⟩)
        | cons e rest =>
          refine .inr (.inr (.inl ⟨⟨_, _, numeral, rfl⟩, fun ds h => ?_, rfl⟩))
          rcases (count h).2 with h | h <;> cases h
      · refine .inr (.inr (.inr ⟨fun h => ?_, fun ds h => ?_, ?_⟩))
        · obtain ⟨-, rest', h⟩ := least h
          exact hc (List.cons.inj h).1
        · rcases (count h).2 with h | h
          · cases h
          · exact hc (List.cons.inj h).1
        · -- only the last form is left for a character that is no plus sign
          split
          case h_5 => rfl
          all_goals simp_all

/-! ## Phrases -/

/-- A quantity is read if it has few enough digits. -/
theorem readQuantity_eq_ok_iff {digits : List Char} {n : Nat} :
    readQuantity digits = .ok n ↔
      digits.length ≤ Number.maxDigits ∧ n = Text.decimalValue digits := by
  unfold readQuantity
  split
  next h => exact ⟨(nomatch ·), fun hok => absurd hok.1 (Nat.not_le.mpr h)⟩
  next h =>
    rw [Except.ok.injEq, eq_comm]
    exact (and_iff_right (Nat.not_lt.mp h)).symm

section Test

variable {text digits : List Char} {first second : Token} {more : List Token} {test : CardTest}

/-- Digits before a name: so many copies, exactly. -/
theorem words_exactly_iff (numeral : IsNumeral first.chars) :
    Words text (first :: second :: more) test ↔
      test = ⟨slice text second more, Text.decimalValue first.chars, .exactly⟩ := by
  constructor
  · intro h
    cases h with
    | atLeast least lead => exact absurd ⟨_, [], least, lead⟩ numeral.not_startsLeast
    | exactly => rfl
    | named free lone => cases lone numeral
  · rintro rfl
    exact .exactly numeral

/-- Digits and a plus sign before a name: so many copies at least. -/
theorem words_atLeast_iff (numeral : IsNumeral digits) (lead : first.chars = digits ++ ['+']) :
    Words text (first :: second :: more) test ↔
      test = ⟨slice text second more, Text.decimalValue digits, .atLeast⟩ := by
  have least : StartsLeast first.chars := ⟨digits, [], numeral, lead⟩
  constructor
  · intro h
    cases h with
    | atLeast other same =>
      cases List.append_cancel_right (lead.symm.trans same)
      rfl
    | exactly whole => exact absurd least whole.not_startsLeast
    | named free _ => exact absurd least free
  · rintro rfl
    exact .atLeast numeral lead

/-- A name alone, which may be digits if nothing follows: one copy. -/
theorem words_named_iff (free : ¬ StartsLeast first.chars)
    (lone : IsNumeral first.chars → more = []) :
    Words text (first :: more) test ↔ test = ⟨slice text first more, 1, .exactly⟩ := by
  constructor
  · intro h
    cases h with
    | atLeast numeral lead => exact absurd ⟨_, [], numeral, lead⟩ free
    | exactly numeral => cases lone numeral
    | named => rfl
  · rintro rfl
    exact .named free lone

/-- Words that start like a least quantity write nothing unless that quantity is the first word and
a name follows it. -/
theorem not_words_of_startsLeast (least : StartsLeast first.chars)
    (bare : ∀ digits, IsCount first.chars digits → more = []) : ¬ Words text (first :: more) test := by
  intro h
  cases h with
  | atLeast numeral lead => cases bare _ (lead ▸ numeral.isCount_plus)
  | exactly numeral => cases bare _ numeral.isCount
  | named free _ => exact free least

/-- A card test with a quantity is read if the quantity has few enough digits. -/
theorem map_readQuantity_eq_ok_iff (count : IsCount first.chars digits) (f : Nat → CardTest) :
    (readQuantity digits).map f = .ok test ↔ test = f (Text.decimalValue digits) ∧
      ∀ ds, IsCount first.chars ds → second :: more ≠ [] → ds.length ≤ Number.maxDigits := by
  rw [map_eq_ok]
  constructor
  · intro h
    obtain ⟨n, hn, rfl⟩ := h
    obtain ⟨fits, rfl⟩ := readQuantity_eq_ok_iff.mp hn
    exact ⟨rfl, fun ds hds _ => hds.eq count ▸ fits⟩
  · intro hyp
    obtain ⟨rfl, fits⟩ := hyp
    exact ⟨_, readQuantity_eq_ok_iff.mpr ⟨fits digits count (List.cons_ne_nil _ _), rfl⟩, rfl⟩

/-- A phrase is read as the card test that its words write, unless its quantity has too many
digits. -/
theorem readPhrase_eq_ok_iff :
    readPhrase text first more = .ok test ↔ Words text (first :: more) test ∧
      ∀ digits, IsCount first.chars digits → more ≠ [] →
        digits.length ≤ Number.maxDigits := by
  have fits (h : ∀ digits, IsCount first.chars digits → more = []) :
      ∀ digits, IsCount first.chars digits → more ≠ [] → digits.length ≤ Number.maxDigits :=
    fun digits count nonempty => absurd (h digits count) nonempty
  unfold readPhrase
  rcases ofWord_cases first.chars with ⟨numeral, lead⟩ | ⟨digits, numeral, chars, lead⟩ |
    ⟨least, bare, lead⟩ | ⟨free, bare, lead⟩
  · cases more with
    | nil =>
      rw [words_named_iff numeral.not_startsLeast fun _ => rfl,
        and_iff_left (fits fun _ _ => rfl)]
      simp only [lead, Except.ok.injEq]
      exact eq_comm
    | cons second more =>
      rw [lead, words_exactly_iff numeral]
      exact map_readQuantity_eq_ok_iff numeral.isCount _
  · cases more with
    | nil =>
      have least : StartsLeast first.chars := ⟨digits, [], numeral, chars⟩
      rw [lead]
      refine iff_of_false ?_ fun h => not_words_of_startsLeast least (fun _ _ => rfl) h.1
      intro h
      obtain ⟨_, -, h⟩ := bind_eq_ok.mp h
      cases h
    | cons second more =>
      rw [lead, words_atLeast_iff numeral chars]
      exact map_readQuantity_eq_ok_iff (chars ▸ numeral.isCount_plus) _
  · rw [lead]
    exact iff_of_false nofun fun h =>
      not_words_of_startsLeast least (fun digits count => absurd count (bare digits)) h.1
  · rw [words_named_iff free fun numeral => absurd numeral.isCount (bare _),
      and_iff_left (fits fun digits count => absurd count (bare digits))]
    simp only [lead, Except.ok.injEq]
    exact eq_comm

end Test

/-! ## Items -/

/-- The items of some tokens: each parenthesis and connective by itself, and as one phrase all the
words that stand together. -/
inductive Cut : List Token → List Item → Prop
  | nil : Cut [] []
  | opening {t ts items} (kind : t.kind = .opening) (more : Cut ts items) :
      Cut (t :: ts) (.opening t.start :: items)
  | closing {t ts items} (kind : t.kind = .closing) (more : Cut ts items) :
      Cut (t :: ts) (.closing t.start :: items)
  | connective {t k ts items} (kind : t.kind = .connective k) (more : Cut ts items) :
      Cut (t :: ts) (.connective k t.start :: items)
  | phrase {first words ts items} (kind : ∀ t ∈ first :: words, t.kind = .word)
      (ends : ∀ t ∈ ts.head?, t.kind ≠ .word) (more : Cut ts items) :
      Cut (first :: (words ++ ts)) (.phrase first words :: items)

theorem ofTokens_cons (t : Token) (ts : List Token) :
    Item.ofTokens (t :: ts) = Item.cons t (Item.ofTokens ts) := rfl

/-- What tokens are made into is one way to cut them. -/
theorem cut_ofTokens (ts : List Token) : Cut ts (Item.ofTokens ts) := by
  induction ts with
  | nil => exact .nil
  | cons t ts ih =>
    rw [ofTokens_cons]
    generalize Item.ofTokens ts = items at ih
    cases hk : t.kind with
    | opening => simpa only [Item.cons, hk] using Cut.opening hk ih
    | closing => simpa only [Item.cons, hk] using Cut.closing hk ih
    | connective k => simpa only [Item.cons, hk] using Cut.connective hk ih
    | word =>
      simp only [Item.cons, hk]
      have alone : ∀ u ∈ [t], u.kind = .word := by simpa using hk
      -- the word joins a phrase that comes next, and is a phrase of its own before anything else
      cases ih with
      | nil => exact .phrase alone (by simp) .nil
      | opening kind more => exact .phrase alone (by simp [kind]) (.opening kind more)
      | closing kind more => exact .phrase alone (by simp [kind]) (.closing kind more)
      | connective kind more => exact .phrase alone (by simp [kind]) (.connective kind more)
      | phrase kind ends more => exact .phrase (List.forall_mem_cons.mpr ⟨hk, kind⟩) ends more

/-- A word before items that do not start with a phrase is a phrase. -/
theorem cons_word {t : Token} {ts : List Token} {items : List Item} (kind : t.kind = .word)
    (h : Cut ts items) (ends : ∀ u ∈ ts.head?, u.kind ≠ .word) :
    Item.cons t items = .phrase t [] :: items := by
  cases h with
  | nil => simp only [Item.cons, kind]
  | opening => simp only [Item.cons, kind]
  | closing => simp only [Item.cons, kind]
  | connective => simp only [Item.cons, kind]
  | phrase kind' => exact absurd (kind' _ List.mem_cons_self) (ends _ rfl)

/-- And there is no other way. -/
theorem Cut.items {ts : List Token} {items : List Item} (h : Cut ts items) :
    Item.ofTokens ts = items := by
  induction h with
  | nil => rfl
  | opening kind _ ih => simp only [ofTokens_cons, Item.cons, kind, ih]
  | closing kind _ ih => simp only [ofTokens_cons, Item.cons, kind, ih]
  | connective kind _ ih => simp only [ofTokens_cons, Item.cons, kind, ih]
  | @phrase first words ts items kind ends more ih =>
    clear more
    induction words generalizing first with
    | nil =>
      have hfirst := kind first List.mem_cons_self
      rw [List.nil_append, ofTokens_cons, ih, cons_word hfirst (ih ▸ cut_ofTokens ts) ends]
    | cons second words ihw =>
      obtain ⟨hfirst, kind⟩ := List.forall_mem_cons.mp kind
      rw [List.cons_append, ofTokens_cons, ihw kind]
      simp only [Item.cons, hfirst]

end OpeningHand.Condition
