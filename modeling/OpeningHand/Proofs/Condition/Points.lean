import Mathlib.Data.List.Forall2
import OpeningHand.Condition.Journaled
import OpeningHand.Proofs.Condition.Places
import OpeningHand.Proofs.Condition.Refusals
import OpeningHand.Proofs.Journal

/-!
# What points are read as

A half of a surrogate pair stands for a character of a word and of nothing else, so the tokens of a
text of points are those of the text as shown. A half is in the way of the card test whose name it
stands in, and only when that test is made: what is refused before it is refused for its own fault.

A condition comes of points exactly if they are characters that write one (`parsePoints_iff_expr`).
Of the refusals, two are no faults of the grammar, and each has its place in the text: a quantity
with too many digits (`LongQuantity`) and a name with a half in it (`TornName`), both where a card
test may stand and before any other half.
-/

namespace OpeningHand.Condition

open Grammar
open Text (Point points shown)

variable {text : List Point}

theorem length_toList_shown (text : List Point) : (shown text).toList.length = text.length := by
  rw [shown, String.toList_ofList, List.length_map]

theorem length_shown (text : List Point) : (shown text).length = text.length := by
  rw [← String.length_toList, length_toList_shown]

/-! ## Halves and tokens -/

/-- A half stands in a token. -/
def Token.Torn (text : List Point) (t : Token) : Prop :=
  ∃ i, t.Covers i ∧ ∃ p ∈ text[i]?, p.isChar = false

/-- The tokens of a text of points by their places. -/
theorem lexing_shown (text : List Point) : Lexing (shown text).toList 0 (tokens (shown text)) :=
  ((tokens_eq_iff_lexing (shown text)).1 _).mp rfl

/-- What a half is shown as. -/
theorem getElem?_shown_of_half {i : Nat} {p : Point} (hp : p ∈ text[i]?)
    (half : p.isChar = false) : (shown text).toList[i]? = some '\ufffd' := by
  cases p with
  | char => cases half
  | half => rw [shown, String.toList_ofList, List.getElem?_map, Option.mem_def.mp hp]; rfl

/-- Every half stands in a token, for it is no blank. -/
theorem exists_torn {i : Nat} {p : Point} (hp : p ∈ text[i]?) (half : p.isChar = false) :
    ∃ t ∈ tokens (shown text), t.Covers i ∧ t.Torn text := by
  by_contra hnone
  have hblank := (lexing_shown text).outside i (Nat.zero_le i)
    (fun t ht covers => hnone ⟨t, ht, covers, i, covers, p, hp, half⟩) _
    (getElem?_shown_of_half hp half)
  exact absurd hblank (by decide)

/-- The points of a text are characters exactly if no token is torn. -/
theorem forall_not_torn_iff :
    (∀ t ∈ tokens (shown text), ¬ t.Torn text) ↔ ∀ p ∈ text, p.isChar = true := by
  constructor
  · intro h p hp
    obtain ⟨i, hi⟩ := List.mem_iff_getElem?.mp hp
    by_contra hhalf
    obtain ⟨t, ht, -, torn⟩ := exists_torn hi (Bool.eq_false_iff.mpr hhalf)
    exact h t ht torn
  · rintro h t - ⟨i, -, p, hp, half⟩
    cases half.symm.trans (h p (List.mem_of_getElem? hp))

/-- A torn token holds what a half is shown as. -/
theorem Token.Torn.mem_chars {t : Token} (h : t.Torn text) (ht : t ∈ tokens (shown text)) :
    '\ufffd' ∈ t.chars := by
  obtain ⟨i, ⟨hstart, hstop⟩, p, hp, half⟩ := h
  rw [((lexing_shown text).stands t ht).chars, List.extract_eq_take_drop]
  refine List.mem_iff_getElem?.mpr ⟨i - t.start, ?_⟩
  rw [List.getElem?_take, if_pos (by omega), List.getElem?_drop, Nat.add_sub_cancel' hstart]
  exact getElem?_shown_of_half hp half

/-- Only words are torn. -/
theorem Token.Torn.kind_eq {t : Token} (h : t.Torn text) (ht : t ∈ tokens (shown text)) :
    t.kind = .word := by
  have hmem := h.mem_chars ht
  have spells := (lexing_shown text).spells t ht
  cases kind : t.kind with
  | word => rfl
  | opening =>
    rw [spells.opening.mp kind] at hmem
    exact absurd hmem (by decide)
  | closing =>
    rw [spells.closing.mp kind] at hmem
    exact absurd hmem (by decide)
  | connective k =>
    rw [(spells.connective k).mp kind] at hmem
    cases k <;> exact absurd hmem (by decide)

/-! ## Halves and names -/

theorem mem_cutOut_iff {first : Token} {more : List Token} {p : Point} :
    p ∈ cutOut text (first :: more) ↔ ∃ i, first.start ≤ i ∧
      i < ((first :: more).getLast (List.cons_ne_nil _ _)).stop ∧ p ∈ text[i]? := by
  rw [cutOut, List.mem_iff_getElem?]
  simp only [List.getElem?_take, List.getElem?_drop]
  constructor
  · rintro ⟨j, hj⟩
    split at hj
    next hlt => exact ⟨first.start + j, Nat.le_add_right _ _, by omega, hj⟩
    next => cases hj
  · rintro ⟨i, hfirst, hlast, hp⟩
    exact ⟨i - first.start, by rwa [if_pos (by omega), Nat.add_sub_cancel' hfirst]⟩

/-- A token that covers a place between the ends of neighbouring tokens is one of them. -/
theorem mem_neighbours_iff {front back more : List Token} {first t : Token} {i : Nat}
    (split : front ++ first :: more ++ back = tokens (shown text))
    (ht : t ∈ tokens (shown text)) (covers : t.Covers i) :
    t ∈ first :: more ↔ first.start ≤ i ∧
      i < ((first :: more).getLast (List.cons_ne_nil _ _)).stop := by
  have lexing := lexing_shown text
  have ordered := split ▸ lexing.ordered
  obtain ⟨orderedWords, -, beforeBack⟩ := List.pairwise_append.mp ordered
  obtain ⟨-, inside, beforeWords⟩ := List.pairwise_append.mp orderedWords
  have nonempty := List.cons_ne_nil first more
  have stands {u : Token} (hu : u ∈ first :: more) : u.start < u.stop :=
    (lexing.stands u (split ▸ List.mem_append_left _ (List.mem_append_right _ hu))).nonempty
  obtain ⟨hstart, hstop⟩ := covers
  constructor
  · intro hmem
    constructor
    · rcases List.mem_cons.mp hmem with rfl | hmem
      · exact hstart
      · have := List.rel_of_pairwise_cons inside hmem
        have := stands (List.mem_cons_self (a := first) (l := more))
        omega
    · have hparts := List.dropLast_append_getLast nonempty
      rw [← hparts] at hmem inside
      rcases List.mem_append.mp hmem with hmem | hmem
      · have := (List.pairwise_append.mp inside).2.2 t hmem _ (List.mem_singleton_self _)
        have := stands (List.getLast_mem nonempty)
        omega
      · rw [← List.mem_singleton.mp hmem]
        exact hstop
  · rintro ⟨hfirst, hlast⟩
    rw [← split] at ht
    rcases List.mem_append.mp ht with ht | ht
    · rcases List.mem_append.mp ht with ht | ht
      · have := beforeWords t ht first List.mem_cons_self
        omega
      · exact ht
    · have := beforeBack _ (List.mem_append_right front (List.getLast_mem nonempty)) t ht
      omega

/-- What neighbouring tokens cut out of the text holds a half exactly if one of them is torn: between
them there are blanks alone. -/
theorem exists_half_iff_torn {words : List Token} (near : words <:+: tokens (shown text)) :
    (∃ p ∈ cutOut text words, p.isChar = false) ↔ ∃ t ∈ words, t.Torn text := by
  cases words with
  | nil => simp [cutOut]
  | cons first more =>
    obtain ⟨front, back, split⟩ := near
    constructor
    · rintro ⟨p, hp, half⟩
      obtain ⟨i, hfirst, hlast, hp⟩ := mem_cutOut_iff.mp hp
      obtain ⟨t, ht, covers, torn⟩ := exists_torn hp half
      exact ⟨t, (mem_neighbours_iff split ht covers).mpr ⟨hfirst, hlast⟩, torn⟩
    · rintro ⟨t, ht, i, covers, p, hp, half⟩
      have hmem : t ∈ tokens (shown text) :=
        split ▸ List.mem_append_left _ (List.mem_append_right _ ht)
      obtain ⟨hfirst, hlast⟩ := (mem_neighbours_iff split hmem covers).mp ht
      exact ⟨p, mem_cutOut_iff.mpr ⟨i, hfirst, hlast, hp⟩, half⟩

/-- The words of a name are the last ones of the phrase. -/
theorem nameWords_suffix (first : Token) (more : List Token) :
    nameWords first more <:+ first :: more := by
  unfold nameWords
  split
  · exact List.suffix_cons _ _
  · exact List.suffix_cons _ _
  · exact List.suffix_refl _

/-- A torn word is not the quantity, so it belongs to the name. -/
theorem mem_nameWords {first t : Token} {more : List Token} (ht : t ∈ first :: more)
    (half : '\ufffd' ∈ t.chars) : t ∈ nameWords first more := by
  have afterCount {digits : List Char} (h : IsCount first.chars digits) : t ∈ more := by
    rcases List.mem_cons.mp ht with rfl | ht
    · have plain : '\ufffd' ∉ digits := fun hmem => absurd (h.1.2 _ hmem) (by decide)
      rcases h.2 with hword | hword
      · exact absurd (hword ▸ half) plain
      · rcases List.mem_append.mp (hword ▸ half) with hmem | hmem
        · exact absurd hmem plain
        · exact absurd hmem (by decide)
    · exact ht
  unfold nameWords
  rcases ofWord_cases first.chars with ⟨numeral, lead⟩ | ⟨digits, numeral, chars, lead⟩ |
    ⟨-, -, lead⟩ | ⟨-, -, lead⟩
  · rw [lead]
    cases more with
    | nil => exact ht
    | cons second more => exact afterCount numeral.isCount
  · rw [lead]
    exact afterCount (chars ▸ numeral.isCount_plus)
  · rw [lead]
    exact ht
  · rw [lead]
    exact ht

/-- The name that a phrase gives is one of characters exactly if none of its words is torn. -/
theorem name_phrase_iff {first : Token} {more : List Token}
    (near : first :: more <:+: tokens (shown text)) :
    ((Item.phrase first more).name text).all Point.isChar = true ↔
      ∀ t ∈ first :: more, ¬ t.Torn text := by
  have suffix := nameWords_suffix first more
  rw [← not_iff_not, Item.name, Bool.not_eq_true, List.all_eq_false]
  simp only [Bool.not_eq_true]
  rw [exists_half_iff_torn (suffix.isInfix.trans near)]
  push Not
  constructor
  · rintro ⟨t, ht, torn⟩
    exact ⟨t, suffix.subset ht, torn⟩
  · rintro ⟨t, ht, torn⟩
    exact ⟨t, mem_nameWords ht (torn.mem_chars (near.subset ht)), torn⟩

/-- The names that the items of neighbouring tokens give are of characters exactly if none of the
tokens is torn. -/
theorem Cut.names_iff {ts : List Token} {items : List Item} (h : Cut ts items)
    (near : ts <:+: tokens (shown text)) :
    (∀ item ∈ items, (item.name text).all Point.isChar = true) ↔ ∀ t ∈ ts, ¬ t.Torn text := by
  -- a token that is no word gives no name and is not torn
  have plain {first : Token} {ts : List Token} {items : List Item} {item : Item}
      (near : first :: ts <:+: tokens (shown text)) (kind : first.kind ≠ .word)
      (name : item.name text = [])
      (ih : (∀ i ∈ items, (i.name text).all Point.isChar = true) ↔ ∀ t ∈ ts, ¬ t.Torn text) :
      (∀ i ∈ item :: items, (i.name text).all Point.isChar = true) ↔
        ∀ t ∈ first :: ts, ¬ t.Torn text := by
    simp only [List.forall_mem_cons, ih, name]
    exact and_congr_left fun _ =>
      iff_of_true rfl fun torn => kind (torn.kind_eq (near.subset List.mem_cons_self))
  induction h with
  | nil => exact iff_of_true (List.forall_mem_nil _) (List.forall_mem_nil _)
  | opening kind _ ih | closing kind _ ih | connective kind _ ih =>
    exact plain near (by simp [kind]) rfl (ih ((List.suffix_cons _ _).isInfix.trans near))
  | @phrase first words ts items kind ends _ ih =>
    rw [← List.cons_append] at near ⊢
    have names := ih ((List.suffix_append _ _).isInfix.trans near)
    have name := name_phrase_iff ((List.prefix_append _ _).isInfix.trans near)
    simp only [List.forall_mem_cons (l := items), List.forall_mem_append, names, name]

/-! ## The machine -/

variable {r s : Reader} {item : Item} {items : List Item}

/-- An item of a text of points is read as in the text shown, and gives a name of characters. -/
theorem Reader.readPoint_eq_ok_iff : r.readPoint text item = .ok s ↔
    r.read (shown text).toList item = .ok s ∧ (item.name text).all Point.isChar = true := by
  unfold readPoint
  cases r.read (shown text).toList item with
  | error e => exact iff_of_false nofun nofun
  | ok s' =>
    show (if _ then Except.ok s' else _) = _ ↔ _
    split
    next clear => simp only [Except.ok.injEq, clear, and_true]
    next torn => exact iff_of_false nofun fun h => torn h.2

/-- An item is refused as in the text shown, or was read there and gives a torn name. -/
theorem Reader.readPoint_eq_error_iff {e : Refusal} : r.readPoint text item = .error e ↔
    (∃ f, r.read (shown text).toList item = .error f ∧ e = .unread f) ∨
      (∃ s, r.read (shown text).toList item = .ok s) ∧
        ¬ (item.name text).all Point.isChar = true ∧ e = .tornName := by
  unfold readPoint
  cases r.read (shown text).toList item with
  | error f =>
    constructor
    · rintro ⟨⟩
      exact .inl ⟨f, rfl, rfl⟩
    · rintro (⟨f, hf, rfl⟩ | ⟨⟨s, hs⟩, -⟩)
      · cases hf
        rfl
      · cases hs
  | ok s =>
    show (if _ then _ else _) = _ ↔ _
    split
    next clear =>
      refine iff_of_false nofun ?_
      rintro (⟨_, h, -⟩ | ⟨-, torn, -⟩)
      · cases h
      · exact torn clear
    next torn =>
      constructor
      · rintro ⟨⟩
        exact .inr ⟨⟨s, rfl⟩, torn, rfl⟩
      · rintro (⟨_, h, -⟩ | ⟨-, -, rfl⟩)
        · cases h
        · rfl

/-- Items are read as in the text shown, and each gives a name of characters. -/
theorem Reader.readPoints_eq_ok_iff : r.readPoints text items = .ok s ↔
    r.readAll (shown text).toList items = .ok s ∧
      ∀ item ∈ items, (item.name text).all Point.isChar = true := by
  induction items generalizing r with
  | nil =>
    simp only [readPoints, readAll, Except.ok.injEq, List.not_mem_nil, false_imp_iff, forall_true_iff,
      and_true]
  | cons item items ih =>
    rw [readPoints, readAll, bind_eq_ok, bind_eq_ok, List.forall_mem_cons]
    simp only [readPoint_eq_ok_iff, ih]
    exact ⟨fun ⟨r', ⟨h, name⟩, hs, names⟩ => ⟨⟨r', h, hs⟩, name, names⟩,
      fun ⟨⟨r', h, hs⟩, name, names⟩ => ⟨r', ⟨h, name⟩, hs, names⟩⟩

/-- Reading points stops at the first item that cannot be read. -/
theorem Reader.readPoints_eq_error_iff {e : Refusal} : r.readPoints text items = .error e ↔
    ∃ before item after s, items = before ++ item :: after ∧
      r.readPoints text before = .ok s ∧ s.readPoint text item = .error e := by
  constructor
  · intro h
    induction items generalizing r with
    | nil => cases h
    | cons item items ih =>
      rcases bind_eq_error.mp h with h | ⟨s, hs, h⟩
      · exact ⟨[], item, items, r, rfl, rfl, h⟩
      · obtain ⟨before, item', after, s', rfl, hbefore, hread⟩ := ih h
        exact ⟨item :: before, item', after, s', rfl, bind_eq_ok.mpr ⟨s, hs, hbefore⟩, hread⟩
  · rintro ⟨before, item, after, s, rfl, hbefore, hread⟩
    induction before generalizing r with
    | nil =>
      cases hbefore
      exact bind_eq_error.mpr (.inl hread)
    | cons first before ih =>
      obtain ⟨r', hr', hbefore⟩ := bind_eq_ok.mp hbefore
      exact bind_eq_error.mpr (.inr ⟨r', hr', ih hbefore⟩)

/-! ## Texts -/

variable {c : Condition}

theorem parsePoints_of_no_tokens (h : tokens (shown text) = []) :
    parsePoints text = .error (.unread (.fault .empty 0)) := by
  rw [parsePoints, h]
  rfl

/-- The tokens of points go through the reader as items. -/
theorem parsePoints_of_tokens (h : tokens (shown text) ≠ []) :
    parsePoints text = Reader.start.readPoints text (Item.ofTokens (tokens (shown text))) >>=
      fun r => (r.finish (shown text).toList).mapError .unread := by
  have cut := cut_ofTokens (tokens (shown text))
  rw [parsePoints]
  split
  next hitems =>
    rw [hitems] at cut
    generalize tokens (shown text) = ts at h cut
    cases cut
    exact absurd rfl h
  next hitems => rw [hitems]

/-- Points are read as the condition that the text shown is, if all of them are characters. -/
theorem parsePoints_eq_ok_iff :
    parsePoints text = .ok c ↔ (∀ p ∈ text, p.isChar = true) ∧ parse (shown text) = .ok c := by
  by_cases hnil : tokens (shown text) = []
  · rw [parsePoints_of_no_tokens hnil, parse_of_no_tokens hnil]
    exact iff_of_false nofun fun h => nomatch h.2
  · have names := (cut_ofTokens (tokens (shown text))).names_iff (List.infix_refl _)
    rw [parsePoints_of_tokens hnil, parse_of_tokens hnil, bind_eq_ok, bind_eq_ok]
    simp only [Reader.readPoints_eq_ok_iff, names, forall_not_torn_iff, mapError_eq_ok]
    exact ⟨fun ⟨r, ⟨hr, clear⟩, hc⟩ => ⟨clear, r, hr, hc⟩, fun ⟨clear, r, hr, hc⟩ => ⟨r, ⟨hr, clear⟩, hc⟩⟩

/-- What is read is a text of characters, and reading its points is reading it. -/
theorem parsePoints_eq_ok_iff_exists :
    parsePoints text = .ok c ↔ ∃ s, text = points s ∧ parse s = .ok c := by
  rw [parsePoints_eq_ok_iff, ← Text.eq_points_iff]
  constructor
  · rintro ⟨⟨s, rfl⟩, h⟩
    rw [Text.shown_points] at h
    exact ⟨s, rfl, h⟩
  · rintro ⟨s, rfl, h⟩
    rw [Text.shown_points]
    exact ⟨⟨s, rfl⟩, h⟩

theorem parsePoints_points {s : String} : parsePoints (points s) = .ok c ↔ parse s = .ok c := by
  rw [parsePoints_eq_ok_iff_exists]
  constructor
  · rintro ⟨s', hs, h⟩
    exact Text.points_injective hs ▸ h
  · intro h
    exact ⟨s, rfl, h⟩

/-- What points are refused for but a torn name, the text shown is refused for as well. -/
theorem parse_of_parsePoints {e : ReadError} (h : parsePoints text = .error (.unread e)) :
    parse (shown text) = .error e := by
  by_cases hnil : tokens (shown text) = []
  · rw [parsePoints_of_no_tokens hnil] at h
    cases h
    exact parse_of_no_tokens hnil
  · rw [parsePoints_of_tokens hnil] at h
    rw [parse_of_tokens hnil]
    rcases bind_eq_error.mp h with h | ⟨r, hr, h⟩
    · obtain ⟨before, item, after, s, hitems, hs, hread⟩ := Reader.readPoints_eq_error_iff.mp h
      rcases Reader.readPoint_eq_error_iff.mp hread with ⟨f, hf, h⟩ | ⟨-, -, h⟩
      · cases h
        exact bind_eq_error.mpr (.inl (Reader.readAll_eq_error_iff.mpr
          ⟨before, item, after, s, hitems, (Reader.readPoints_eq_ok_iff.mp hs).1, hf⟩))
      · cases h
    · obtain ⟨f, hf, h⟩ := mapError_eq_error.mp h
      cases h
      exact bind_eq_error.mpr (.inr ⟨r, (Reader.readPoints_eq_ok_iff.mp hr).1, hf⟩)

/-- A refusal that is no fault of the grammar comes from reading an item: what is missed at the end
of the text is a fault. -/
theorem readPoints_of_parsePoints {e : Refusal} (h : parsePoints text = .error e)
    (foreign : ∀ f position, e ≠ .unread (.fault f position)) :
    Reader.start.readPoints text (Item.ofTokens (tokens (shown text))) = .error e := by
  by_cases hnil : tokens (shown text) = []
  · rw [parsePoints_of_no_tokens hnil] at h
    cases h
    exact absurd rfl (foreign _ _)
  · rw [parsePoints_of_tokens hnil] at h
    rcases bind_eq_error.mp h with h | ⟨r, hr, h⟩
    · exact h
    · obtain ⟨f, hf, rfl⟩ := mapError_eq_error.mp h
      have opened := Reader.openedIn_readAll (Reader.openedIn_start (tokens (shown text)))
        (cut_ofTokens (tokens (shown text))).forall_of (Reader.readPoints_eq_ok_iff.mp hr).1
      obtain ⟨_, _, rfl, -⟩ := Reader.at_of_finish opened hf
      exact absurd rfl (foreign _ _)

/-! ## Refusals where a card test may stand -/

/-- Words where a card test may stand, with no torn token before them. -/
structure ClearPlace (text : List Point) (before : List Token) (first : Token)
    (more after : List Token) : Prop
    extends CardPlace (shown text).toList (tokens (shown text)) before first more after where
  clear : ∀ t ∈ before, ¬ t.Torn text

/-- A quantity that is too long, where a card test may stand and before any half. -/
inductive LongQuantity (text : List Point) : Nat → Prop
  | intro {before first more after digits} (place : ClearPlace text before first more after)
      (count : IsCount first.chars digits) (quantity : first.chars = digits → more ≠ [])
      (long : Number.maxDigits < digits.length) : LongQuantity text digits.length

/-- The words of a card test that could be made, the first of the text with a half in them. -/
inductive TornName (text : List Point) : Prop
  | intro {before first more after test} (place : ClearPlace text before first more after)
      (writes : Words (shown text).toList (first :: more) test)
      (fits : ∀ digits, IsCount first.chars digits → more ≠ [] → digits.length ≤ Number.maxDigits)
      (torn : ∃ t ∈ first :: more, t.Torn text)

/-- What a phrase is refused for where a card test may stand, and no half comes before, its text is
refused for. -/
theorem ClearPlace.parsePoints_eq_error {before more after : List Token} {first : Token}
    {e : Refusal} (h : ClearPlace text before first more after)
    (refused : ∀ r : Reader, r.wantsTerm = true →
      r.readPoint text (.phrase first more) = .error e) : parsePoints text = .error e := by
  have hnil : tokens (shown text) ≠ [] := by
    rw [h.split]
    exact List.append_ne_nil_of_right_ne_nil _ (List.cons_ne_nil _ _)
  have near : before <:+: tokens (shown text) := by
    rw [h.split]
    exact (List.prefix_append _ _).isInfix
  have names := ((cut_ofTokens before).names_iff near).mpr h.clear
  obtain ⟨r, hr, wants⟩ := h.awaits.readAll h.fresh
  rw [parsePoints_of_tokens hnil]
  exact bind_eq_error.mpr (.inl (Reader.readPoints_eq_error_iff.mpr ⟨_, _, _, r,
    h.toCardPlace.items, Reader.readPoints_eq_ok_iff.mpr ⟨hr, names⟩, refused r wants⟩))

/-- Where reading points stops at a phrase, the phrase stands where a card test may, and no half
comes before. -/
theorem Reader.exists_clearPlace {before after : List Item} {first : Token} {more : List Token}
    (hitems : Item.ofTokens (tokens (shown text)) = before ++ .phrase first more :: after)
    (run : Reader.start.readPoints text before = .ok r) (wants : r.wantsTerm = true) :
    ∃ front back, ClearPlace text front first more back := by
  obtain ⟨run, names⟩ := readPoints_eq_ok_iff.mp run
  obtain ⟨front, back, place, rfl⟩ := exists_cardPlace hitems run wants
  have near : front <:+: tokens (shown text) := by
    rw [place.split]
    exact (List.prefix_append _ _).isInfix
  exact ⟨front, back, place, ((cut_ofTokens front).names_iff near).mp names⟩

theorem Reader.read_phrase (wants : r.wantsTerm = true) {cs : List Char} (first : Token)
    (more : List Token) : r.read cs (.phrase first more) = (readPhrase cs first more).map fun test =>
      { r with level := r.level.add (.card test), wantsTerm := false } := by
  rw [read, if_pos wants, readTerm]
  cases readPhrase cs first more <;> rfl

/-- Points are refused for a quantity that is too long exactly if they have one where a card test may
stand and before any half. -/
theorem parsePoints_eq_tooManyDigits_iff {count : Nat} :
    parsePoints text = .error (.unread (.tooManyDigits count)) ↔ LongQuantity text count := by
  constructor
  · intro h
    obtain ⟨before, item, after, s, hitems, hs, hread⟩ :=
      Reader.readPoints_eq_error_iff.mp (readPoints_of_parsePoints h fun _ _ => nofun)
    rcases Reader.readPoint_eq_error_iff.mp hread with ⟨f, hf, h⟩ | ⟨-, -, h⟩
    · cases h
      obtain ⟨wants, first, more, rfl, hphrase⟩ := Reader.exists_phrase_of_tooManyDigits hf
      obtain ⟨front, back, place⟩ := Reader.exists_clearPlace hitems hs wants
      cases phraseError_of_readPhrase hphrase with
      | tooLong count quantity long => exact .intro place count quantity long
    · cases h
  · rintro ⟨place, count, quantity, long⟩
    refine place.parsePoints_eq_error fun r wants => Reader.readPoint_eq_error_iff.mpr (.inl ⟨_, ?_, rfl⟩)
    rw [Reader.read_phrase wants, readPhrase_tooManyDigits count quantity long]
    rfl

/-- A card test that was read is not made exactly if its name is torn. -/
theorem parsePoints_eq_tornName_iff : parsePoints text = .error .tornName ↔ TornName text := by
  have near {before more after : List Token} {first : Token}
      (split : tokens (shown text) = before ++ first :: (more ++ after)) :
      first :: more <:+: tokens (shown text) := by
    rw [split, ← List.cons_append]
    exact ((List.prefix_append _ _).isInfix).trans (List.suffix_append _ _).isInfix
  constructor
  · intro h
    obtain ⟨before, item, after, s, hitems, hs, hread⟩ :=
      Reader.readPoints_eq_error_iff.mp (readPoints_of_parsePoints h fun _ _ => nofun)
    rcases Reader.readPoint_eq_error_iff.mp hread with ⟨_, -, h⟩ | ⟨⟨s', hs'⟩, torn, -⟩
    · cases h
    · cases Reader.step_of_read hs' with
      | opening | link | relink | closing => exact absurd rfl torn
      | phrase hphrase =>
        obtain ⟨front, back, place⟩ := Reader.exists_clearPlace hitems hs rfl
        obtain ⟨writes, fits⟩ := readPhrase_eq_ok_iff.mp hphrase
        rw [name_phrase_iff (near place.split)] at torn
        push Not at torn
        exact .intro place writes fits torn
  · rintro ⟨place, writes, fits, torn⟩
    refine place.parsePoints_eq_error fun r wants => Reader.readPoint_eq_error_iff.mpr (.inr ?_)
    rw [Reader.read_phrase wants, readPhrase_eq_ok_iff.mpr ⟨writes, fits⟩,
      name_phrase_iff (near place.split)]
    push Not
    exact ⟨⟨_, rfl⟩, torn, rfl⟩

/-! ## What reading comes to -/

/-- Points are read as a condition exactly if they are characters and the grammar derives it from
their tokens, the parentheses nest no deeper than the limit, and no quantity has more digits than a
numeral may have. -/
theorem parsePoints_iff_expr (text : List Point) (c : Condition) :
    parsePoints text = .ok c ↔ (∀ p ∈ text, p.isChar = true) ∧
      Expr (shown text).toList (tokens (shown text)) c ∧
      nesting (tokens (shown text)) ≤ maxNesting ∧ QuantitiesFit (tokens (shown text)) := by
  rw [parsePoints_eq_ok_iff, parse_iff_expr]

/-- The grammar derives a card test from a half by itself, but there is no such test. -/
theorem not_parsePoints_half :
    (∃ c, Expr (shown [.half 0]).toList (tokens (shown [.half 0])) c) ∧
      nesting (tokens (shown [.half 0])) ≤ maxNesting ∧ QuantitiesFit (tokens (shown [.half 0])) ∧
      ∀ c, parsePoints [.half 0] ≠ .ok c := by
  obtain ⟨expr, nests, fits⟩ := expr_of_parse (show parse (shown [.half 0]) = .ok _ from rfl)
  refine ⟨⟨_, expr⟩, nests, fits, fun c h => ?_⟩
  exact absurd ((parsePoints_eq_ok_iff.mp h).1 (.half 0) (List.mem_singleton_self _)) (by decide)

/-- Where all points are characters, the words of a fault's reason are quoted as they are. -/
theorem Fault.At.reasonAt_points {s : String} {f : Fault} {position : Nat}
    (h : f.At (tokens s) s.length position) : f.reasonAt (points s) position = f.reason := by
  -- the word that a reason quotes stands at the position
  have quotes {t : Token} (here : t ∈ tokens s) :
      Text.quotedPoints (((points s).drop t.start).take t.chars.length) = Text.quoted t.chars := by
    have stands := ((tokens_eq_iff_lexing s).1 _ |>.mp rfl).stands t here
    obtain ⟨hdrop, -, hlength⟩ := stands.drop_eq
    rw [points, ← List.map_drop, ← List.map_take, Text.quotedPoints_map_char]
    congr 1
    conv_rhs => rw [stands.chars, List.extract_eq_take_drop]
    congr 1
    omega
  cases h with
  | trailing here => exact congrArg (fun w => "Unexpected trailing input " ++ String.ofList w) (quotes here)
  | missingCardBefore here =>
    exact congrArg (fun w => "Expected a card condition before " ++ String.ofList w) (quotes here)
  | malformedQuantity here =>
    exact congrArg
      (fun w => "Malformed quantity " ++ String.ofList w ++ "; expected a space after '+'")
      (quotes here)
  | _ => rfl

/-- Points are read as a condition; or refused with their text, a reason and the place in it that the
reason is about; or refused for a quantity that is too long, exactly if they have one where a card
test may stand and before any half; or a card test is not made, exactly if it is the first with a
half in its words. -/
theorem read_outcome (text : List Point) :
    ((∃ c, (readPoints text).result = .ok c) ∨
      (∃ fault position,
        (readPoints text).result = .error (.condition text (.fault fault position)) ∧
        position ≤ text.length ∧ fault.At (tokens (shown text)) text.length position) ∨
      (∃ count, (readPoints text).result = .error (.condition text (.tooManyDigits count))) ∨
      (readPoints text).result = .error (.problems [tornNameProblem])) ∧
    (∀ count, (readPoints text).result = .error (.condition text (.tooManyDigits count)) ↔
      LongQuantity text count) ∧
    ((readPoints text).result = .error (.problems [tornNameProblem]) ↔ TornName text) := by
  simp only [← parsePoints_eq_tooManyDigits_iff, ← parsePoints_eq_tornName_iff]
  unfold readPoints
  cases hparse : parsePoints text with
  | ok c => exact ⟨.inl ⟨c, rfl⟩, fun _ => iff_of_false nofun nofun, iff_of_false nofun nofun⟩
  | error e =>
    cases e with
    | tornName =>
      exact ⟨.inr (.inr (.inr rfl)), fun _ => iff_of_false nofun nofun, iff_of_true rfl rfl⟩
    | unread e =>
      refine ⟨?_, fun count => ?_, iff_of_false nofun nofun⟩
      · cases e with
        | fault f position =>
          have hat := at_of_parse (parse_of_parsePoints hparse)
          have hle := hat.position_le
          rw [length_shown] at hat hle
          exact .inr (.inl ⟨f, position, rfl, hle, hat⟩)
        | tooManyDigits count => exact .inr (.inr (.inl ⟨count, rfl⟩))
      · constructor <;>
        · intro h
          cases h
          rfl

theorem result_readPoints {text : List Point} {c : Condition} :
    (readPoints text).result = .ok c ↔ parsePoints text = .ok c := by
  unfold readPoints
  cases parsePoints text with
  | error e => exact iff_of_false (nomatch ·) (nomatch ·)
  | ok c' => exact ⟨fun h => by cases h; rfl, fun h => by cases h; rfl⟩

/-- Conditions are read one by one. -/
theorem readAll_eq_ok_iff {texts : List (List Point)} {cs : List Condition} :
    (readAll texts).result = .ok cs ↔
      List.Forall₂ (fun text c => parsePoints text = .ok c) texts cs := by
  induction texts generalizing cs with
  | nil =>
    rw [List.forall₂_nil_left_iff]
    exact ⟨fun h => by cases h; rfl, fun h => by cases h; rfl⟩
  | cons text texts ih =>
    rw [readAll, List.forall₂_cons_left_iff]
    simp only [Recorded.result_bind, bind_eq_ok, result_readPoints, ih]
    constructor
    · rintro ⟨c, hc, cs', hcs, h⟩
      cases h
      exact ⟨c, cs', hc, hcs, rfl⟩
    · rintro ⟨c, cs', hc, hcs, rfl⟩
      exact ⟨c, hc, cs', hcs, rfl⟩

/-! ## A quantity that is too long -/

/-- A name after a quantity that is too long is not read. -/
theorem parsePoints_counted_long {digits : List Char} (numeral : IsNumeral digits)
    (long : Number.maxDigits < digits.length) :
    parsePoints (points (String.ofList (digits ++ [' ', 'A']))) =
      .error (.unread (.tooManyDigits digits.length)) := by
  have htokens := numeral.isCount.tokens 0 ['A']
  have fresh : ∀ t ∈ ([] : List Token).getLast?, t.kind ≠ .word := fun _ h => nomatch h
  have place : ClearPlace (points (String.ofList (digits ++ [' ', 'A']))) []
      ⟨.word, digits, 0, 0 + digits.length⟩ (tokensFrom (0 + digits.length + 1) [] ['A']) [] := by
    refine ⟨⟨?_, awaitsCard_of_readAll .nil fresh rfl rfl, fresh, ?_, ends_nil⟩,
      List.forall_mem_nil _⟩
    · rw [Text.shown_points, tokens, String.toList_ofList, List.append_nil]
      exact htokens
    · exact List.forall_mem_cons.mpr ⟨rfl, List.forall_mem_singleton.mpr rfl⟩
  exact parsePoints_eq_tooManyDigits_iff.mpr
    (.intro place numeral.isCount (fun _ => List.cons_ne_nil _ _) long)

/-- One digit more than a numeral may have. -/
def longDigits : List Char := List.replicate (Number.maxDigits + 1) '1'

/-- A card test with so many digits for its quantity is neither read nor refused with a reason and a
position. -/
theorem longDigits_without_fault :
    (∀ c, (read (String.ofList (longDigits ++ [' ', 'A']))).result ≠ .ok c) ∧
      ∀ text fault position, (read (String.ofList (longDigits ++ [' ', 'A']))).result ≠
        .error (.condition text (.fault fault position)) := by
  have numeral : IsNumeral longDigits := by
    refine ⟨?_, fun c hc => ?_⟩
    · rw [longDigits, List.replicate_succ]
      exact List.cons_ne_nil _ _
    · rw [List.eq_of_mem_replicate hc]
      decide
  have long : Number.maxDigits < longDigits.length := by
    rw [longDigits, List.length_replicate]
    exact Nat.lt_succ_self _
  have h := parsePoints_counted_long numeral long
  generalize String.ofList (longDigits ++ [' ', 'A']) = text at h ⊢
  rw [read, readPoints, h]
  exact ⟨fun _ h => (nomatch h), fun _ _ _ h => nomatch h⟩

end OpeningHand.Condition
