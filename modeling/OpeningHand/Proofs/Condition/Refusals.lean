import OpeningHand.Proofs.Condition.Completeness
import OpeningHand.Proofs.Condition.Printing

/-!
# Where the reading of a condition stops

A text that is no condition is refused with a reason and a position. Each reason is about one place
of the text: the start of the token that could not be taken, of the parenthesis that stays open or
holds nothing, or, where something is missing, the place that it is missed at (`Fault.At`).

A card test is refused for what its own words say only where one may stand (`CardPlace`): after
tokens that, with a word in its place and with further tokens, are a condition. What comes later in
the text plays no part in it.
-/

namespace OpeningHand.Condition

open Grammar

/-! ## Places -/

/-- The place of a fault in a text, given its tokens and its length. -/
inductive Fault.At (ts : List Token) (length : Nat) : Fault → Nat → Prop
  | empty (none : ts = []) : At ts length .empty 0
  | missingCard : At ts length .missingCard length
  | missingName {t digits} (here : t ∈ ts) (numeral : IsNumeral digits)
      (lead : t.chars = digits ++ ['+']) : At ts length .missingName t.stop
  | malformedQuantity {t} (here : t ∈ ts) (least : StartsLeast t.chars)
      (glued : ∀ digits, ¬ IsCount t.chars digits) :
      At ts length (.malformedQuantity t.chars) t.start
  | unexpectedClosing {t} (here : t ∈ ts) (kind : t.kind = .closing) :
      At ts length .unexpectedClosing t.start
  | trailing {t} (here : t ∈ ts) (kind : t.kind = .opening ∨ t.kind = .word) :
      At ts length (.trailing t.chars) t.start
  | mixed {t first second} (here : t ∈ ts) (kind : t.kind = .connective second)
      (differ : first ≠ second) : At ts length (.mixed first second) t.start
  | missingCardBefore {t} (here : t ∈ ts)
      (kind : t.kind = .closing ∨ ∃ k, t.kind = .connective k) :
      At ts length (.missingCardBefore t.chars) t.start
  | tooDeep {t} (here : t ∈ ts) (kind : t.kind = .opening) : At ts length .tooDeep t.start
  | emptyGroup {t} (here : t ∈ ts) (kind : t.kind = .opening) : At ts length .emptyGroup t.start
  | unclosed {t} (here : t ∈ ts) (kind : t.kind = .opening) : At ts length .unclosed t.start

/-- The place of a fault lies in the text. -/
theorem Fault.At.position_le {s : String} {f : Fault} {position : Nat}
    (h : f.At (tokens s) s.length position) : position ≤ s.length := by
  have bounds : ∀ t ∈ tokens s, t.start < t.stop ∧ t.stop ≤ s.length := by
    intro t ht
    have := (laid_tokensFrom 0 s.toList).bounds t ht
    rwa [Nat.zero_add, String.length_toList] at this
  cases h with
  | empty => exact Nat.zero_le _
  | missingCard => exact Nat.le_refl _
  | missingName here => exact (bounds _ here).2
  | malformedQuantity here | unexpectedClosing here | trailing here | mixed here
  | missingCardBefore here | tooDeep here | emptyGroup here | unclosed here =>
    exact (Nat.le_of_lt (bounds _ here).1).trans (bounds _ here).2

/-! ## Items and their tokens -/

/-- An item made of some of the tokens `ts`. -/
inductive Item.Of (ts : List Token) : Item → Prop
  | opening {t} (here : t ∈ ts) (kind : t.kind = .opening) : Of ts (.opening t.start)
  | closing {t} (here : t ∈ ts) (kind : t.kind = .closing) : Of ts (.closing t.start)
  | connective {t k} (here : t ∈ ts) (kind : t.kind = .connective k) :
      Of ts (.connective k t.start)
  | phrase {first more} (here : first ∈ ts) (kind : first.kind = .word) :
      Of ts (.phrase first more)

/-- An item of some tokens is one of more tokens. -/
theorem Item.Of.mono {ts more : List Token} {item : Item} (h : item.Of ts)
    (sub : ∀ t ∈ ts, t ∈ more) : item.Of more := by
  cases h with
  | opening here kind => exact .opening (sub _ here) kind
  | closing here kind => exact .closing (sub _ here) kind
  | connective here kind => exact .connective (sub _ here) kind
  | phrase here kind => exact .phrase (sub _ here) kind

/-- The items that tokens are cut into are items of these tokens. -/
theorem Cut.forall_of {ts : List Token} {items : List Item} (h : Cut ts items) :
    ∀ item ∈ items, item.Of ts := by
  induction h with
  | nil => exact List.forall_mem_nil _
  | opening kind _ ih =>
    exact List.forall_mem_cons.mpr ⟨.opening List.mem_cons_self kind,
      fun item hi => (ih item hi).mono fun _ => List.mem_cons_of_mem _⟩
  | closing kind _ ih =>
    exact List.forall_mem_cons.mpr ⟨.closing List.mem_cons_self kind,
      fun item hi => (ih item hi).mono fun _ => List.mem_cons_of_mem _⟩
  | connective kind _ ih =>
    exact List.forall_mem_cons.mpr ⟨.connective List.mem_cons_self kind,
      fun item hi => (ih item hi).mono fun _ => List.mem_cons_of_mem _⟩
  | phrase kind _ _ ih =>
    exact List.forall_mem_cons.mpr ⟨.phrase List.mem_cons_self (kind _ List.mem_cons_self),
      fun item hi => (ih item hi).mono fun _ ht =>
        List.mem_cons_of_mem _ (List.mem_append_right _ ht)⟩

/-- No run of words goes on from some tokens to others. -/
def Apart (a b : List Token) : Prop :=
  ∀ t ∈ a.getLast?, t.kind = .word → Ends b

/-- Tokens are apart from others if the first ones do not end in a word. -/
theorem apart_of_fresh {a b : List Token} (h : ∀ t ∈ a.getLast?, t.kind ≠ .word) : Apart a b :=
  fun t ht kind => absurd kind (h t ht)

/-- Or if the others do not start with one. -/
theorem apart_of_ends {a b : List Token} (h : Ends b) : Apart a b :=
  fun _ _ _ => h

/-- What is cut off in front does not matter. -/
theorem Apart.of_append {a b c : List Token} (h : Apart (a ++ b) c) : Apart b c := by
  intro t ht kind
  refine h t ?_ kind
  rw [List.getLast?_append, Option.mem_def.mp ht]
  rfl

theorem Apart.of_cons {t : Token} {b c : List Token} (h : Apart (t :: b) c) : Apart b c :=
  Apart.of_append (a := [t]) h

/-- What comes before the last tokens makes no difference to what follows them. -/
theorem Apart.append {b c : List Token} (h : Apart b c) (ne : b ≠ []) (a : List Token) :
    Apart (a ++ b) c := by
  intro t ht
  rw [List.getLast?_append, List.getLast?_eq_some_getLast ne] at ht
  exact h t (List.getLast?_eq_some_getLast ne ▸ ht)

/-- Items of tokens may be put one after the other where no run of words goes on. -/
theorem Cut.append {a b : List Token} {ia ib : List Item} (ha : Cut a ia) (hb : Cut b ib)
    (apart : Apart a b) : Cut (a ++ b) (ia ++ ib) := by
  induction ha with
  | nil => exact hb
  | opening kind _ ih => exact .opening kind (ih apart.of_cons)
  | closing kind _ ih => exact .closing kind (ih apart.of_cons)
  | connective kind _ ih => exact .connective kind (ih apart.of_cons)
  | @phrase first words ts items kind ends more ih =>
    have hrest := ih (apart.of_append (a := first :: words))
    have hends : Ends (ts ++ b) := by
      cases ts with
      | nil =>
        rw [List.append_nil] at apart
        exact apart _ (List.getLast?_eq_some_getLast (List.cons_ne_nil first words))
          (kind _ (List.getLast_mem _))
      | cons t ts => exact ends
    rw [List.cons_append, List.append_assoc]
    exact .phrase kind hends hrest

/-- Items may be cut anywhere, and their tokens with them: no run of words is cut. -/
theorem Cut.split {ts : List Token} {before after : List Item} (h : Cut ts (before ++ after)) :
    ∃ front back, ts = front ++ back ∧ Cut front before ∧ Cut back after ∧ Apart front back := by
  induction before generalizing ts with
  | nil => exact ⟨[], ts, rfl, .nil, h, fun _ ht => nomatch ht⟩
  | cons item before ih =>
    -- a token that is no word, in front of the others, is not the last unless it is the only one
    have front {t : Token} {a b : List Token} (kind : t.kind ≠ .word) (apart : Apart a b) :
        Apart (t :: a) b := by
      cases a with
      | nil => exact apart_of_fresh fun u hu => Option.some.inj hu ▸ kind
      | cons x a => exact apart.append (List.cons_ne_nil x a) [t]
    cases h with
    | opening kind h =>
      obtain ⟨a, b, rfl, ha, hb, apart⟩ := ih h
      exact ⟨_ :: a, b, rfl, .opening kind ha, hb, front (by simp [kind]) apart⟩
    | closing kind h =>
      obtain ⟨a, b, rfl, ha, hb, apart⟩ := ih h
      exact ⟨_ :: a, b, rfl, .closing kind ha, hb, front (by simp [kind]) apart⟩
    | connective kind h =>
      obtain ⟨a, b, rfl, ha, hb, apart⟩ := ih h
      exact ⟨_ :: a, b, rfl, .connective kind ha, hb, front (by simp [kind]) apart⟩
    | @phrase first words _ _ kind ends h =>
      obtain ⟨a, b, rfl, ha, hb, apart⟩ := ih h
      cases a with
      | nil =>
        refine ⟨first :: words, b, rfl, ?_, hb, apart_of_ends ends⟩
        have alone : Cut (first :: (words ++ [])) (.phrase first words :: before) :=
          .phrase kind ends_nil ha
        rwa [List.append_nil] at alone
      | cons x a =>
        exact ⟨first :: (words ++ x :: a), b, by simp, .phrase kind ends ha, hb,
          apart.append (List.cons_ne_nil x a) (first :: words)⟩

/-- The tokens around a phrase: it is all the words there are at its place. -/
theorem Cut.exists_phrase {ts : List Token} {before after : List Item} {first : Token}
    {more : List Token} (h : Cut ts (before ++ .phrase first more :: after)) :
    ∃ front back, ts = front ++ first :: (more ++ back) ∧ Cut front before ∧
      (∀ t ∈ front.getLast?, t.kind ≠ .word) ∧ (∀ t ∈ first :: more, t.kind = .word) ∧
      Ends back := by
  obtain ⟨front, _, rfl, hbefore, hafter, apart⟩ := h.split
  cases hafter with
  | phrase kind ends _ =>
    refine ⟨front, _, rfl, hbefore, fun t ht hword => ?_, kind, ends⟩
    exact apart t ht hword first rfl (kind first List.mem_cons_self)

/-! ## Phrases -/

variable {text : List Char}

/-- What a phrase is refused for: its first word is no quantity but starts like one, or no name
follows a quantity, or the quantity is too long. -/
inductive PhraseError (first : Token) (more : List Token) : ReadError → Prop
  | malformedQuantity (least : StartsLeast first.chars)
      (glued : ∀ digits, ¬ IsCount first.chars digits) :
      PhraseError first more (.fault (.malformedQuantity first.chars) first.start)
  | missingName {digits} (numeral : IsNumeral digits) (lead : first.chars = digits ++ ['+'])
      (alone : more = []) : PhraseError first more (.fault .missingName first.stop)
  | tooLong {digits} (count : IsCount first.chars digits) (quantity : first.chars = digits → more ≠ [])
      (long : Number.maxDigits < digits.length) :
      PhraseError first more (.tooManyDigits digits.length)

/-- Digits are refused for their number only. -/
theorem readQuantity_eq_error_iff {digits : List Char} {e : ReadError} :
    readQuantity digits = .error e ↔
      Number.maxDigits < digits.length ∧ e = .tooManyDigits digits.length := by
  unfold readQuantity
  split
  next h =>
    rw [Except.error.injEq, eq_comm]
    exact (and_iff_right h).symm
  next h => exact iff_of_false (nomatch ·) fun he => h he.1

/-- A phrase is refused for one of three reasons. -/
theorem phraseError_of_readPhrase {first : Token} {more : List Token} {e : ReadError}
    (h : readPhrase text first more = .error e) : PhraseError first more e := by
  unfold readPhrase at h
  rcases ofWord_cases first.chars with ⟨hnum, hlead⟩ | ⟨digits, hnum, hchars, hlead⟩ |
    ⟨hleast, hcount, hlead⟩ | ⟨-, -, hlead⟩
  · rw [hlead] at h
    cases more with
    | nil => cases h
    | cons second more =>
      rcases bind_eq_error.mp h with h | ⟨_, _, h⟩
      · obtain ⟨long, rfl⟩ := readQuantity_eq_error_iff.mp h
        exact .tooLong hnum.isCount (fun _ => List.cons_ne_nil _ _) long
      · cases h
  · rw [hlead] at h
    have count : IsCount first.chars digits := hchars ▸ hnum.isCount_plus
    have plus : first.chars ≠ digits := by
      rw [hchars]
      exact fun heq => List.cons_ne_nil _ _ (List.append_right_eq_self.mp heq)
    cases more with
    | nil =>
      rcases bind_eq_error.mp h with h | ⟨_, _, h⟩
      · obtain ⟨long, rfl⟩ := readQuantity_eq_error_iff.mp h
        exact .tooLong count (fun heq => absurd heq plus) long
      · cases h
        exact .missingName hnum hchars rfl
    | cons second more =>
      rcases bind_eq_error.mp h with h | ⟨_, _, h⟩
      · obtain ⟨long, rfl⟩ := readQuantity_eq_error_iff.mp h
        exact .tooLong count (fun heq => absurd heq plus) long
      · cases h
  · rw [hlead] at h
    cases h
    exact .malformedQuantity hleast hcount
  · rw [hlead] at h
    cases h

/-- A quantity that is too long refuses its phrase. -/
theorem readPhrase_tooManyDigits {first : Token} {more : List Token} {digits : List Char}
    (count : IsCount first.chars digits) (quantity : first.chars = digits → more ≠ [])
    (long : Number.maxDigits < digits.length) :
    readPhrase text first more = .error (.tooManyDigits digits.length) := by
  have herror : readQuantity digits = .error (.tooManyDigits digits.length) :=
    readQuantity_eq_error_iff.mpr ⟨long, rfl⟩
  unfold readPhrase
  rcases ofWord_cases first.chars with ⟨hnum, hlead⟩ | ⟨digits', hnum, hchars, hlead⟩ |
    ⟨-, hcount, -⟩ | ⟨-, hcount, -⟩
  · rw [hlead]
    have hdigits := hnum.isCount.eq count
    cases more with
    | nil => exact absurd rfl (quantity hdigits)
    | cons second more =>
      rw [hdigits]
      exact bind_eq_error.mpr (.inl herror)
  · rw [hlead]
    have hdigits : digits' = digits := (hchars ▸ hnum.isCount_plus : IsCount _ digits').eq count
    subst hdigits
    cases more <;> exact bind_eq_error.mpr (.inl herror)
  · exact absurd count (hcount digits)
  · exact absurd count (hcount digits)

/-! ## The machine -/

/-- Items are read one after the other. -/
theorem Reader.readAll_append (r : Reader) (a b : List Item) :
    r.readAll text (a ++ b) = r.readAll text a >>= fun s => s.readAll text b := by
  induction a generalizing r with
  | nil => rfl
  | cons item a ih =>
    rw [List.cons_append, readAll, readAll]
    cases r.read text item with
    | error e => rfl
    | ok s => exact ih s

/-- Reading stops at the first item that cannot be read. -/
theorem Reader.readAll_eq_error_iff {r : Reader} {items : List Item} {e : ReadError} :
    r.readAll text items = .error e ↔ ∃ before item after s, items = before ++ item :: after ∧
      r.readAll text before = .ok s ∧ s.read text item = .error e := by
  constructor
  · intro h
    induction items generalizing r with
    | nil => cases h
    | cons item items ih =>
      rcases bind_eq_error.mp h with h | ⟨s, hs, h⟩
      · exact ⟨[], item, items, r, rfl, rfl, h⟩
      · obtain ⟨before, item', after, s', rfl, hbefore, hread⟩ := ih h
        exact ⟨item :: before, item', after, s', rfl, bind_eq_ok.mpr ⟨s, hs, hbefore⟩, hread⟩
  · rintro ⟨before, item, after, s, rfl, hbefore, hread⟩
    rw [readAll_append, hbefore]
    exact bind_eq_error.mpr (.inr ⟨s, rfl, bind_eq_error.mpr (.inl hread)⟩)

/-- All levels of a reader were opened at opening parentheses among some tokens. -/
def Reader.OpenedIn (ts : List Token) (r : Reader) : Prop :=
  ∀ level ∈ r.level :: r.outer, ∀ position ∈ level.opener,
    ∃ t ∈ ts, t.kind = .opening ∧ t.start = position

/-- At the start no group is open. -/
theorem Reader.openedIn_start (ts : List Token) : Reader.start.OpenedIn ts := by
  intro level hlevel position hposition
  rw [List.mem_singleton.mp hlevel] at hposition
  cases hposition

/-- Groups are opened by items of the tokens. -/
theorem Reader.Step.openedIn {ts : List Token} {r s : Reader} {item : Item}
    (h : Step text r item s) (opened : r.OpenedIn ts) (of : item.Of ts) : s.OpenedIn ts := by
  cases h with
  | phrase => exact List.forall_mem_cons.mpr (List.forall_mem_cons.mp opened)
  | opening =>
    refine List.forall_mem_cons.mpr ⟨fun position hposition => ?_, opened⟩
    cases of with
    | opening here kind => exact ⟨_, here, kind, Option.some.inj hposition⟩
  | link => exact List.forall_mem_cons.mpr (List.forall_mem_cons.mp opened)
  | relink => exact opened
  | closing =>
    exact List.forall_mem_cons.mpr (List.forall_mem_cons.mp (List.forall_mem_cons.mp opened).2)

/-- So each open group has its parenthesis among the tokens: the induction is on the items. -/
theorem Reader.openedIn_readAll {ts : List Token} {items : List Item} :
    ∀ {r s : Reader}, r.OpenedIn ts → (∀ item ∈ items, item.Of ts) →
      r.readAll text items = .ok s → s.OpenedIn ts := by
  induction items with
  | nil =>
    intro r s opened _ h
    cases h
    exact opened
  | cons item items ih =>
    intro r s opened of h
    obtain ⟨hitem, hitems⟩ := List.forall_mem_cons.mp of
    obtain ⟨s', step, h⟩ := readAll_cons_eq_ok_iff.mp h
    exact ih (step.openedIn opened hitem) hitems h

section Places

variable {s : String} {r : Reader} {item : Item} {f : Fault} {position : Nat}

/-- A parenthesis or connective is written as its kind tells. -/
theorem chars_of_token {t : Token} {w : List Char} (here : t ∈ tokens s)
    (hw : t.kind.chars? = some w) : t.chars = w :=
  (laid_tokensFrom 0 s.toList).chars_eq t here w hw

/-- Where a term is expected, the fault is at the item, or inside its phrase. -/
theorem Reader.at_of_readTerm (opened : r.OpenedIn (tokens s)) (of : item.Of (tokens s))
    (h : r.readTerm text item = .error (.fault f position)) :
    f.At (tokens s) s.length position := by
  cases of with
  | opening here kind =>
    simp only [readTerm] at h
    split at h
    · cases h
      exact .tooDeep here kind
    · cases h
  | closing here kind =>
    simp only [readTerm] at h
    split at h
    next opener hopener _ =>
      obtain ⟨t, ht, hkind, rfl⟩ := opened r.level List.mem_cons_self opener hopener
      cases h
      exact .emptyGroup ht hkind
    next =>
      cases h
      exact chars_of_token here (by rw [kind]; rfl) ▸ .missingCardBefore here (.inl kind)
  | @connective t k here kind =>
    cases h
    exact chars_of_token here (by rw [kind]; rfl) ▸ .missingCardBefore here (.inr ⟨k, kind⟩)
  | phrase here kind =>
    rcases bind_eq_error.mp h with h | ⟨_, _, h⟩
    · cases phraseError_of_readPhrase h with
      | malformedQuantity least glued => exact .malformedQuantity here least glued
      | missingName numeral lead => exact .missingName here numeral lead
    · cases h

/-- What can only start a term is refused for the parenthesis that is left open, if there is one. -/
theorem Reader.at_of_no_link (opened : r.OpenedIn (tokens s))
    (trailing : (Fault.trailing item.word).At (tokens s) s.length item.start)
    (h : (match r.level.opener with
      | some opener => .error (.fault .unclosed opener)
      | none => .error (.fault (.trailing item.word) item.start) : Except ReadError Reader) =
        .error (.fault f position)) :
    f.At (tokens s) s.length position := by
  split at h
  next opener hopener =>
    obtain ⟨t, ht, hkind, rfl⟩ := opened r.level List.mem_cons_self opener hopener
    cases h
    exact .unclosed ht hkind
  next =>
    cases h
    exact trailing

/-- Where a connective is expected, the fault is at the item or at the open parenthesis. -/
theorem Reader.at_of_readLink (opened : r.OpenedIn (tokens s)) (of : item.Of (tokens s))
    (h : r.readLink item = .error (.fault f position)) : f.At (tokens s) s.length position := by
  cases of with
  | @opening t here kind =>
    have hword : t.chars = ['('] := chars_of_token here (by rw [kind]; rfl)
    refine at_of_no_link opened ?_ h
    rw [Item.word, Item.start, ← hword]
    exact .trailing here (.inl kind)
  | phrase here kind => exact at_of_no_link opened (.trailing here (.inr kind)) h
  | closing here kind =>
    simp only [readLink] at h
    split at h
    · cases h
    · cases h
      exact .unexpectedClosing here kind
  | connective here kind =>
    simp only [readLink] at h
    split at h
    · cases h
    · split at h
      · cases h
      next differ =>
        cases h
        exact .mixed here kind differ

/-- What an item is refused for, but for a quantity that is too long, is a fault at its place. -/
theorem Reader.at_of_read (opened : r.OpenedIn (tokens s)) (of : item.Of (tokens s))
    (h : r.read text item = .error (.fault f position)) :
    f.At (tokens s) s.length position := by
  unfold read at h
  split at h
  · exact at_of_readTerm opened of h
  · exact at_of_readLink opened of h

end Places

/-- Reading that ends too early is refused where a card is missing, or for the parenthesis that is
left open. -/
theorem Reader.at_of_finish {s : String} {r : Reader} {e : ReadError}
    (opened : r.OpenedIn (tokens s)) (h : r.finish s.toList = .error e) :
    ∃ f position, e = .fault f position ∧ f.At (tokens s) s.length position := by
  have missing : Fault.At (tokens s) s.length .missingCard s.toList.length := by
    rw [String.length_toList]
    exact .missingCard
  unfold finish at h
  split at h
  · cases h
    exact ⟨_, _, rfl, missing⟩
  · split at h
    next opener hopener =>
      obtain ⟨t, ht, hkind, rfl⟩ := opened r.level List.mem_cons_self opener hopener
      cases h
      exact ⟨_, _, rfl, .unclosed ht hkind⟩
    · cases h
    · cases h
      exact ⟨_, _, rfl, missing⟩

/-- Why a text is refused: it has no tokens, or an item of it cannot be read, or it ends too
early. -/
theorem error_of_parse {s : String} {e : ReadError} (h : parse s = .error e) :
    (tokens s = [] ∧ e = .fault .empty 0) ∨
      Reader.start.readAll s.toList (Item.ofTokens (tokens s)) = .error e ∨
      ∃ r, Reader.start.readAll s.toList (Item.ofTokens (tokens s)) = .ok r ∧
        r.finish s.toList = .error e := by
  by_cases hnil : tokens s = []
  · rw [parse_of_no_tokens hnil] at h
    cases h
    exact .inl ⟨hnil, rfl⟩
  · rw [parse_of_tokens hnil] at h
    exact .inr (bind_eq_error.mp h)

/-- A fault is at its place. -/
theorem at_of_parse {s : String} {f : Fault} {position : Nat}
    (h : parse s = .error (.fault f position)) : f.At (tokens s) s.length position := by
  have of := (cut_ofTokens (tokens s)).forall_of
  rcases error_of_parse h with ⟨hnil, h⟩ | h | ⟨r, hr, h⟩
  · cases h
    exact .empty hnil
  · obtain ⟨before, item, after, r, hitems, hr, hread⟩ := Reader.readAll_eq_error_iff.mp h
    rw [hitems] at of
    obtain ⟨hbefore, hof⟩ := List.forall_mem_append.mp of
    exact Reader.at_of_read (Reader.openedIn_readAll (Reader.openedIn_start _) hbefore hr)
      (hof item List.mem_cons_self) hread
  · obtain ⟨f, position, he, hat⟩ :=
      Reader.at_of_finish (Reader.openedIn_readAll (Reader.openedIn_start _) of hr) h
    cases he
    exact hat

/-! ## Where a card test may stand -/

/-- A card test may stand after some tokens: with a word in its place and with further tokens they
are a condition within the bounds. -/
def AwaitsCard (text : List Char) (before : List Token) : Prop :=
  ∃ w rest c, w.kind = .word ∧ Expr text (before ++ w :: rest) c ∧
    nesting (before ++ w :: rest) ≤ maxNesting ∧ QuantitiesFit (before ++ w :: rest)

/-- Words where a card test may stand: after tokens that one may follow, and all the words there are at
their place. -/
structure CardPlace (text : List Char) (ts before : List Token) (first : Token)
    (more after : List Token) : Prop where
  split : ts = before ++ first :: (more ++ after)
  awaits : AwaitsCard text before
  fresh : ∀ t ∈ before.getLast?, t.kind ≠ .word
  words : ∀ t ∈ first :: more, t.kind = .word
  ends : Ends after

/-- A closing parenthesis, wherever it stands. -/
def closer : Token := ⟨.closing, [')'], 0, 1⟩

/-- A word that is a name, wherever it stands. -/
def plainWord : Token := ⟨.word, ['A'], 0, 1⟩

/-- A level with a member can be closed. -/
theorem Level.exists_close_add (level : Level) (c : Condition) :
    ∃ c', (level.add c).close = some c' := by
  obtain ⟨opener, connective, members⟩ := level
  cases connective <;> exact ⟨_, rfl⟩

/-- Closing parentheses are items each by itself. -/
theorem cut_closers (n : Nat) :
    Cut (List.replicate n closer) (List.replicate n (.closing closer.start)) := by
  induction n with
  | zero => exact .nil
  | succ n ih => exact .closing rfl ih

/-- As many closing parentheses as levels are open end the reading at the outermost. -/
theorem Reader.readAll_closers (outer : List Level) {level : Level} {c : Condition}
    (close : level.close = some c) : ∃ level' c', level'.close = some c' ∧
      readAll text ⟨level, outer, false⟩ (List.replicate outer.length (.closing closer.start)) =
        .ok ⟨level', [], false⟩ := by
  induction outer generalizing level c with
  | nil => exact ⟨level, c, close, rfl⟩
  | cons around outer ih =>
    obtain ⟨_, hadd⟩ := around.exists_close_add c
    obtain ⟨level', c', close', run⟩ := ih hadd
    refine ⟨level', c', close', ?_⟩
    rw [List.length_cons, List.replicate_succ, (Step.closing close).readAll]
    exact run

/-- A reader that has read a term, and what came before it, is brought to an end by closing
parentheses, one for each that is open. -/
theorem expr_of_closers {before : List Token} {items : List Item} {r : Reader} {c : Condition}
    (cut : Cut before items) (run : Reader.start.readAll text items = .ok r)
    (rests : r.wantsTerm = false) (close : r.level.close = some c) :
    ∃ c', Expr text (before ++ List.replicate r.outer.length closer) c' ∧
      nesting (before ++ List.replicate r.outer.length closer) ≤ maxNesting ∧
      QuantitiesFit (before ++ List.replicate r.outer.length closer) := by
  obtain ⟨level, outer, _⟩ := r
  subst rests
  obtain ⟨level', c', close', runClosers⟩ := Reader.readAll_closers outer close
  have ends : Ends (List.replicate outer.length closer) := by
    cases outer with
    | nil => exact ends_nil
    | cons => exact ends_cons (by decide)
  have cutAll := cut.append (cut_closers outer.length) (apart_of_ends ends)
  have runAll : Reader.start.readAll text
      (items ++ List.replicate outer.length (.closing closer.start)) = .ok ⟨level', [], false⟩ := by
    rw [Reader.readAll_append, run]
    exact runClosers
  have stack := (stack_start text).readAll cutAll runAll
  have top : level'.opener = none := by
    generalize [] ++ (before ++ List.replicate outer.length closer) = ts at stack
    cases stack with
    | outermost top => exact top
  have done : Reader.finish text ⟨level', [], false⟩ = .ok c' := by
    simp only [Reader.finish, Bool.false_eq_true, if_false, top, close']
  have room : Reader.start.outer.length ≤ maxNesting := Nat.zero_le _
  exact ⟨c', stack.finish done, Reader.deepest_le cutAll room runAll,
    Reader.quantitiesFit cutAll runAll⟩

/-- A reader that wants a term has read tokens after which a card test may stand: a word and closing
parentheses make a condition of them. -/
theorem awaitsCard_of_readAll {before : List Token} {items : List Item} {r : Reader}
    (cut : Cut before items) (fresh : ∀ t ∈ before.getLast?, t.kind ≠ .word)
    (run : Reader.start.readAll text items = .ok r) (wants : r.wantsTerm = true) :
    AwaitsCard text before := by
  obtain ⟨level, outer, _⟩ := r
  subst wants
  have phrase : readPhrase text plainWord [] = .ok ⟨slice text plainWord [], 1, .exactly⟩ := rfl
  obtain ⟨_, close⟩ := level.exists_close_add (.card ⟨slice text plainWord [], 1, .exactly⟩)
  have cutWord : Cut [plainWord] [.phrase plainWord []] :=
    @Cut.phrase plainWord [] [] [] (List.forall_mem_singleton.mpr rfl) ends_nil .nil
  have runWord : Reader.start.readAll text (items ++ [.phrase plainWord []]) =
      .ok ⟨level.add (.card ⟨slice text plainWord [], 1, .exactly⟩), outer, false⟩ := by
    rw [Reader.readAll_append, run]
    exact (Reader.Step.phrase phrase).readAll []
  obtain ⟨c, hexpr⟩ := expr_of_closers (cut.append cutWord (apart_of_fresh fresh)) runWord rfl close
  rw [List.append_assoc, List.singleton_append] at hexpr
  exact ⟨plainWord, _, c, rfl, hexpr⟩

/-- The tokens of an expression may be read in two parts, if no run of words goes on from one to the
other. -/
theorem Grammar.Expr.readAll_front {before after : List Token} {c : Condition}
    (h : Expr text (before ++ after) c) (room : nesting (before ++ after) ≤ maxNesting)
    (fit : QuantitiesFit (before ++ after)) (apart : Apart before after) :
    ∃ r s, Reader.start.readAll text (Item.ofTokens before) = .ok r ∧
      r.readAll text (Item.ofTokens after) = .ok s := by
  have fits : Fits [] (before ++ after) := ⟨room, fit⟩
  obtain ⟨level, -, -, run⟩ := h.readAll none fits ends_nil
  have hitems := ((cut_ofTokens before).append (cut_ofTokens after) apart).items
  rw [List.append_nil, hitems, Reader.readAll_append] at run
  obtain ⟨r, hr, run⟩ := bind_eq_ok.mp run
  exact ⟨r, _, hr, run⟩

/-- Where a card test may stand, the tokens before are read, and a term is wanted next. -/
theorem AwaitsCard.readAll {before : List Token} (h : AwaitsCard text before)
    (fresh : ∀ t ∈ before.getLast?, t.kind ≠ .word) :
    ∃ r, Reader.start.readAll text (Item.ofTokens before) = .ok r ∧ r.wantsTerm = true := by
  obtain ⟨w, rest, c, kind, expr, room, fit⟩ := h
  obtain ⟨r, s, hr, run⟩ := expr.readAll_front room fit (apart_of_fresh fresh)
  refine ⟨r, hr, ?_⟩
  have cut := cut_ofTokens (w :: rest)
  generalize Item.ofTokens (w :: rest) = items at run cut
  cases cut with
  | opening kind' | closing kind' | connective kind' => cases kind.symm.trans kind'
  | phrase =>
    obtain ⟨_, step, -⟩ := Reader.readAll_cons_eq_ok_iff.mp run
    cases step with
    | phrase => rfl

/-- Where a reader wants a term and a phrase comes next, a card test may stand. -/
theorem Reader.exists_cardPlace {ts more : List Token} {before after : List Item} {first : Token}
    {r : Reader} (hitems : Item.ofTokens ts = before ++ .phrase first more :: after)
    (run : Reader.start.readAll text before = .ok r) (wants : r.wantsTerm = true) :
    ∃ front back, CardPlace text ts front first more back ∧ Item.ofTokens front = before := by
  have cut := cut_ofTokens ts
  rw [hitems] at cut
  obtain ⟨front, back, split, hfront, fresh, words, ends⟩ := cut.exists_phrase
  exact ⟨front, back, ⟨split, awaitsCard_of_readAll hfront fresh run wants, fresh, words, ends⟩,
    hfront.items⟩

/-- The items around the words of a card test. -/
theorem CardPlace.items {ts before more after : List Token} {first : Token}
    (h : CardPlace text ts before first more after) :
    Item.ofTokens ts = Item.ofTokens before ++ .phrase first more :: Item.ofTokens after := by
  rw [h.split]
  exact ((cut_ofTokens before).append (.phrase h.words h.ends (cut_ofTokens after))
    (apart_of_fresh h.fresh)).items

/-- A term is refused for a quantity that is too long only if it is a phrase. -/
theorem Reader.exists_phrase_of_tooManyDigits {r : Reader} {item : Item} {count : Nat}
    (h : r.read text item = .error (.tooManyDigits count)) :
    r.wantsTerm = true ∧ ∃ first more, item = .phrase first more ∧
      readPhrase text first more = .error (.tooManyDigits count) := by
  obtain ⟨level, outer, wantsTerm⟩ := r
  cases wantsTerm with
  | false =>
    simp only [read, Bool.false_eq_true, if_false] at h
    unfold readLink at h
    (repeat' split at h) <;> cases h
  | true =>
    simp only [read, if_true] at h
    unfold readTerm at h
    split at h
    next first more =>
      rcases bind_eq_error.mp h with h | ⟨_, _, h⟩
      · exact ⟨rfl, first, more, rfl, h⟩
      · cases h
    next => split at h <;> cases h
    next => split at h <;> cases h
    next => cases h

end OpeningHand.Condition
