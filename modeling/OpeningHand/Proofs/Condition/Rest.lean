import OpeningHand.Proofs.Condition.Parentheses
import OpeningHand.Proofs.Condition.Points

/-!
# What is left to read

The reader of points by the tokens that are left: the next token says what comes of it, in one law
for each thing that may happen there. Either the reader takes the token and goes on with those after
it, or the reading ends with a fault at its place. Words are read as one phrase, and the card test
they write is made only if its name is of characters.
-/

namespace OpeningHand.Condition

open Grammar
open Text (Point shown)

variable {text : List Point} {t : Token} {ts : List Token} {level inner : Level}
  {outer : List Level} {c : Condition}

/-- What comes of a reader that reads the tokens that are left. -/
def complete (text : List Point) (r : Reader) (ts : List Token) : Except Refusal Condition :=
  r.readPoints text (Item.ofTokens ts) >>= fun r =>
    (r.finish (shown text).toList).mapError .unread

theorem complete_nil (text : List Point) (r : Reader) :
    complete text r [] = (r.finish (shown text).toList).mapError .unread := rfl

/-- An item that is taken and names no card leaves the tokens after it. -/
theorem complete_step {r s : Reader} {item : Item}
    (step : Reader.Step (shown text).toList r item s) (nameless : item.name text = [])
    (first : Item.ofTokens (t :: ts) = item :: Item.ofTokens ts) :
    complete text r (t :: ts) = complete text s ts := by
  have clear : (item.name text).all Point.isChar = true := by rw [nameless]; rfl
  rw [complete, first, Reader.readPoints, Reader.readPoint_eq_ok_iff.mpr ⟨step.read, clear⟩]
  rfl

/-- An item that the reader does not take ends the reading. -/
theorem complete_error {r : Reader} {item : Item} {items : List Item} {e : ReadError}
    (h : r.read (shown text).toList item = .error e)
    (first : Item.ofTokens (t :: ts) = item :: items) :
    complete text r (t :: ts) = .error (.unread e) := by
  rw [complete, first, Reader.readPoints, Reader.readPoint_eq_error_iff.mpr (.inl ⟨e, h, rfl⟩)]
  rfl

/-- A token that a term begins with, as an item. -/
theorem exists_item (connective : ∀ k, t.kind ≠ .connective k) (closing : t.kind ≠ .closing)
    (ts : List Token) : ∃ item items, Item.ofTokens (t :: ts) = item :: items ∧ item.StartsTerm ∧
      item.start = t.start ∧ ((∀ w ∈ t.kind.chars?, t.chars = w) → item.word = t.chars) := by
  have cut := cut_ofTokens (t :: ts)
  generalize Item.ofTokens (t :: ts) = items at cut
  cases cut with
  | opening kind =>
    refine ⟨_, _, rfl, trivial, rfl, fun spelled => (spelled _ ?_).symm⟩
    rw [kind]
    rfl
  | closing kind => exact absurd kind closing
  | connective kind => exact absurd kind (connective _)
  | phrase => exact ⟨_, _, rfl, trivial, rfl, fun _ => rfl⟩

/-! ## Where a term must come -/

/-- The card test that a phrase writes, if its name is of characters. -/
def makePhrase (text : List Point) (first : Token) (more : List Token) : Except Refusal CardTest := do
  let test ← (readPhrase (shown text).toList first more).mapError .unread
  if (cutOut text (nameWords first more)).all Point.isChar then return test else throw .tornName

/-- The words of a test are read as one phrase. -/
theorem complete_phrase {first : Token} {more rest : List Token}
    (words : ∀ u ∈ first :: more, u.kind = .word) (ends : Ends rest) :
    complete text ⟨level, outer, true⟩ (first :: more ++ rest) =
      makePhrase text first more >>= fun test =>
        complete text ⟨level.add (.card test), outer, false⟩ rest := by
  rw [complete, List.cons_append, ofTokens_phrase words ends, Reader.readPoints, Reader.readPoint,
    makePhrase, Reader.read_phrase rfl, Item.name]
  cases readPhrase (shown text).toList first more with
  | error e => rfl
  | ok test =>
    show (ite _ (Except.ok _) (Except.error _) >>= _) >>= _ =
      ite _ (Except.ok test) (Except.error _) >>= _
    split <;> rfl

theorem complete_opening (opening : t.kind = .opening) (room : outer.length < maxNesting)
    (ts : List Token) : complete text ⟨level, outer, true⟩ (t :: ts) =
      complete text ⟨.new (some t.start), level :: outer, true⟩ ts :=
  complete_step (.opening room) rfl (ofTokens_opening opening ts)

theorem complete_too_deep (opening : t.kind = .opening) (full : maxNesting ≤ outer.length)
    (ts : List Token) : complete text ⟨level, outer, true⟩ (t :: ts) =
      .error (.unread (.fault .tooDeep t.start)) :=
  complete_error (by simp only [Reader.read, if_true, Reader.readTerm, if_pos full])
    (ofTokens_opening opening ts)

theorem complete_empty {opener : Nat} (closing : t.kind = .closing) (ts : List Token) :
    complete text ⟨.new (some opener), outer, true⟩ (t :: ts) =
      .error (.unread (.fault .emptyGroup opener)) :=
  complete_error rfl (ofTokens_closing closing ts)

/-- No term begins with a connective or a closing parenthesis. -/
theorem complete_misplaced (opening : t.kind ≠ .opening) (word : t.kind ≠ .word)
    (fills : level.opener ≠ none → level.members = [] → t.kind ≠ .closing)
    (spelled : ∀ w ∈ t.kind.chars?, t.chars = w) (ts : List Token) :
    complete text ⟨level, outer, true⟩ (t :: ts) =
      .error (.unread (.fault (.missingCardBefore t.chars) t.start)) := by
  cases kind : t.kind with
  | opening => exact absurd kind opening
  | word => exact absurd kind word
  | connective k =>
    rw [spelled k.word.toList (by rw [kind]; rfl)]
    exact complete_error rfl (ofTokens_connective kind ts)
  | closing =>
    rw [spelled [')'] (by rw [kind]; rfl)]
    refine complete_error ?_ (ofTokens_closing kind ts)
    obtain ⟨opener, connective, members⟩ := level
    cases opener with
    | none => rfl
    | some opener =>
      cases members with
      | nil => exact absurd kind (fills (Option.some_ne_none opener) rfl)
      | cons => rfl

/-! ## After a term -/

theorem complete_closing (closing : t.kind = .closing) (close : inner.close = some c)
    (ts : List Token) : complete text ⟨inner, level :: outer, false⟩ (t :: ts) =
      complete text ⟨level.add c, outer, false⟩ ts :=
  complete_step (.closing close) rfl (ofTokens_closing closing ts)

theorem complete_unexpected (closing : t.kind = .closing) (ts : List Token) :
    complete text ⟨level, [], false⟩ (t :: ts) = .error (.unread (.fault .unexpectedClosing t.start)) :=
  complete_error (Reader.read_eq_unexpectedClosing_iff.mpr ⟨rfl, rfl, .inl rfl⟩)
    (ofTokens_closing closing ts)

/-- A level that is left open is refused for that, unless a connective goes on. -/
theorem complete_unclosed {opener : Nat} (opened : level.opener = some opener)
    (connective : ∀ u ∈ ts.head?, ∀ k, u.kind ≠ .connective k)
    (closing : ∀ u ∈ ts.head?, u.kind ≠ .closing) :
    complete text ⟨level, outer, false⟩ ts = .error (.unread (.fault .unclosed opener)) := by
  cases ts with
  | nil =>
    rw [complete_nil, Reader.finish_eq_unclosed_iff.mpr ⟨rfl, opened⟩]
    rfl
  | cons t ts =>
    obtain ⟨item, items, first, starts, -⟩ := exists_item (connective t rfl) (closing t rfl) ts
    exact complete_error (Reader.read_eq_unclosed_iff.mpr ⟨rfl, opened, starts⟩) first

/-- At the outermost level nothing follows a term but a connective or the end. -/
theorem complete_trailing (outermost : level.opener = none)
    (connective : ∀ k, t.kind ≠ .connective k) (closing : t.kind ≠ .closing)
    (spelled : ∀ w ∈ t.kind.chars?, t.chars = w) (ts : List Token) :
    complete text ⟨level, outer, false⟩ (t :: ts) =
      .error (.unread (.fault (.trailing t.chars) t.start)) := by
  obtain ⟨item, items, first, starts, start, word⟩ := exists_item connective closing ts
  refine complete_error ?_ first
  rw [← word spelled, ← start]
  cases item with
  | opening | phrase =>
    simp only [Reader.read, Bool.false_eq_true, if_false, Reader.readLink, outermost]
  | closing | connective => cases starts

theorem complete_link {opener : Option Nat} {connective : Option Connective} {k : Connective}
    {members : List Condition} (kind : t.kind = .connective k)
    (same : ∀ first ∈ connective, first = k) (ts : List Token) :
    complete text ⟨⟨opener, connective, members⟩, outer, false⟩ (t :: ts) =
      complete text ⟨⟨opener, some k, members⟩, outer, true⟩ ts := by
  cases connective with
  | none => exact complete_step .link rfl (ofTokens_connective kind ts)
  | some first =>
    obtain rfl := same first rfl
    exact complete_step .relink rfl (ofTokens_connective kind ts)

theorem complete_mixed {opener : Option Nat} {first k : Connective} {members : List Condition}
    (kind : t.kind = .connective k) (other : first ≠ k) (ts : List Token) :
    complete text ⟨⟨opener, some first, members⟩, outer, false⟩ (t :: ts) =
      .error (.unread (.fault (.mixed first k) t.start)) :=
  complete_error (by simp only [Reader.read, Bool.false_eq_true, if_false, Reader.readLink,
    if_neg other]) (ofTokens_connective kind ts)

end OpeningHand.Condition
