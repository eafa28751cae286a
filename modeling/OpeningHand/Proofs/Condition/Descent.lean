import OpeningHand.Proofs.Condition.Calls
import OpeningHand.Proofs.Condition.Rest

/-!
# Descents are safe

What a descent does, procedure by procedure, next to what the reader does with the same tokens.
From a good place every procedure comes to a good place at the same depth, and the reader comes to
the same from there as from the start (`complete`); or the text is refused, and the reader refuses it
for the same reason. Each procedure is taken by itself, for any calls that do so from later places.

A term takes a token, and whatever a procedure calls starts later than it does, but for the first
term of an expression. So the tokens that are left bound how deep calls nest (`able_calls`), and
calls that may nest deeper come to the same (`descend_of_le`). A descent then always ends, with what
`parsePoints` makes of the text, and all that it did on the way is sound (`descend_safe`).
-/

namespace OpeningHand.Condition

open Grammar
open Text (Point shown)

namespace Descent

variable {text : List Point} {p q r : Place} {t : Token} {ts : List Token} {level : Level}
  {outer : List Level}

/-- A good place that is not before another one and at the same depth. -/
structure Reached (text : List Point) (p q : Place) : Prop where
  good : q.Good text
  le : p.index ≤ q.index
  depth_eq : q.depth = p.depth

theorem Reached.trans (h : Reached text p q) (h' : Reached text q r) : Reached text p r where
  good := h'.good
  le := h.le.trans h'.le
  depth_eq := h'.depth_eq.trans h.depth_eq

/-- Past a token that is no parenthesis. -/
theorem reached_next (good : p.Good text) (h : p.rest text = t :: ts)
    (flat : levelAfter p.depth t = p.depth) : Reached text p ⟨p.index + 1, p.depth⟩ where
  good := by
    have next := good.next h (flat.trans_le good.depth_le)
    rwa [flat] at next
  le := Nat.le_succ _
  depth_eq := rfl

theorem does_refuse {f : Fault} {position : Nat} {α : Type} {fails : Refusal → Prop}
    {ends : α → Place → Prop} (h : fails (.unread (.fault f position))) :
    Does text p (refuse f position) fails ends :=
  does_throw (.refused _) h

/-! ## Card tests -/

/-- Words that were taken, as far as they go. -/
structure Took (text : List Point) (p : Place) (ws : List Token) (q : Place) : Prop where
  reached : Reached text p q
  index_eq : q.index = p.index + ws.length
  rest_eq : p.rest text = ws ++ q.rest text
  words : ∀ u ∈ ws, u.kind = .word
  ends : Ends (q.rest text)

theorem took_nothing (good : p.Good text) (ends : Ends (p.rest text)) : Took text p [] p where
  reached := ⟨good, Nat.le_refl _, rfl⟩
  index_eq := rfl
  rest_eq := rfl
  words := List.forall_mem_nil _
  ends := ends

theorem Took.cons {ws : List Token} (good : p.Good text) (h : p.rest text = t :: ts)
    (word : t.kind = .word) (took : Took text ⟨p.index + 1, p.depth⟩ ws q) :
    Took text p (t :: ws) q where
  reached := (reached_next good h (by simp only [levelAfter, word])).trans took.reached
  index_eq := by
    rw [took.index_eq, List.length_cons, Nat.add_assoc, Nat.add_comm 1]
  rest_eq := by
    rw [h, List.cons_append, ← took.rest_eq, Place.rest_next h]
  words := List.forall_mem_cons.mpr ⟨word, took.words⟩
  ends := took.ends

/-- From a place a run takes words, after those that were taken. -/
def TakesWords (text : List Point) (p : Place) (run : List Token → Descent (List Token)) : Prop :=
  ∀ taken, ∃ ws q, Comes text p (run taken) (taken ++ ws) q ∧ Took text p ws q

/-- Words are taken as far as they go, if the loop goes on past the next one. -/
theorem takes_words {call : Calls} (good : p.Good text)
    (again : ∀ q, p.index < q.index → q.Good text → TakesWords text q call.words) :
    TakesWords text p (words text call) := by
  intro taken
  cases hnext : (p.rest text).head? with
  | none =>
    refine ⟨[], p, (comes_peek text p).bind ?_, took_nothing good (by simp [Ends, hnext])⟩
    rw [hnext, List.append_nil]
    exact comes_pure _ _ _
  | some t =>
    obtain ⟨ts, h⟩ := List.head?_eq_some_iff.mp hnext
    by_cases word : t.kind = .word
    · have flat : levelAfter p.depth t = p.depth := by simp only [levelAfter, word]
      have there := (reached_next good h flat).good
      obtain ⟨ws, q, comes, took⟩ := again _ (Nat.lt_succ_self _) there (taken ++ [t])
      refine ⟨t :: ws, q, (comes_peek text p).bind ?_, took.cons good h word⟩
      rw [hnext, List.append_cons]
      dsimp only
      rw [if_pos word]
      exact (comes_advance h).bind comes
    · refine ⟨[], p, (comes_peek text p).bind ?_, took_nothing good (h ▸ ends_cons word)⟩
      rw [hnext, List.append_nil]
      dsimp only
      rw [if_neg word]
      exact comes_pure _ _ _

/-- What words cut out of a text is shown as their slice of the text shown. -/
theorem shown_cutOut (text : List Point) (first : Token) (more : List Token) :
    shown (cutOut text (first :: more)) = slice (shown text).toList first more := by
  rw [shown, cutOut, slice, shown, String.toList_ofList, List.map_take, List.map_drop]

/-- Words of a text cut out a name. -/
theorem slice_ne_empty {before after : List Token}
    (h : tokens (shown text) = before ++ (t :: ts ++ after))
    (words : ∀ u ∈ t :: ts, u.kind = .word) : slice (shown text).toList t ts ≠ "" := by
  intro hempty
  obtain ⟨c, hc, -⟩ := (plainName_slice h words).starts
  rw [hempty] at hc
  cases hc

/-- A run that stays where it is and makes the test that comes of something else, with a name, or
stops for the same reason. -/
def Tests (text : List Point) (p : Place) (x : Descent Condition)
    (result : Except Refusal CardTest) : Prop :=
  Does text p x (result = .error ·) fun c q =>
    q = p ∧ ∃ test, c = .card test ∧ test.name ≠ "" ∧ result = .ok test

theorem tests_refuse (f : Fault) (position : Nat) :
    Tests text p (refuse f position) (.error (.unread (.fault f position))) :=
  does_refuse rfl

/-- The test that words name is made, unless the name is torn. -/
theorem tests_named {before after : List Token}
    (h : tokens (shown text) = before ++ (t :: ts ++ after))
    (words : ∀ u ∈ t :: ts, u.kind = .word) (n : Nat) (bound : Bound) :
    Tests text p (named text (t :: ts) n bound)
      (if (cutOut text (t :: ts)).all Point.isChar then
        .ok ⟨slice (shown text).toList t ts, n, bound⟩ else .error .tornName) := by
  have ne := slice_ne_empty h words
  have sound : (Making.card (cutOut text (t :: ts)) n bound).Sound := by
    intro hnil
    rw [← shown_cutOut, hnil] at ne
    exact ne rfl
  have filled : (cutOut text (t :: ts)).isEmpty = false := by simpa [Making.Sound] using sound
  refine (comes_note (d := .names (t :: ts)) (List.cons_ne_nil t ts)).then ?_
  dsimp only
  split
  next clear =>
    have made : (Making.card (cutOut text (t :: ts)) n bound).condition? =
        some (.card ⟨slice (shown text).toList t ts, n, bound⟩) := by
      simp only [Making.condition?, filled, Bool.false_eq_true, if_false,
        Text.ofPoints?_eq_some (List.all_eq_true.mp clear), shown_cutOut, Option.map_some]
    exact (comes_make sound made).does ⟨rfl, _, rfl, ne, rfl⟩
  next torn =>
    have half : (Making.card (cutOut text (t :: ts)) n bound).Torn := by
      simpa [Making.Torn] using torn
    refine does_make_torn sound half ?_ rfl
    simp only [Making.condition?, filled, Bool.false_eq_true, if_false,
      Text.ofPoints?_eq_none half, Option.map_none]

/-- A quantity is read before the test, which goes on to be checked. -/
theorem tests_quantity {digits : List Char} {f : Nat → Descent Condition}
    {k : Nat → Except ReadError CardTest} {check : CardTest → Except Refusal CardTest}
    (h : ∀ n, Tests text p (f n) ((k n).mapError .unread >>= check)) :
    Tests text p (quantity digits >>= f) ((readQuantity digits >>= k).mapError .unread >>= check) := by
  have run : Does text p (quantity digits)
      (fun e => ∃ f, readQuantity digits = .error f ∧ e = .unread f)
      fun n q => q = p ∧ readQuantity digits = .ok n := by
    rw [quantity]
    cases readQuantity digits with
    | ok n => exact does_pure ⟨rfl, rfl⟩
    | error e => exact does_throw (.refused e) ⟨e, rfl, rfl⟩
  refine (run.imp (fun e he => ?_) fun _ _ h => h).then fun n q hn => ?_
  · obtain ⟨f, hf, rfl⟩ := he
    rw [hf]
    rfl
  · obtain ⟨rfl, hn⟩ := hn
    rw [hn]
    exact h n

/-- Words are taken for the test that their phrase is read as. -/
theorem tests_leafOf {before after : List Token} {first : Token} {more : List Token}
    (place : tokens (shown text) = before ++ (first :: more ++ after))
    (words : ∀ u ∈ first :: more, u.kind = .word) :
    Tests text p (leafOf text (first :: more)) (makePhrase text first more) := by
  have tail : tokens (shown text) = before ++ [first] ++ (more ++ after) := by simpa using place
  have more_words := (List.forall_mem_cons.mp words).2
  rw [leafOf]
  unfold makePhrase readPhrase nameWords
  cases Lead.ofWord first.chars with
  | glued => exact tests_refuse _ _
  | name => exact tests_named place words _ _
  | least digits =>
    cases more with
    | nil => exact tests_quantity fun _ => tests_refuse _ _
    | cons second more => exact tests_quantity fun _ => tests_named tail more_words _ _
  | count digits =>
    cases more with
    | nil => exact tests_named place words _ _
    | cons second more => exact tests_quantity fun _ => tests_named tail more_words _ _

/-! ## What the procedures do -/

/-- A level that was opened is not closed at once. -/
def Place.Fills (text : List Point) (p : Place) (level : Level) : Prop :=
  level.opener ≠ none → level.members = [] → ∀ u ∈ (p.rest text).head?, u.kind ≠ .closing

/-- A term that was read from a place on: some token was taken for it, and it is one member more of
the level it was read at. -/
structure TermRead (text : List Point) (p : Place) (level : Level) (outer : List Level) (c : Condition)
    (q : Place) : Prop where
  reached : Reached text p q
  later : p.index < q.index
  admitted : c.Admitted
  agrees : complete text ⟨level, outer, true⟩ (p.rest text) =
    complete text ⟨level.add c, outer, false⟩ (q.rest text)

/-- From a place a run reads a term as the reader does. -/
def ReadsTerm (text : List Point) (p : Place) (x : Descent Condition) : Prop :=
  ∀ ⦃level : Level⦄ ⦃outer : List Level⦄, outer.length = p.depth → p.Fills text level →
    Does text p x (complete text ⟨level, outer, true⟩ (p.rest text) = .error ·)
      (TermRead text p level outer)

/-- An expression that was read from a place on: it is what its level amounts to, and no connective
goes on from there. -/
structure ExpressionRead (text : List Point) (p : Place) (opener : Option Nat) (outer : List Level)
    (c : Condition) (q : Place) : Prop where
  reached : Reached text p q
  later : p.index < q.index
  admitted : c.Admitted
  ends : ∀ u ∈ (q.rest text).head?, ∀ k, u.kind ≠ .connective k
  agrees : ∃ level : Level, level.opener = opener ∧ level.close = some c ∧
    complete text ⟨.new opener, outer, true⟩ (p.rest text) =
      complete text ⟨level, outer, false⟩ (q.rest text)

/-- From a place a run reads an expression as the reader does. -/
def ReadsExpression (text : List Point) (p : Place) (x : Descent Condition) : Prop :=
  ∀ ⦃opener : Option Nat⦄ ⦃outer : List Level⦄, outer.length = p.depth →
    p.Fills text (.new opener) →
      Does text p x (complete text ⟨.new opener, outer, true⟩ (p.rest text) = .error ·)
        (ExpressionRead text p opener outer)

/-! ## Terms -/

/-- A card test is read as one phrase. -/
theorem reads_leaf {call : Calls} (h : p.rest text = t :: ts) (word : t.kind = .word)
    (words : TakesWords text p call.words) : ReadsTerm text p (leaf text call) := by
  intro level outer _ _
  obtain ⟨ws, q, comes, took⟩ := words []
  cases ws with
  | nil =>
    -- the token that comes next is a word, so it was taken
    have rest : q.rest text = t :: ts := took.rest_eq.symm.trans h
    exact absurd word (took.ends t (congrArg List.head? rest))
  | cons first more =>
    have place : tokens (shown text) = (tokens (shown text)).take p.index ++ (first :: more ++ q.rest text) := by
      rw [← took.rest_eq]
      exact (List.take_append_drop _ _).symm
    have phrase : complete text ⟨level, outer, true⟩ (p.rest text) =
        makePhrase text first more >>= fun test =>
          complete text ⟨level.add (.card test), outer, false⟩ (q.rest text) := by
      rw [took.rest_eq]
      exact complete_phrase took.words took.ends
    have later : p.index < q.index := by simp [took.index_eq]
    refine comes.then ((comes_note (d := .collects _) (List.cons_ne_nil first more)).then ?_)
    refine Does.imp (tests_leafOf place took.words) (fun e he => ?_) fun c r hc => ?_
    · rw [phrase, he]
      rfl
    · obtain ⟨rfl, test, rfl, named, htest⟩ := hc
      refine ⟨took.reached, later, admitted_card named, ?_⟩
      rw [phrase, htest]
      rfl

/-- A token that is no word is written as its kind is. -/
theorem Place.spelled (h : p.rest text = t :: ts) : ∀ w ∈ t.kind.chars?, t.chars = w :=
  (laid_tokensFrom 0 (shown text).toList).chars_eq t (List.mem_of_getElem? (getElem?_of_rest h))

theorem any_closing : ts.head?.any (·.kind = .closing) = true ↔
    ∃ u us, ts = u :: us ∧ u.kind = .closing := by
  cases ts <;> simp

/-- Past an opening parenthesis, where there is room for it. -/
theorem Place.Good.opened (good : p.Good text) (h : p.rest text = t :: ts)
    (opening : t.kind = .opening) (deeper : p.depth < maxNesting) :
    Place.Good text ⟨p.index + 1, p.depth + 1⟩ := by
  have up : levelAfter p.depth t = p.depth + 1 := by simp only [levelAfter, opening]
  exact up ▸ good.next h (up.trans_le deeper)

/-- Past the parenthesis that closes the one a place was before. -/
theorem Reached.closed (reached : Reached text ⟨p.index + 1, p.depth + 1⟩ q)
    (h : q.rest text = t :: ts) (closing : t.kind = .closing) :
    Reached text p ⟨q.index + 1, q.depth - 1⟩ where
  good := by
    have down : levelAfter q.depth t = q.depth - 1 := by simp only [levelAfter, closing]
    have room : q.depth - 1 ≤ maxNesting := (Nat.sub_le _ _).trans reached.good.depth_le
    exact down ▸ reached.good.next h (down.trans_le room)
  le := Nat.le_succ_of_le ((Nat.le_succ _).trans reached.le)
  depth_eq := congrArg (· - 1) reached.depth_eq

/-- An expression inside parentheses is a level of its own, and a member of the one around it. -/
theorem does_enclosed {call : Calls} {position : Nat}
    (inside : Place.Good text ⟨p.index + 1, p.depth + 1⟩) (room : outer.length = p.depth)
    (fills : Place.Fills text ⟨p.index + 1, p.depth + 1⟩ (.new (some position)))
    (inner : ReadsExpression text ⟨p.index + 1, p.depth + 1⟩ call.expression) :
    Does text ⟨p.index + 1, p.depth⟩ (enclosed text call p position)
      (complete text ⟨.new (some position), level :: outer, true⟩
        (Place.rest text ⟨p.index + 1, p.depth + 1⟩) = .error ·)
      fun c q => Reached text p q ∧ p.index < q.index ∧ c.Admitted ∧
        complete text ⟨.new (some position), level :: outer, true⟩
            (Place.rest text ⟨p.index + 1, p.depth + 1⟩) =
          complete text ⟨level.add c, outer, false⟩ (q.rest text) := by
  rw [enclosed]
  refine (comes_move (p := ⟨p.index + 1, p.depth⟩) (Nat.le_refl _) inside.index_le).then ?_
  refine (comes_note (d := .descends p) (Nat.lt_succ_self _)).then ?_
  refine (inner (congrArg (· + 1) room) fills).then fun c q read => ?_
  obtain ⟨filled, opener, close, agrees⟩ := read.agrees
  rw [agrees]
  refine (comes_move (Nat.le_refl _) read.reached.good.index_le).then ?_
  refine (comes_peek text ⟨q.index, q.depth - 1⟩).then ?_
  split
  next closed =>
    obtain ⟨u, us, hus, closing⟩ := any_closing.mp closed
    have hq : q.rest text = u :: us := hus
    have later : p.index < q.index := Nat.lt_of_succ_lt read.later
    refine (comes_advance (p := ⟨q.index, q.depth - 1⟩) hq).then (does_pure ?_)
    refine ⟨read.reached.closed hq closing, Nat.lt_succ_of_lt later, read.admitted, ?_⟩
    rw [hq, complete_closing closing close, Place.rest_next hq]
  next left =>
    rw [any_closing] at left
    refine does_refuse (complete_unclosed opener read.ends fun u hu closing => ?_)
    exact left ⟨u, _, (List.cons_head?_tail hu).symm, closing⟩

/-- Parentheses are read where there is room for them and something in them. -/
theorem reads_group {call : Calls} (good : p.Good text) (h : p.rest text = t :: ts)
    (opening : t.kind = .opening) (deeper : p.depth < maxNesting)
    (inner : ∀ q, p.index < q.index → q.Good text → ReadsExpression text q call.expression) :
    ReadsTerm text p (group text call p t.start) := by
  intro level outer room _
  have inside := good.opened h opening deeper
  have rest : Place.rest text ⟨p.index + 1, p.depth + 1⟩ = ts := Place.rest_next h _
  have opened : complete text ⟨level, outer, true⟩ (p.rest text) =
      complete text ⟨.new (some t.start), level :: outer, true⟩
        (Place.rest text ⟨p.index + 1, p.depth + 1⟩) := by
    rw [h, complete_opening opening (room ▸ deeper), rest]
  rw [group, opened]
  refine (comes_advance h).then ((comes_peek text _).then ?_)
  rw [Place.rest_next h]
  split
  next empty =>
    obtain ⟨u, us, rfl, closing⟩ := any_closing.mp empty
    rw [rest]
    exact does_refuse (complete_empty closing us)
  next filled =>
    have fills : Place.Fills text ⟨p.index + 1, p.depth + 1⟩ (.new (some t.start)) := by
      intro _ _ u hu closing
      rw [rest] at hu
      exact filled (any_closing.mpr ⟨u, ts.tail, (List.cons_head?_tail hu).symm, closing⟩)
    refine (does_enclosed inside room fills (inner _ (Nat.lt_succ_self _) inside)).imp
      (fun _ h => h) fun c q read => ?_
    obtain ⟨reached, later, admitted, agrees⟩ := read
    exact ⟨reached, later, admitted, opened.trans agrees⟩

/-- What starts with the next token is a term, if one can start with it. -/
theorem reads_termFrom {call : Calls} {next : Option Token} (good : p.Good text)
    (hnext : (p.rest text).head? = next)
    (words : ∀ t ∈ next, t.kind = .word → TakesWords text p call.words)
    (inner : ∀ q, p.index < q.index → q.Good text → ReadsExpression text q call.expression) :
    ReadsTerm text p (termFrom text call p next) := by
  intro level outer room fills
  cases next with
  | none =>
    rw [termFrom, List.head?_eq_none_iff.mp hnext, ← length_toList_shown]
    exact does_refuse rfl
  | some t =>
    obtain ⟨ts, h⟩ := List.head?_eq_some_iff.mp hnext
    rw [termFrom]
    split
    next opening =>
      split
      next full =>
        rw [h]
        exact does_refuse (complete_too_deep opening (room ▸ full) ts)
      next deeper => exact reads_group good h opening (Nat.not_le.mp deeper) inner room fills
    next word => exact reads_leaf h word (words t rfl word) room fills
    next opening word =>
      have fills_here (ho : level.opener ≠ none) (hm : level.members = []) : t.kind ≠ .closing :=
        fills ho hm t hnext
      rw [h]
      exact does_refuse (complete_misplaced opening word fills_here (Place.spelled h) ts)

/-- A term is entered at a good place and left at a later one. -/
theorem reads_term {call : Calls} (good : p.Good text)
    (words : ∀ t ∈ (p.rest text).head?, t.kind = .word → TakesWords text p call.words)
    (inner : ∀ q, p.index < q.index → q.Good text → ReadsExpression text q call.expression) :
    ReadsTerm text p (term text call) := by
  intro level outer room fills
  rw [term]
  refine (comes_here text p).then ((comes_note (d := .enters .term) good).then ?_)
  refine (comes_peek text p).then ?_
  refine (reads_termFrom good rfl words inner room fills).then fun c q read => ?_
  have returns : Deed.Sound text q (.returns .term p) := ⟨read.reached.good, read.later⟩
  exact (comes_note returns).then (does_pure read)

/-! ## Expressions -/

/-- Members of a level with the connective between them: there is one, and only one if there is no
connective. -/
structure Linked (connective : Option Connective) (members : List Condition) : Prop where
  ne_nil : members ≠ []
  single : connective = none → members.length = 1
  admitted : ∀ c ∈ members, c.Admitted

theorem linked_single {c : Condition} (admitted : c.Admitted) : Linked none [c] where
  ne_nil := List.cons_ne_nil c []
  single _ := rfl
  admitted := List.forall_mem_singleton.mpr admitted

theorem Linked.add {connective : Option Connective} {members : List Condition} {k : Connective}
    {c : Condition} (linked : Linked connective members) (admitted : c.Admitted) :
    Linked (some k) (members ++ [c]) where
  ne_nil := by simp
  single h := nomatch h
  admitted := List.forall_mem_append.mpr
    ⟨linked.admitted, List.forall_mem_singleton.mpr admitted⟩

/-- Members that were read from a place on, after some that were read before. -/
structure LinksRead (text : List Point) (p : Place) (opener : Option Nat) (outer : List Level)
    (connective : Option Connective) (members : List Condition)
    (read : Option Connective × List Condition) (q : Place) : Prop where
  reached : Reached text p q
  linked : Linked read.1 read.2
  ends : ∀ u ∈ (q.rest text).head?, ∀ k, u.kind ≠ .connective k
  agrees : complete text ⟨⟨opener, connective, members.reverse⟩, outer, false⟩
      (p.rest text) =
    complete text ⟨⟨opener, read.1, read.2.reverse⟩, outer, false⟩ (q.rest text)

/-- From a place a run reads connectives and terms as the reader does. -/
def ReadsLinks (text : List Point) (p : Place)
    (run : Option Connective → List Condition → Descent (Option Connective × List Condition)) :
    Prop :=
  ∀ ⦃opener : Option Nat⦄ ⦃outer : List Level⦄ ⦃connective : Option Connective⦄
    ⦃members : List Condition⦄, outer.length = p.depth → Linked connective members →
    Does text p (run connective members)
      (complete text ⟨⟨opener, connective, members.reverse⟩, outer, false⟩ (p.rest text) =
        .error ·)
      (LinksRead text p opener outer connective members)

/-- A level without a connective that goes on is done. -/
theorem LinksRead.done {opener : Option Nat} {connective : Option Connective}
    {members : List Condition} (good : p.Good text) (linked : Linked connective members)
    (ends : ∀ u ∈ (p.rest text).head?, ∀ k, u.kind ≠ .connective k) :
    LinksRead text p opener outer connective members (connective, members) p where
  reached := ⟨good, Nat.le_refl _, rfl⟩
  linked := linked
  ends := ends
  agrees := rfl

/-- A connective is accepted where the reader goes on with it. -/
theorem does_link {opener : Option Nat} {connective : Option Connective} {k : Connective}
    {members : List Condition} (kind : t.kind = .connective k) :
    Does text p (link connective k t.start)
      (complete text ⟨⟨opener, connective, members⟩, outer, false⟩ (t :: ts) = .error ·)
      fun _ q => q = p ∧
        complete text ⟨⟨opener, connective, members⟩, outer, false⟩ (t :: ts) =
          complete text ⟨⟨opener, some k, members⟩, outer, true⟩ ts := by
  unfold link
  split
  next => exact does_pure ⟨rfl, complete_link kind (by simp) ts⟩
  next first =>
    split
    next same => exact does_pure ⟨rfl, complete_link kind (by simpa using same) ts⟩
    next other => exact does_refuse (complete_mixed kind other ts)

/-- Connectives and terms are read as far as they go, if the loop goes on past the next one. -/
theorem reads_links {call : Calls} (good : p.Good text)
    (terms : ∀ q, p.index < q.index → q.Good text → ReadsTerm text q call.term)
    (again : ∀ q, p.index < q.index → q.Good text → ReadsLinks text q call.links) :
    ReadsLinks text p (links text call) := by
  intro opener outer connective members room linked
  rw [links]
  refine (comes_peek text p).then ?_
  cases hnext : (p.rest text).head? with
  | none =>
    exact does_pure (.done good linked (by simp [hnext]))
  | some t =>
    obtain ⟨ts, h⟩ := List.head?_eq_some_iff.mp hnext
    dsimp only
    split
    next k kind =>
      have past := reached_next good h (by simp only [levelAfter, kind])
      have rest : Place.rest text ⟨p.index + 1, p.depth⟩ = ts := Place.rest_next h _
      refine (comes_advance h).then ?_
      rw [h]
      refine (does_link kind).then fun _ q hq => ?_
      obtain ⟨rfl, linkage⟩ := hq
      rw [linkage, ← rest]
      have fills : Place.Fills text ⟨p.index + 1, p.depth⟩ ⟨opener, some k, members.reverse⟩ := by
        intro _ empty
        exact absurd (List.reverse_eq_nil_iff.mp empty) linked.ne_nil
      refine (terms _ (Nat.lt_succ_self _) past.good room fills).then fun c r read => ?_
      have agrees : complete text ⟨⟨opener, some k, members.reverse⟩, outer, true⟩
          (Place.rest text ⟨p.index + 1, p.depth⟩) =
          complete text ⟨⟨opener, some k, (members ++ [c]).reverse⟩, outer, false⟩
            (r.rest text) := by
        rw [read.agrees, List.reverse_append]
        rfl
      have later : p.index < r.index := Nat.lt_of_succ_lt read.later
      have roomThere : outer.length = r.depth := room.trans read.reached.depth_eq.symm
      rw [agrees]
      refine (again r later read.reached.good roomThere (linked.add read.admitted)).imp
        (fun _ h => h) fun ms q read' => ?_
      exact ⟨past.trans (read.reached.trans read'.reached), read'.linked, read'.ends, by
        rw [h, linkage, ← rest, agrees, read'.agrees]⟩
    next other => exact does_pure (.done good linked (by simpa [hnext] using other))

/-- Linked members come to an admitted condition, which their level amounts to. -/
theorem comes_close {connective : Option Connective} {members : List Condition}
    (linked : Linked connective members) : ∃ c : Condition, c.Admitted ∧
      Comes text p (close connective members) c p ∧
        ∀ opener, Level.close ⟨opener, connective, members.reverse⟩ = some c := by
  cases connective with
  | some k =>
    have admitted := admitted_group (k := k) linked.ne_nil linked.admitted
    have made : (Making.group k members).condition? = some (.group k members) := by
      simpa [Making.condition?] using linked.ne_nil
    have sound : (Making.group k members).Sound := ⟨linked.ne_nil, linked.admitted⟩
    refine ⟨.group k members, admitted, comes_make sound made, fun opener => ?_⟩
    simp only [Level.close, List.reverse_reverse]
  | none =>
    obtain ⟨c, rfl⟩ := List.length_eq_one_iff.mp (linked.single rfl)
    exact ⟨c, linked.admitted c List.mem_cons_self, comes_pure _ _ _, fun _ => rfl⟩

/-- An expression is entered at a good place and left at a later one. -/
theorem reads_expression {call : Calls} (good : p.Good text)
    (first : ReadsTerm text p call.term)
    (more : ∀ q, p.index < q.index → q.Good text → ReadsLinks text q call.links) :
    ReadsExpression text p (expression call) := by
  intro opener outer room fills
  rw [expression]
  refine (comes_here text p).then ((comes_note (d := .enters .expression) good).then ?_)
  refine (first room fills).then fun c q read => ?_
  have roomThere : outer.length = q.depth := room.trans read.reached.depth_eq.symm
  have start : complete text ⟨.new opener, outer, true⟩ (p.rest text) =
      complete text ⟨⟨opener, none, [c].reverse⟩, outer, false⟩ (q.rest text) := read.agrees
  rw [start]
  refine (more q read.later read.reached.good roomThere (linked_single read.admitted)).then
    fun level r read' => ?_
  obtain ⟨whole, admitted, comes, close⟩ := comes_close read'.linked
  have later : p.index < r.index := read.later.trans_le read'.reached.le
  have returns : Deed.Sound text r (.returns .expression p) := ⟨read'.reached.good, later⟩
  refine comes.then ((comes_note returns).then (does_pure ?_))
  exact ⟨read.reached.trans read'.reached, later, admitted, read'.ends, _, rfl, close opener,
    start.trans read'.agrees⟩

/-! ## Runs -/

/-- How many tokens are left. -/
def Place.left (text : List Point) (p : Place) : Nat :=
  (tokens (shown text)).length - p.index

theorem Place.Good.left_lt (good : q.Good text) (later : p.index < q.index) :
    q.left text < p.left text := by
  have := good.index_le
  rw [Place.left, Place.left]
  omega

/-- What calls that are nested no deeper than a bound can read: a loop over words takes a call for
each token that is left, and the other procedures take two. -/
structure Able (text : List Point) (bound : Nat) (call : Calls) : Prop where
  words : ∀ p : Place, p.Good text → p.left text < bound → TakesWords text p call.words
  expression : ∀ p : Place, p.Good text → 2 * p.left text + 1 < bound →
    ReadsExpression text p call.expression
  links : ∀ p : Place, p.Good text → 2 * p.left text < bound → ReadsLinks text p call.links
  term : ∀ p : Place, p.Good text → 2 * p.left text < bound → ReadsTerm text p call.term

/-- What a procedure calls starts later, or is the first term of an expression. -/
theorem able_calls (text : List Point) (bound : Nat) : Able text bound (calls text bound) := by
  induction bound with
  | zero =>
    exact ⟨fun _ _ h => absurd h (Nat.not_lt_zero _), fun _ _ h => absurd h (Nat.not_lt_zero _),
      fun _ _ h => absurd h (Nat.not_lt_zero _), fun _ _ h => absurd h (Nat.not_lt_zero _)⟩
  | succ bound able =>
    refine ⟨fun p good enough => ?words, fun p good enough => ?expression,
      fun p good enough => ?links, fun p good enough => ?term⟩
    case words =>
      refine takes_words good fun q later there => able.words q there ?_
      have := there.left_lt later
      omega
    case expression =>
      refine reads_expression good (able.term p good (by omega)) fun q later there =>
        able.links q there ?_
      have := there.left_lt later
      omega
    case links =>
      refine reads_links good (fun q later there => able.term q there ?_) fun q later there =>
        able.links q there ?_
      all_goals
        have := there.left_lt later
        omega
    case term =>
      refine reads_term good (fun t ht _ => able.words p good ?_) fun q later there =>
        able.expression q there ?_
      · -- a token is left for the words to start with
        obtain ⟨ts, h⟩ := List.head?_eq_some_iff.mp ht
        have := Place.lt_of_rest h
        rw [Place.left] at enough ⊢
        omega
      · have := there.left_lt later
        omega

/-! ## The whole text -/

/-- The whole text is read as `parsePoints` reads it. -/
theorem does_whole {call : Calls} (read : ReadsExpression text ⟨0, 0⟩ call.expression) :
    Does text ⟨0, 0⟩ (whole text call) (parsePoints text = .error ·)
      fun c _ => parsePoints text = .ok c := by
  rw [whole]
  split
  next empty => exact does_refuse (parsePoints_of_no_tokens (List.isEmpty_iff.mp empty))
  next filled =>
    have start : parsePoints text =
        complete text ⟨.new none, [], true⟩ (Place.rest text ⟨0, 0⟩) :=
      parsePoints_of_tokens fun h => filled (List.isEmpty_iff.mpr h)
    rw [start]
    refine (read rfl fun h => absurd rfl h).then fun c q read => ?_
    obtain ⟨level, outermost, close, agrees⟩ := read.agrees
    rw [agrees]
    refine (comes_peek text q).then ?_
    cases hnext : (q.rest text).head? with
    | none =>
      refine does_pure ?_
      rw [List.head?_eq_none_iff.mp hnext, complete_nil]
      simp only [Reader.finish, Bool.false_eq_true, if_false, outermost, close]
      rfl
    | some t =>
      obtain ⟨ts, h⟩ := List.head?_eq_some_iff.mp hnext
      rw [h]
      dsimp only
      split
      next closing => exact does_refuse (complete_unexpected closing ts)
      next closing =>
        have spelled := Place.spelled h
        exact does_refuse (complete_trailing outermost (read.ends t hnext) closing spelled ts)

end Descent

/-- A descent always ends, with calls that nest no deeper than twice the number of tokens and two.
What comes of it is what `parsePoints` makes of the text: the condition, or the reason it is refused
for, or the making of a card test, exactly if its name is the first that is torn. The index never
goes down, nor beyond the tokens, no token is taken where there is none, and every deed on the way is
sound at its place. -/
theorem descend_safe (text : List Point) : ∃ result events place,
    (∀ bound, 2 * (tokens (shown text)).length + 2 ≤ bound →
      descend text bound = some (result, ⟨place, events⟩)) ∧
    (∀ c, result = .ok c ↔ parsePoints text = .ok c) ∧
    (∀ e, result = .error (.refused e) ↔ parsePoints text = .error (.unread e)) ∧
    ((∃ m, result = .error (.invalid m)) ↔ TornName text) ∧
    (∀ m, result = .error (.invalid m) → m.Torn) ∧
    result ≠ .error .outOfRange ∧
    place.index ≤ (tokens (shown text)).length ∧
    (∀ e ∈ events, e.place.index ≤ place.index) ∧
    events.Pairwise (fun e f => e.place.index ≤ f.place.index) ∧
    ∀ e ∈ events, e.deed.Sound text e.place := by
  have able := Descent.able_calls text (2 * (tokens (shown text)).length + 2)
  have read := able.expression ⟨0, 0⟩ (Descent.good_start text) (Nat.lt_succ_self _)
  obtain ⟨events, place, result, run, logged, outcome⟩ := Descent.does_whole read []
  obtain ⟨reads, refuses, tears, torn, inRange⟩ := outcome.tells
  rw [List.nil_append] at run
  exact ⟨result, events, place, fun bound enough => descend_of_le enough run, reads, refuses,
    tears.trans parsePoints_eq_tornName_iff, torn, inRange, logged.inside (Nat.zero_le _),
    fun e he => (logged.between e he).2, logged.climbs, logged.sound⟩

/-- A half by itself is taken for a name, and no card test is made of it. -/
theorem descend_half : ∃ last, descend [.half 0] 4 =
    some (.error (.invalid (.card [.half 0] 1 .exactly)), last) :=
  ⟨_, rfl⟩

/-- What is done for a text of one word. -/
example : (descend [.char 'A'] 4).map (fun run => run.2.events.map fun e => (e.place.index, e.deed)) =
    some [(0, .enters .expression), (0, .enters .term), (0, .takes), (0, .moves ⟨1, 0⟩),
      (1, .collects [⟨.word, ['A'], 0, 1⟩]), (1, .names [⟨.word, ['A'], 0, 1⟩]),
      (1, .makes (.card [.char 'A'] 1 .exactly)), (1, .returns .term ⟨0, 0⟩),
      (1, .returns .expression ⟨0, 0⟩)] := rfl

end OpeningHand.Condition
