import OpeningHand.Proofs.Condition.Refusals
import Mathlib.Data.List.Infix

/-!
# Blame for parentheses

Two reasons speak of unbalanced parentheses, and their word is held here against the parentheses of
the text: `Unbalanced` counts them, and `Unmatched` says that a parenthesis is never closed.

A closing parenthesis that is not expected always shows that the text is unbalanced. One that is
reported missing need not: the reader also misses it before a term that follows a term with no
connective between, and what comes after may well close the parenthesis (`blame_for_parentheses`).
Only if the rest closes no more than it opens is the reported parenthesis unmatched, and the text
unbalanced.
-/

namespace OpeningHand.Condition

open Grammar

/-! ## Balance -/

/-- From a level of parentheses on, some front of a text closes more than are open. -/
def Overcloses (level : Nat) (cs : List Char) : Prop :=
  ∃ front, front <+: cs ∧ level + front.count '(' < front.count ')'

instance (level : Nat) (cs : List Char) : Decidable (Overcloses level cs) :=
  decidable_of_iff (∃ front ∈ cs.inits, level + front.count '(' < front.count ')') <| by
    simp only [Overcloses, List.mem_inits]

/-- The parentheses of a text are unbalanced: some front has more closing than opening ones, or the
totals differ. -/
def Unbalanced (cs : List Char) : Prop :=
  Overcloses 0 cs ∨ cs.count '(' ≠ cs.count ')'

instance (cs : List Char) : Decidable (Unbalanced cs) :=
  inferInstanceAs (Decidable (_ ∨ _))

/-- At a position stands an opening parenthesis that nothing after it closes. -/
def Unmatched (cs : List Char) (position : Nat) : Prop :=
  cs[position]? = some '(' ∧ ¬ Overcloses 0 (cs.drop (position + 1))

instance (cs : List Char) (position : Nat) : Decidable (Unmatched cs position) :=
  inferInstanceAs (Decidable (_ ∧ _))

/-- A text is balanced if it never closes too much and closes all. -/
theorem not_unbalanced_iff {cs : List Char} :
    ¬ Unbalanced cs ↔ ¬ Overcloses 0 cs ∧ cs.count '(' = cs.count ')' := by
  rw [Unbalanced, not_or, not_not]

/-- Nothing closes nothing. -/
theorem not_overcloses_nil (level : Nat) : ¬ Overcloses level [] := by
  rintro ⟨front, hfront, hcount⟩
  rw [List.prefix_nil.mp hfront] at hcount
  exact Nat.not_lt_zero _ hcount

/-- A front of a text is empty, which closes nothing, or has the first character. -/
theorem overcloses_cons {level : Nat} {c : Char} {cs : List Char} :
    Overcloses level (c :: cs) ↔
      ∃ front, front <+: cs ∧ level + (c :: front).count '(' < (c :: front).count ')' := by
  constructor
  · rintro ⟨front, hfront, hcount⟩
    rcases List.prefix_cons_iff.mp hfront with rfl | ⟨front', rfl, hfront'⟩
    · exact absurd hcount (Nat.not_lt_zero _)
    · exact ⟨front', hfront', hcount⟩
  · rintro ⟨front, hfront, hcount⟩
    exact ⟨c :: front, List.cons_prefix_cons.mpr ⟨rfl, hfront⟩, hcount⟩

/-- An opening parenthesis leaves one more to be closed. -/
theorem overcloses_opening {level : Nat} {cs : List Char} :
    Overcloses level ('(' :: cs) ↔ Overcloses (level + 1) cs := by
  rw [overcloses_cons]
  refine exists_congr fun front => and_congr_right fun _ => ?_
  rw [List.count_cons_self, List.count_cons_of_ne (by decide)]
  omega

/-- Where none is open, a closing parenthesis is one too many. -/
theorem overcloses_closing_zero (cs : List Char) : Overcloses 0 (')' :: cs) :=
  overcloses_cons.mpr ⟨[], List.nil_prefix, by decide⟩

/-- Otherwise it closes one. -/
theorem overcloses_closing {level : Nat} {cs : List Char} :
    Overcloses (level + 1) (')' :: cs) ↔ Overcloses level cs := by
  rw [overcloses_cons]
  refine exists_congr fun front => and_congr_right fun _ => ?_
  rw [List.count_cons_self, List.count_cons_of_ne (by decide)]
  omega

/-- A text that is balanced leaves the level as it is, wherever it stands. -/
theorem overcloses_append {a : List Char} (h : ¬ Unbalanced a) (level : Nat) (b : List Char) :
    Overcloses level (a ++ b) ↔ Overcloses level b := by
  obtain ⟨hfronts, htotal⟩ := not_unbalanced_iff.mp h
  constructor
  · rintro ⟨front, ⟨tail, hfront⟩, hcount⟩
    rcases List.append_eq_append_iff.mp hfront with ⟨rest, ha, -⟩ | ⟨rest, rfl, hb⟩
    · -- a front of the balanced part closes nothing that is open around it
      refine absurd ⟨front, ⟨rest, ha.symm⟩, ?_⟩ hfronts
      omega
    · refine ⟨rest, ⟨tail, hb.symm⟩, ?_⟩
      simp only [List.count_append] at hcount
      omega
  · rintro ⟨front, hfront, hcount⟩
    refine ⟨a ++ front, (List.prefix_append_right_inj a).mpr hfront, ?_⟩
    simp only [List.count_append]
    omega

theorem not_unbalanced_nil : ¬ Unbalanced [] :=
  not_unbalanced_iff.mpr ⟨not_overcloses_nil 0, rfl⟩

/-- Balanced texts one after the other are balanced. -/
theorem not_unbalanced_append {a b : List Char} (ha : ¬ Unbalanced a) (hb : ¬ Unbalanced b) :
    ¬ Unbalanced (a ++ b) := by
  obtain ⟨hfronts, htotal⟩ := not_unbalanced_iff.mp hb
  refine not_unbalanced_iff.mpr ⟨mt (overcloses_append ha 0 b).mp hfronts, ?_⟩
  rw [List.count_append, List.count_append, (not_unbalanced_iff.mp ha).2, htotal]

/-- So is a balanced text in parentheses. -/
theorem not_unbalanced_enclosed {a : List Char} (h : ¬ Unbalanced a) :
    ¬ Unbalanced ('(' :: (a ++ [')'])) := by
  refine not_unbalanced_iff.mpr ⟨?_, ?_⟩
  · rw [overcloses_opening, overcloses_append h, overcloses_closing]
    exact not_overcloses_nil 0
  · simp [(not_unbalanced_iff.mp h).2]

/-- A parenthesis that what follows does not close unbalances the text: neither part around it
closes more than it opens. -/
theorem unbalanced_of_open (a : List Char) {b : List Char} (h : ¬ Overcloses 0 b) :
    Unbalanced (a ++ '(' :: b) := by
  by_contra hbalanced
  obtain ⟨hfronts, htotal⟩ := not_unbalanced_iff.mp hbalanced
  have hfront : ¬ 0 + a.count '(' < a.count ')' :=
    fun hlt => hfronts ⟨a, List.prefix_append _ _, hlt⟩
  have hrest : ¬ 0 + b.count '(' < b.count ')' :=
    fun hlt => h ⟨b, List.prefix_refl b, hlt⟩
  rw [List.count_append, List.count_append, List.count_cons_self,
    List.count_cons_of_ne (by decide)] at htotal
  omega

/-- A parenthesis that is never closed leaves the totals different, unless the text closes too much
somewhere. -/
theorem Unmatched.unbalanced {cs : List Char} {position : Nat} (h : Unmatched cs position) :
    Unbalanced cs := by
  obtain ⟨hopening, hrest⟩ := h
  have hcs : cs = cs.take position ++ '(' :: cs.drop (position + 1) := by
    obtain ⟨hlt, hget⟩ := List.getElem?_eq_some_iff.mp hopening
    rw [← hget, List.getElem_cons_drop, List.take_append_drop]
  rw [hcs]
  exact unbalanced_of_open _ hrest

/-! ## Parentheses of tokens -/

/-- The parentheses among some tokens. -/
def parentheses (ts : List Token) : List Char :=
  ts.filterMap fun t =>
    match t.kind with
    | .opening => some '('
    | .closing => some ')'
    | _ => none

theorem parentheses_opening {t : Token} (kind : t.kind = .opening) (ts : List Token) :
    parentheses (t :: ts) = '(' :: parentheses ts :=
  List.filterMap_cons_some (by rw [kind])

theorem parentheses_closing {t : Token} (kind : t.kind = .closing) (ts : List Token) :
    parentheses (t :: ts) = ')' :: parentheses ts :=
  List.filterMap_cons_some (by rw [kind])

/-- Words and connectives have no parentheses. -/
theorem parentheses_flat {t : Token} (opening : t.kind ≠ .opening) (closing : t.kind ≠ .closing)
    (ts : List Token) : parentheses (t :: ts) = parentheses ts :=
  List.filterMap_cons_none (by simp only)

theorem parentheses_append (a b : List Token) :
    parentheses (a ++ b) = parentheses a ++ parentheses b :=
  List.filterMap_append

/-- A phrase has none at all, so a leaf is balanced. -/
theorem parentheses_words {ts : List Token} (words : ∀ t ∈ ts, t.kind = .word) :
    parentheses ts = [] :=
  List.filterMap_eq_nil_iff.mpr fun t ht => by rw [words t ht]

mutual

/-- A condition's parentheses are balanced. -/
theorem Grammar.Expr.not_unbalanced {text : List Char} {ts : List Token} {c : Condition} :
    Expr text ts c → ¬ Unbalanced (parentheses ts)
  | .single term => term.not_unbalanced
  | .group joined _ => joined.not_unbalanced

theorem Grammar.Joined.not_unbalanced {text : List Char} {k : Connective} {ts : List Token}
    {cs : List Condition} : Joined text k ts cs → ¬ Unbalanced (parentheses ts)
  | .one term => term.not_unbalanced
  | .next joined kind term => by
    rw [parentheses_append, parentheses_flat (by simp [kind]) (by simp [kind])]
    exact not_unbalanced_append joined.not_unbalanced term.not_unbalanced

theorem Grammar.Term.not_unbalanced {text : List Char} {ts : List Token} {c : Condition} :
    Term text ts c → ¬ Unbalanced (parentheses ts)
  | .parentheses opening inner closing => by
    rw [parentheses_opening opening, parentheses_append, parentheses_closing closing]
    exact not_unbalanced_enclosed inner.not_unbalanced
  | .leaf words _ => by
    rw [parentheses_words words]
    exact not_unbalanced_nil

end

/-- The parentheses of a text are those of its tokens. -/
theorem Laid.filter_eq {p : Nat} {cs : List Char} {ts : List Token} (h : Laid p cs ts) :
    cs.filter (fun c => c = '(' || c = ')') = parentheses ts := by
  have none {w : List Char} (free : '(' ∉ w ∧ ')' ∉ w) :
      w.filter (fun c => c = '(' || c = ')') = [] := by
    refine List.filter_eq_nil_iff.mpr fun c hc => ?_
    simp only [Bool.or_eq_true, decide_eq_true_eq, not_or]
    exact ⟨fun heq => free.1 (heq ▸ hc), fun heq => free.2 (heq ▸ hc)⟩
  induction h with
  | done blank => exact none (not_mem_of_blank blank)
  | opening blank _ ih =>
    rw [List.filter_append, none (not_mem_of_blank blank), parentheses_opening rfl, ← ih]
    rfl
  | closing blank _ ih =>
    rw [List.filter_append, none (not_mem_of_blank blank), parentheses_closing rfl, ← ih]
    rfl
  | @run p gap w rest ts blank _ inner _ _ ih =>
    rw [List.filter_append, List.filter_append, none (not_mem_of_blank blank),
      none (not_mem_of_inner inner), ih]
    exact (parentheses_flat ofRun_ne.1 ofRun_ne.2 ts).symm

/-- Only the parentheses of a text count. -/
theorem overcloses_filter (level : Nat) (cs : List Char) :
    Overcloses level (cs.filter fun c => c = '(' || c = ')') ↔ Overcloses level cs := by
  induction cs generalizing level with
  | nil => exact Iff.rfl
  | cons c cs ih =>
    by_cases ho : c = '('
    · subst ho
      rw [List.filter_cons_of_pos (by decide), overcloses_opening, overcloses_opening, ih]
    by_cases hc : c = ')'
    · subst hc
      rw [List.filter_cons_of_pos (by decide)]
      cases level with
      | zero => exact iff_of_true (overcloses_closing_zero _) (overcloses_closing_zero _)
      | succ level => rw [overcloses_closing, overcloses_closing, ih]
    · rw [List.filter_cons_of_neg (by simp [ho, hc]), ih, overcloses_cons]
      refine exists_congr fun front => and_congr_right fun _ => ?_
      rw [List.count_cons_of_ne ho, List.count_cons_of_ne hc]

/-- The characters between tokens are blanks, and those of words are no parentheses: the text closes
too much just if its tokens do. -/
theorem Laid.overcloses_iff {p : Nat} {cs : List Char} {ts : List Token} (h : Laid p cs ts)
    (level : Nat) : Overcloses level (parentheses ts) ↔ Overcloses level cs := by
  rw [← h.filter_eq, overcloses_filter]

/-- Where an opening parenthesis starts, the text has it and goes on as the tokens after it do. -/
theorem Laid.opening_head {cs : List Char} {o : Token} {ts : List Token}
    (h : Laid o.start cs (o :: ts)) (opening : o.kind = .opening) :
    ∃ rest, cs = '(' :: rest ∧ Laid (o.start + 1) rest ts := by
  generalize hp : o.start = p at h
  cases h with
  | @opening _ gap rest _ _ more =>
    obtain rfl := List.length_eq_zero_iff.mp (Nat.add_eq_left.mp hp)
    exact ⟨rest, rfl, more⟩
  | closing => cases opening
  | run => exact absurd opening ofRun_ne.1

/-- So what follows an opening token decides whether it is unmatched in the text. -/
theorem Laid.unmatched_iff {cs : List Char} {before after : List Token} {o : Token}
    (h : Laid 0 cs (before ++ o :: after)) (opening : o.kind = .opening) :
    Unmatched cs o.start ↔ ¬ Overcloses 0 (parentheses after) := by
  obtain ⟨lead, _, rfl, hstart, hrest⟩ := h.drop
  obtain ⟨rest, rfl, more⟩ := hrest.opening_head opening
  rw [Nat.zero_add] at hstart
  rw [Unmatched, more.overcloses_iff, hstart, ← List.drop_drop, List.drop_left,
    List.getElem?_append_right (Nat.le_refl _), Nat.sub_self]
  exact and_iff_right rfl

/-! ## Places of blame -/

variable {text : List Char}

/-- A closing parenthesis may stand after some tokens: with one in its place and with further tokens
they are a condition within the bounds. -/
def AwaitsClosing (text : List Char) (before : List Token) : Prop :=
  ∃ cl rest c, cl.kind = .closing ∧ Expr text (before ++ cl :: rest) c ∧
    nesting (before ++ cl :: rest) ≤ maxNesting ∧ QuantitiesFit (before ++ cl :: rest)

/-- Among the tokens of a text a closing parenthesis stands, at a position, where those before it are
a condition within the bounds already. -/
inductive Surplus (text : List Char) : List Token → Nat → Prop
  | intro {before cl after c} (expr : Expr text before c) (room : nesting before ≤ maxNesting)
      (fit : QuantitiesFit before) (closing : cl.kind = .closing) :
      Surplus text (before ++ cl :: after) cl.start

/-- Among the tokens of a text a closing parenthesis may stand before the last ones, `rest`, but none
does: there the text ends, or a term begins. The parenthesis that it would close stands at a
position. -/
inductive LeftOpen (text : List Char) : List Token → Nat → List Token → Prop
  | intro {before o inside rest} (opening : o.kind = .opening)
      (closed : ¬ Unbalanced (parentheses inside))
      (awaits : AwaitsClosing text (before ++ o :: inside))
      (stops : ∀ t ∈ rest.head?, t.kind = .opening ∨ t.kind = .word)
      (apart : Apart (o :: inside) rest) :
      LeftOpen text (before ++ o :: (inside ++ rest)) o.start rest

/-- A closing parenthesis without an opening one shows that a text is unbalanced. -/
theorem Surplus.unbalanced {s : String} {position : Nat}
    (h : Surplus s.toList (tokens s) position) : Unbalanced s.toList := by
  have laid := laid_tokensFrom 0 s.toList
  rw [← tokens] at laid
  generalize tokens s = ts at h laid
  cases h with
  | intro expr _ _ closing =>
    refine .inl ((laid.overcloses_iff 0).mp ?_)
    rw [parentheses_append, overcloses_append expr.not_unbalanced, parentheses_closing closing]
    exact overcloses_closing_zero _

/-- A parenthesis that is left open at some token is unmatched just if no token after it closes too
much. -/
theorem LeftOpen.unmatched_iff {s : String} {position : Nat} {rest : List Token}
    (h : LeftOpen s.toList (tokens s) position rest) :
    Unmatched s.toList position ↔ ¬ Overcloses 0 (parentheses rest) := by
  have laid := laid_tokensFrom 0 s.toList
  rw [← tokens] at laid
  generalize tokens s = ts at h laid
  cases h with
  | intro opening closed =>
    rw [laid.unmatched_iff opening, parentheses_append, overcloses_append closed]

/-- The parenthesis that is open last is one only. -/
theorem opening_unique {a b x y : List Token} {o u : Token} (h : a ++ o :: x = b ++ u :: y)
    (opening : o.kind = .opening) (opening' : u.kind = .opening)
    (closed : ¬ Unbalanced (parentheses x)) (closed' : ¬ Unbalanced (parentheses y)) : o = u := by
  -- of two such parentheses the first has the second after it, which nothing closes
  have not_inside {x y z : List Token} {o : Token} (opening : o.kind = .opening)
      (closed : ¬ Unbalanced (parentheses x)) (closed' : ¬ Unbalanced (parentheses y)) :
      y ≠ z ++ o :: x := by
    rintro rfl
    rw [parentheses_append, parentheses_opening opening] at closed'
    exact closed' (unbalanced_of_open _ (not_unbalanced_iff.mp closed).1)
  rcases List.append_eq_append_iff.mp h with ⟨z, rfl, hz⟩ | ⟨z, rfl, hz⟩
  · cases z with
    | nil => exact (List.cons.inj hz).1
    | cons v z => exact absurd (List.cons.inj hz).2 (not_inside opening' closed' closed)
  · cases z with
    | nil => exact (List.cons.inj hz).1.symm
    | cons v z => exact absurd (List.cons.inj hz).2 (not_inside opening closed closed')

/-- Inside parentheses the reader's level is that of the parenthesis that is open last. -/
theorem Stack.opener_eq {before inside : List Token} {o : Token} {level around : Level}
    {outer : List Level} (h : Stack text (before ++ o :: inside) level (around :: outer) false)
    (opening : o.kind = .opening) (closed : ¬ Unbalanced (parentheses inside)) :
    level.opener = some o.start := by
  generalize hts : before ++ o :: inside = ts at h
  cases h with
  | inside _ opening' opened reads =>
    obtain ⟨_, close⟩ := reads.exists_close
    rw [opened, opening_unique hts opening opening' closed (reads.close close).not_unbalanced]

/-! ## The machine -/

/-- An item that only a term begins with. -/
def Item.StartsTerm : Item → Prop
  | .opening _ => True
  | .phrase _ _ => True
  | _ => False

/-- No parenthesis is blamed where a term is wanted. -/
theorem Reader.not_blamed_of_readTerm {r : Reader} {item : Item} {f : Fault} {position : Nat}
    (h : r.readTerm text item = .error (.fault f position)) :
    f ≠ .unclosed ∧ f ≠ .unexpectedClosing := by
  cases item with
  | phrase first more =>
    rcases bind_eq_error.mp h with h | ⟨_, _, h⟩
    · cases phraseError_of_readPhrase h <;> exact ⟨Fault.noConfusion, Fault.noConfusion⟩
    · cases h
  | opening =>
    simp only [readTerm] at h
    split at h <;> cases h
    exact ⟨Fault.noConfusion, Fault.noConfusion⟩
  | closing =>
    simp only [readTerm] at h
    split at h <;> cases h <;> exact ⟨Fault.noConfusion, Fault.noConfusion⟩
  | connective =>
    cases h
    exact ⟨Fault.noConfusion, Fault.noConfusion⟩

/-- A parenthesis is missed before a term that follows a term, inside a group. -/
theorem Reader.read_eq_unclosed_iff {r : Reader} {item : Item} {position : Nat} :
    r.read text item = .error (.fault .unclosed position) ↔
      r.wantsTerm = false ∧ r.level.opener = some position ∧ item.StartsTerm := by
  obtain ⟨⟨opener, connective, members⟩, outer, wantsTerm⟩ := r
  cases wantsTerm with
  | true =>
    exact iff_of_false (fun h => (not_blamed_of_readTerm h).1 rfl) fun h => Bool.noConfusion h.1
  | false =>
    simp only [read, Bool.false_eq_true, if_false, true_and]
    cases item with
    | phrase | opening =>
      cases opener <;> simp [readLink, Item.StartsTerm]
    | closing =>
      refine iff_of_false (fun h => ?_) (·.2)
      simp only [readLink] at h
      split at h <;> cases h
    | connective =>
      refine iff_of_false (fun h => ?_) (·.2)
      simp only [readLink] at h
      repeat' split at h
      all_goals cases h

/-- Or at the end, if a group is still open. -/
theorem Reader.finish_eq_unclosed_iff {r : Reader} {position : Nat} :
    r.finish text = .error (.fault .unclosed position) ↔
      r.wantsTerm = false ∧ r.level.opener = some position := by
  obtain ⟨⟨opener, connective, members⟩, outer, wantsTerm⟩ := r
  cases wantsTerm with
  | true => exact iff_of_false (fun h => by cases h) fun h => Bool.noConfusion h.1
  | false =>
    simp only [finish, Bool.false_eq_true, if_false, true_and]
    cases opener with
    | some => simp
    | none =>
      refine iff_of_false (fun h => ?_) fun h => Option.some_ne_none _ h.symm
      split at h
      · contradiction
      · cases h
      · cases h

/-- A closing parenthesis is unexpected after a term where no group is open. -/
theorem Reader.read_eq_unexpectedClosing_iff {r : Reader} {item : Item} {position : Nat} :
    r.read text item = .error (.fault .unexpectedClosing position) ↔
      r.wantsTerm = false ∧ item = .closing position ∧ (r.outer = [] ∨ r.level.close = none) := by
  obtain ⟨level, outer, wantsTerm⟩ := r
  cases wantsTerm with
  | true =>
    exact iff_of_false (fun h => (not_blamed_of_readTerm h).2 rfl) fun h => Bool.noConfusion h.1
  | false =>
    simp only [read, Bool.false_eq_true, if_false, true_and]
    cases item with
    | phrase | opening =>
      refine iff_of_false (fun h => ?_) fun h => Item.noConfusion h.1
      simp only [readLink] at h
      split at h <;> cases h
    | connective =>
      refine iff_of_false (fun h => ?_) fun h => Item.noConfusion h.1
      simp only [readLink] at h
      repeat' split at h
      all_goals cases h
    | closing p =>
      cases outer with
      | nil => simp [readLink]
      | cons => cases hclose : level.close <;> simp [readLink, hclose]

/-- A reader that rests inside parentheses, and goes on with no item or with one that a term begins
with, has left the parenthesis open. -/
theorem leftOpen_of_readAll {front back : List Token} {before after : List Item} {r : Reader}
    {position : Nat} (hfront : Cut front before) (hback : Cut back after)
    (apart : Apart front back) (run : Reader.start.readAll text before = .ok r)
    (rests : r.wantsTerm = false) (opener : r.level.opener = some position)
    (stops : ∀ item ∈ after.head?, item.StartsTerm) :
    LeftOpen text (front ++ back) position back := by
  have stack := (stack_start text).readAll hfront run
  rw [rests, List.nil_append] at stack
  obtain ⟨_, close⟩ := stack.exists_close
  obtain ⟨c, awaits⟩ := expr_of_closers hfront run rests close
  generalize r.level = level at stack opener close
  generalize r.outer = outer at stack awaits
  cases stack with
  | outermost top => cases top.symm.trans opener
  | inside around opening opened reads =>
    obtain rfl := Option.some.inj (opened.symm.trans opener)
    rw [List.append_assoc]
    refine .intro opening (reads.close close).not_unbalanced ⟨closer, _, c, rfl, awaits⟩ ?_
      apart.of_append
    cases hback with
    | nil => exact fun t ht => nomatch ht
    | opening kind => exact fun t ht => .inl (Option.some.inj ht ▸ kind)
    | phrase kind => exact fun t ht => .inr (Option.some.inj ht ▸ kind _ List.mem_cons_self)
    | closing | connective => exact (stops _ rfl).elim

/-- Where a closing parenthesis may stand, the tokens before are read, and the reader rests inside
parentheses. -/
theorem AwaitsClosing.readAll {before : List Token} (h : AwaitsClosing text before) :
    ∃ level around outer, Reader.start.readAll text (Item.ofTokens before) =
      .ok ⟨level, around :: outer, false⟩ := by
  obtain ⟨cl, rest, c, kind, expr, room, fit⟩ := h
  have ends : Ends (cl :: rest) := ends_cons (by simp [kind])
  obtain ⟨r, s, hr, run⟩ := expr.readAll_front room fit (apart_of_ends ends)
  rw [ofTokens_closing kind] at run
  obtain ⟨_, step, -⟩ := Reader.readAll_cons_eq_ok_iff.mp run
  cases step with
  | closing => exact ⟨_, _, _, hr⟩

/-! ## Texts -/

/-- A closing parenthesis is not expected exactly where the tokens before it are a condition. -/
theorem parse_eq_unexpectedClosing_iff {s : String} {position : Nat} :
    parse s = .error (.fault .unexpectedClosing position) ↔
      Surplus s.toList (tokens s) position := by
  constructor
  · intro h
    rcases error_of_parse h with ⟨-, h⟩ | h | ⟨r, -, h⟩
    · cases h
    · obtain ⟨before, item, after, r, hitems, hr, hread⟩ := Reader.readAll_eq_error_iff.mp h
      obtain ⟨rests, rfl, hend⟩ := Reader.read_eq_unexpectedClosing_iff.mp hread
      have cut := cut_ofTokens (tokens s)
      rw [hitems] at cut
      obtain ⟨front, back, hts, hfront, hback, -⟩ := cut.split
      have stack := (stack_start s.toList).readAll hfront hr
      rw [rests] at stack
      obtain ⟨_, close⟩ := stack.exists_close
      obtain ⟨c, expr, room, fit⟩ := expr_of_closers hfront hr rests close
      rw [hend.resolve_right (by simp [close]), List.length_nil, List.replicate_zero,
        List.append_nil] at expr room fit
      cases hback with
      | closing kind =>
        rw [hts]
        exact .intro expr room fit kind
    · unfold Reader.finish at h
      (repeat' split at h) <;> cases h
  · intro h
    generalize hts : tokens s = ts at h
    cases h with
    | @intro before cl after c expr room fit closing =>
      have fits : Fits [] before := ⟨room, fit⟩
      have ends : Ends (cl :: after) := ends_cons (by simp [closing])
      obtain ⟨level, -, -, run⟩ := expr.readAll none fits ends
      have hread : Reader.read s.toList ⟨level, [], false⟩ (.closing cl.start) =
          .error (.fault .unexpectedClosing cl.start) :=
        Reader.read_eq_unexpectedClosing_iff.mpr ⟨rfl, rfl, .inl rfl⟩
      have nonempty : tokens s ≠ [] := by
        rw [hts]
        exact List.append_ne_nil_of_right_ne_nil _ (List.cons_ne_nil _ _)
      rw [parse_of_tokens nonempty, hts]
      refine bind_eq_error.mpr (.inl (run.trans ?_))
      rw [ofTokens_closing closing]
      exact bind_eq_error.mpr (.inl hread)

/-- A closing parenthesis is missing exactly where one may stand and the text ends or a term
begins. -/
theorem parse_eq_unclosed_iff {s : String} {position : Nat} :
    parse s = .error (.fault .unclosed position) ↔
      ∃ rest, LeftOpen s.toList (tokens s) position rest := by
  constructor
  · intro h
    have cut := cut_ofTokens (tokens s)
    rcases error_of_parse h with ⟨-, h⟩ | h | ⟨r, hr, h⟩
    · cases h
    · obtain ⟨before, item, after, r, hitems, hr, hread⟩ := Reader.readAll_eq_error_iff.mp h
      obtain ⟨rests, opener, starts⟩ := Reader.read_eq_unclosed_iff.mp hread
      rw [hitems] at cut
      obtain ⟨front, back, hts, hfront, hback, apart⟩ := cut.split
      rw [hts]
      exact ⟨back, leftOpen_of_readAll hfront hback apart hr rests opener
        fun i hi => Option.some.inj hi ▸ starts⟩
    · obtain ⟨rests, opener⟩ := Reader.finish_eq_unclosed_iff.mp h
      have hopen := leftOpen_of_readAll cut .nil (apart_of_ends ends_nil) hr rests opener
        fun _ hi => nomatch hi
      rw [List.append_nil] at hopen
      exact ⟨[], hopen⟩
  · rintro ⟨rest, h⟩
    generalize hts : tokens s = ts at h
    cases h with
    | @intro before o inside _ opening closed awaits stops apart =>
      obtain ⟨level, around, outer, run⟩ := awaits.readAll
      have stack := (stack_start s.toList).readAll (cut_ofTokens _) run
      have opener := stack.opener_eq opening closed
      have hitems := ((cut_ofTokens (before ++ o :: inside)).append (cut_ofTokens rest)
        (apart.append (List.cons_ne_nil _ _) before)).items
      rw [List.append_assoc, List.cons_append] at hitems
      have nonempty : tokens s ≠ [] := by
        rw [hts]
        exact List.append_ne_nil_of_right_ne_nil _ (List.cons_ne_nil _ _)
      rw [parse_of_tokens nonempty, hts, hitems, Reader.readAll_append, run]
      have cut := cut_ofTokens rest
      generalize Item.ofTokens rest = items at cut
      have starts {item : Item} {items : List Item} (starts : item.StartsTerm) :
          Reader.readAll s.toList ⟨level, around :: outer, false⟩ (item :: items) =
            .error (.fault .unclosed o.start) :=
        bind_eq_error.mpr (.inl (Reader.read_eq_unclosed_iff.mpr ⟨rfl, opener, starts⟩))
      cases cut with
      | nil => exact Reader.finish_eq_unclosed_iff.mpr ⟨rfl, opener⟩
      | opening => exact bind_eq_error.mpr (.inl (starts trivial))
      | phrase => exact bind_eq_error.mpr (.inl (starts trivial))
      | closing kind | connective kind => rcases stops _ rfl with h | h <;> cases kind.symm.trans h

/-! ## Reasons -/

/-- Of the reasons for a refusal two speak of unbalanced parentheses. -/
theorem reason_iff (f : Fault) :
    "Unbalanced parentheses".toList <+: f.reason.toList ↔
      f = .unexpectedClosing ∨ f = .unclosed := by
  have apart {start rest : String}
      (h : ¬ ("Unbalanced parentheses".toList <+: start.toList ∨
        start.toList <+: "Unbalanced parentheses".toList)) :
      ¬ "Unbalanced parentheses".toList <+: (start ++ rest).toList := by
    intro hfront
    rw [String.toList_append] at hfront
    exact h (List.prefix_or_prefix_of_prefix hfront (List.prefix_append _ _))
  constructor
  · intro h
    unfold Fault.reason Fault.reasonBy at h
    cases f with
    | unexpectedClosing => exact .inl rfl
    | unclosed => exact .inr rfl
    | empty | missingCard | emptyGroup | missingName => exact absurd h (by decide)
    | trailing | missingCardBefore => exact absurd h (apart (by decide))
    | mixed | tooDeep | malformedQuantity =>
      simp only [String.append_assoc] at h
      exact absurd h (apart (by decide))
  · rintro (rfl | rfl)
    · exact List.prefix_append "Unbalanced parentheses".toList ": unexpected ')'".toList
    · exact List.prefix_append "Unbalanced parentheses".toList ": missing ')'".toList

/-- What the two reasons that speak of unbalanced parentheses are worth. A closing parenthesis is not
expected exactly where the tokens before it are a condition, and then the text is unbalanced. One is
missing exactly where it may stand and the text ends or a term begins; then the parenthesis at the
position is unmatched exactly if the rest of the text closes no more than it opens, and an unmatched
parenthesis unbalances the text. -/
theorem blame_for_parentheses (s : String) (position : Nat) :
    (∀ f : Fault, "Unbalanced parentheses".toList <+: f.reason.toList ↔
      f = .unexpectedClosing ∨ f = .unclosed) ∧
    (parse s = .error (.fault .unexpectedClosing position) ↔
      Surplus s.toList (tokens s) position) ∧
    (Surplus s.toList (tokens s) position → Unbalanced s.toList) ∧
    (parse s = .error (.fault .unclosed position) ↔
      ∃ rest, LeftOpen s.toList (tokens s) position rest) ∧
    (∀ rest, LeftOpen s.toList (tokens s) position rest →
      (Unmatched s.toList position ↔ ¬ Overcloses 0 (parentheses rest))) ∧
    (Unmatched s.toList position → Unbalanced s.toList) :=
  ⟨reason_iff, parse_eq_unexpectedClosing_iff, Surplus.unbalanced, parse_eq_unclosed_iff,
    fun _ => LeftOpen.unmatched_iff, Unmatched.unbalanced⟩

/-- Where the text ends before a parenthesis is closed, or goes on after one that closes none, the
blame is right. -/
theorem blamed_rightly : Unbalanced "(A".toList ∧ Unbalanced "A)".toList :=
  have ⟨_, _, _, _, _, unmatched⟩ := blame_for_parentheses "(A" 0
  have ⟨_, unexpected, surplus, _⟩ := blame_for_parentheses "A)" 1
  ⟨unmatched (by decide), surplus (unexpected.mp rfl)⟩

/-- A parenthesis is blamed although it is closed, in a text that is balanced: what is missing is a
connective. -/
theorem blamed_although_closed :
    parse "(A (B))" = .error (.fault .unclosed 0) ∧ ¬ Unbalanced "(A (B))".toList ∧
      ¬ Unmatched "(A (B))".toList 0 :=
  ⟨rfl, by decide, by decide⟩

end OpeningHand.Condition
