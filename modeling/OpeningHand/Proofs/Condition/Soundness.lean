import OpeningHand.Proofs.Condition.Phrase

/-!
# What the reader has read

The reader of conditions against the grammar, from left to right. `Reader.Step` lists what one item
can do to a reader. `Stack` says what the levels of a reader hold after some tokens: of every open
parenthesis the terms and the connective read since. Every step keeps that (`Stack.step`), so a
reader that ends well has read an expression (`Expr.of_parse`), and the room for levels and for
digits that it checks on the way bounds the tokens that it accepts.
-/

namespace OpeningHand.Condition

open Grammar

variable {text : List Char}

/-! ## Steps -/

/-- What an item does to a reader that takes it. -/
inductive Reader.Step (text : List Char) : Reader → Item → Reader → Prop
  | phrase {level outer first more test} (read : readPhrase text first more = .ok test) :
      Step text ⟨level, outer, true⟩ (.phrase first more)
        ⟨level.add (.card test), outer, false⟩
  | opening {level outer position} (room : outer.length < maxNesting) :
      Step text ⟨level, outer, true⟩ (.opening position)
        ⟨.new (some position), level :: outer, true⟩
  | link {opener members outer k position} :
      Step text ⟨⟨opener, none, members⟩, outer, false⟩ (.connective k position)
        ⟨⟨opener, some k, members⟩, outer, true⟩
  | relink {opener members outer k position} :
      Step text ⟨⟨opener, some k, members⟩, outer, false⟩ (.connective k position)
        ⟨⟨opener, some k, members⟩, outer, true⟩
  | closing {inner level outer c position} (close : inner.close = some c) :
      Step text ⟨inner, level :: outer, false⟩ (.closing position)
        ⟨level.add c, outer, false⟩

theorem Reader.step_of_read {r r' : Reader} {item : Item} (h : r.read text item = .ok r') :
    Step text r item r' := by
  obtain ⟨level, outer, wantsTerm⟩ := r
  cases wantsTerm with
  | true =>
    simp only [Reader.read, if_true] at h
    cases item with
    | phrase first more =>
      obtain ⟨test, hread, h⟩ := bind_eq_ok.mp h
      cases h
      exact .phrase hread
    | opening position =>
      simp only [Reader.readTerm] at h
      split at h
      next => cases h
      next hroom =>
        cases h
        exact .opening (Nat.not_le.mp hroom)
    | closing position =>
      simp only [Reader.readTerm] at h
      split at h <;> cases h
    | connective k position => cases h
  | false =>
    simp only [Reader.read, Bool.false_eq_true, if_false] at h
    obtain ⟨opener, connective, members⟩ := level
    cases item with
    | phrase first more =>
      simp only [Reader.readLink] at h
      split at h <;> cases h
    | opening position =>
      simp only [Reader.readLink] at h
      split at h <;> cases h
    | closing position =>
      simp only [Reader.readLink] at h
      split at h
      next level' outer' c hclose =>
        cases h
        exact .closing hclose
      next => cases h
    | connective k position =>
      cases connective with
      | none =>
        cases h
        exact .link
      | some first =>
        simp only [Reader.readLink] at h
        split at h
        next hfirst =>
          cases h
          subst hfirst
          exact .relink
        next => cases h

theorem Reader.Step.read {r r' : Reader} {item : Item} (h : Step text r item r') :
    r.read text item = .ok r' := by
  cases h with
  | phrase read =>
    simp only [Reader.read, if_true, Reader.readTerm, read]
    rfl
  | opening room =>
    simp only [Reader.read, if_true, Reader.readTerm, if_neg (Nat.not_le.mpr room)]
  | link => rfl
  | relink => simp only [Reader.read, Bool.false_eq_true, if_false, Reader.readLink, if_true]
  | closing close =>
    simp only [Reader.read, Bool.false_eq_true, if_false, Reader.readLink, close]

/-- What one item can do. -/
theorem Reader.read_eq_ok_iff {r r' : Reader} {item : Item} :
    r.read text item = .ok r' ↔ Step text r item r' :=
  ⟨step_of_read, Step.read⟩

theorem Reader.readAll_cons_eq_ok_iff {r r' : Reader} {item : Item} {items : List Item} :
    r.readAll text (item :: items) = .ok r' ↔
      ∃ s, Step text r item s ∧ s.readAll text items = .ok r' := by
  rw [Reader.readAll, bind_eq_ok]
  simp only [read_eq_ok_iff]

/-! ## Levels -/

/-- What a level holds after some tokens that were read at it, and whether a term must follow. -/
inductive Level.Reads (text : List Char) : List Token → Level → Bool → Prop
  | fresh {opener} : Reads text [] ⟨opener, none, []⟩ true
  | single {opener ts c} (term : Term text ts c) : Reads text ts ⟨opener, none, [c]⟩ false
  | linked {opener k ts cs link} (joined : Joined text k ts cs)
      (kind : link.kind = .connective k) :
      Reads text (ts ++ [link]) ⟨opener, some k, cs.reverse⟩ true
  | joined {opener k ts cs} (joined : Joined text k ts cs) (two : 2 ≤ cs.length) :
      Reads text ts ⟨opener, some k, cs.reverse⟩ false

theorem Grammar.Joined.length_pos {k : Connective} {ts : List Token} {cs : List Condition}
    (h : Joined text k ts cs) : 1 ≤ cs.length := by
  cases h with
  | one => exact Nat.le_refl 1
  | next => simp

/-- A term goes where one must come. -/
theorem Level.Reads.add {ts more : List Token} {level : Level} {c : Condition}
    (h : level.Reads text ts true) (term : Term text more c) :
    (level.add c).Reads text (ts ++ more) false := by
  cases h with
  | fresh => exact .single term
  | @linked opener k ts cs link joined kind =>
    have two : 2 ≤ (cs ++ [c]).length := by
      rw [List.length_append, List.length_singleton]
      exact Nat.succ_le_succ joined.length_pos
    have hreads := @Reads.joined text opener k _ _ (joined.next kind term) two
    rw [List.reverse_append] at hreads
    rwa [List.append_assoc]

/-- The end of a level after a term makes an expression of it. -/
theorem Level.Reads.close {ts : List Token} {level : Level} {c : Condition}
    (h : level.Reads text ts false) (close : level.close = some c) : Expr text ts c := by
  cases h with
  | single term =>
    cases close
    exact .single term
  | joined joined two =>
    simp only [Level.close, List.reverse_reverse, Option.some.injEq] at close
    exact close ▸ .group joined two

/-- A level after a term amounts to something. -/
theorem Level.Reads.exists_close {ts : List Token} {level : Level}
    (h : level.Reads text ts false) : ∃ c, level.close = some c := by
  cases h with
  | single => exact ⟨_, rfl⟩
  | joined => exact ⟨_, rfl⟩

/-- What a reader's levels hold after some tokens: the innermost and those around it. -/
inductive Stack (text : List Char) : List Token → Level → List Level → Bool → Prop
  | outermost {ts level wantsTerm} (top : level.opener = none)
      (reads : level.Reads text ts wantsTerm) : Stack text ts level [] wantsTerm
  | inside {before o ts level inner outer wantsTerm} (around : Stack text before level outer true)
      (opening : o.kind = .opening) (opened : inner.opener = some o.start)
      (reads : inner.Reads text ts wantsTerm) :
      Stack text (before ++ o :: ts) inner (level :: outer) wantsTerm

/-- Before the first token there is one level, with nothing on it. -/
theorem stack_start (text : List Char) :
    Stack text [] Reader.start.level Reader.start.outer Reader.start.wantsTerm :=
  .outermost rfl .fresh

theorem Stack.exists_close {ts : List Token} {level : Level} {outer : List Level}
    (h : Stack text ts level outer false) : ∃ c, level.close = some c := by
  cases h with
  | outermost _ reads => exact reads.exists_close
  | inside _ _ _ reads => exact reads.exists_close

/-- The innermost level may be read further; what lies around it stays. -/
theorem Stack.extend {ts : List Token} {level : Level} {outer : List Level} {wantsTerm : Bool}
    (h : Stack text ts level outer wantsTerm) {more : List Token} {level' : Level}
    {wantsTerm' : Bool} (opener : level'.opener = level.opener)
    (reads : ∀ here, level.Reads text here wantsTerm →
      level'.Reads text (here ++ more) wantsTerm') :
    Stack text (ts ++ more) level' outer wantsTerm' := by
  cases h with
  | outermost top here => exact .outermost (opener ▸ top) (reads _ here)
  | inside around opening opened here =>
    rw [List.append_assoc, List.cons_append]
    exact .inside around opening (opener.trans opened) (reads _ here)

/-- Reading on keeps what the levels hold: the tokens of an item join what was read before it. -/
theorem Stack.readAll {ts : List Token} {items : List Item} (cut : Cut ts items) :
    ∀ {before : List Token} {r r' : Reader}, Stack text before r.level r.outer r.wantsTerm →
      r.readAll text items = .ok r' →
      Stack text (before ++ ts) r'.level r'.outer r'.wantsTerm := by
  induction cut with
  | nil =>
    intro before r r' h run
    cases run
    rwa [List.append_nil]
  | opening kind _ ih =>
    intro before r r' h run
    obtain ⟨s, step, run⟩ := Reader.readAll_cons_eq_ok_iff.mp run
    cases step with
    | opening room =>
      rw [List.append_cons]
      exact ih (.inside h kind rfl .fresh) run
  | @closing t ts items kind _ ih =>
    intro before r r' h run
    obtain ⟨s, step, run⟩ := Reader.readAll_cons_eq_ok_iff.mp run
    cases step with
    | @closing inner level outer c _ close =>
      cases h with
      | @inside before o here _ _ _ _ around opening opened reads =>
        -- with the token that opened the level, its tokens are a term of the level around it
        have term := Term.parentheses opening (reads.close close) kind
        have hadd : Stack text (before ++ (o :: (here ++ [t]))) (level.add c) outer false :=
          around.extend rfl fun _ outside => outside.add term
        have hall := ih (r := ⟨level.add c, outer, false⟩) hadd run
        rw [List.append_assoc, List.cons_append] at hall ⊢
        rw [List.append_assoc] at hall
        exact hall
  | @connective t k ts items kind _ ih =>
    intro before r r' h run
    obtain ⟨s, step, run⟩ := Reader.readAll_cons_eq_ok_iff.mp run
    rw [List.append_cons]
    cases step with
    | @link opener members outer =>
      refine ih (r := ⟨⟨opener, some k, members⟩, outer, true⟩) ?_ run
      refine h.extend rfl fun here reads => ?_
      cases reads with
      | single term => exact .linked (.one term) kind
    | @relink opener members outer =>
      refine ih (r := ⟨⟨opener, some k, members⟩, outer, true⟩) ?_ run
      refine h.extend rfl fun here reads => ?_
      cases reads with
      | joined joined _ => exact .linked joined kind
  | phrase kind _ _ ih =>
    intro before r r' h run
    obtain ⟨s, step, run⟩ := Reader.readAll_cons_eq_ok_iff.mp run
    cases step with
    | @phrase level outer _ _ test read =>
      have term := Term.leaf kind (readPhrase_eq_ok_iff.mp read).1
      rw [← List.cons_append, ← List.append_assoc]
      refine ih (r := ⟨level.add (.card test), outer, false⟩) ?_ run
      exact h.extend rfl fun _ reads => reads.add term

/-- A reader that ends well has read an expression. -/
theorem Stack.finish {ts : List Token} {r : Reader} {c : Condition}
    (h : Stack text ts r.level r.outer r.wantsTerm) (done : r.finish text = .ok c) :
    Expr text ts c := by
  obtain ⟨⟨opener, connective, members⟩, outer, wantsTerm⟩ := r
  cases wantsTerm with
  | true => cases done
  | false =>
    cases h with
    | outermost top reads =>
      cases top
      simp only [Reader.finish, Bool.false_eq_true, if_false] at done
      split at done
      next => contradiction
      next hclose =>
        cases done
        exact reads.close hclose
      next => cases done
    | inside _ _ opened _ =>
      cases opened
      cases done

/-! ## Bounds -/

/-- A reader that has room for its levels keeps within it. -/
theorem Reader.deepest_le {ts : List Token} {items : List Item} (cut : Cut ts items) :
    ∀ {r r' : Reader}, r.outer.length ≤ maxNesting → r.readAll text items = .ok r' →
      deepestFrom r.outer.length ts ≤ maxNesting := by
  induction cut with
  | nil =>
    intro r r' room _
    exact room
  | opening kind _ ih =>
    intro r r' room run
    obtain ⟨s, step, run⟩ := readAll_cons_eq_ok_iff.mp run
    cases step with
    | opening less =>
      have := ih (r := ⟨_, _ :: _, true⟩) (Nat.succ_le_of_lt less) run
      simp only [deepestFrom, levelAfter, kind]
      exact Nat.max_le.mpr ⟨room, this⟩
  | closing kind _ ih =>
    intro r r' room run
    obtain ⟨s, step, run⟩ := readAll_cons_eq_ok_iff.mp run
    cases step with
    | closing close =>
      have := ih (r := ⟨_, _, false⟩) (Nat.le_of_succ_le room) run
      simp only [deepestFrom, levelAfter, kind, List.length_cons, Nat.add_sub_cancel]
      exact Nat.max_le.mpr ⟨room, this⟩
  | connective kind _ ih =>
    intro r r' room run
    obtain ⟨s, step, run⟩ := readAll_cons_eq_ok_iff.mp run
    simp only [deepestFrom, levelAfter, kind]
    cases step with
    | link => exact Nat.max_le.mpr ⟨room, ih (r := ⟨_, _, true⟩) room run⟩
    | relink => exact Nat.max_le.mpr ⟨room, ih (r := ⟨_, _, true⟩) room run⟩
  | phrase kind _ _ ih =>
    intro r r' room run
    obtain ⟨s, step, run⟩ := readAll_cons_eq_ok_iff.mp run
    cases step with
    | phrase read =>
      rw [← List.cons_append, balanced_words kind, Nat.add_zero]
      exact Nat.max_le.mpr ⟨room, ih (r := ⟨_, _, false⟩) room run⟩

/-- The quantities that a reader takes have few enough digits. -/
theorem Reader.quantitiesFit {ts : List Token} {items : List Item} (cut : Cut ts items) :
    ∀ {r r' : Reader}, r.readAll text items = .ok r' → QuantitiesFit ts := by
  induction cut with
  | nil =>
    intro r r' _
    exact quantitiesFit_nil
  | opening kind _ ih =>
    intro r r' run
    obtain ⟨s, -, run⟩ := readAll_cons_eq_ok_iff.mp run
    exact (quantitiesFit_cons (by simp [kind])).mpr (ih run)
  | closing kind _ ih =>
    intro r r' run
    obtain ⟨s, -, run⟩ := readAll_cons_eq_ok_iff.mp run
    exact (quantitiesFit_cons (by simp [kind])).mpr (ih run)
  | connective kind _ ih =>
    intro r r' run
    obtain ⟨s, -, run⟩ := readAll_cons_eq_ok_iff.mp run
    exact (quantitiesFit_cons (by simp [kind])).mpr (ih run)
  | phrase kind ends _ ih =>
    intro r r' run
    obtain ⟨s, step, run⟩ := readAll_cons_eq_ok_iff.mp run
    cases step with
    | phrase read =>
      rw [← List.cons_append, quantitiesFit_append ends, quantitiesFit_words kind]
      exact ⟨(readPhrase_eq_ok_iff.mp read).2, ih run⟩

/-! ## Texts -/

/-- A text without tokens is empty. -/
theorem parse_of_no_tokens {s : String} (h : tokens s = []) :
    parse s = .error (.fault .empty 0) := by
  rw [parse, h]
  rfl

/-- The tokens of a text go through the reader as items. -/
theorem parse_of_tokens {s : String} (h : tokens s ≠ []) :
    parse s = Reader.start.readAll s.toList (Item.ofTokens (tokens s)) >>=
      fun r => r.finish s.toList := by
  have cut := cut_ofTokens (tokens s)
  rw [parse]
  split
  next hitems =>
    rw [hitems] at cut
    generalize tokens s = ts at h cut
    cases cut
    exact absurd rfl h
  next hitems => rw [hitems]

/-- A text that is read goes through the reader with the items of its tokens. -/
theorem parse_eq_ok_iff_readAll {s : String} {c : Condition} :
    parse s = .ok c ↔ ∃ r, Reader.start.readAll s.toList (Item.ofTokens (tokens s)) = .ok r ∧
      r.finish s.toList = .ok c := by
  by_cases hnil : tokens s = []
  · rw [parse_of_no_tokens hnil, hnil]
    refine ⟨(nomatch ·), fun ⟨r, hr, hc⟩ => ?_⟩
    cases hr
    cases hc
  · rw [parse_of_tokens hnil]
    exact bind_eq_ok

/-- What a text is read as, the grammar derives from its tokens, and they keep to the bounds. -/
theorem expr_of_parse {s : String} {c : Condition} (h : parse s = .ok c) :
    Expr s.toList (tokens s) c ∧ nesting (tokens s) ≤ maxNesting ∧ QuantitiesFit (tokens s) := by
  obtain ⟨r, run, done⟩ := parse_eq_ok_iff_readAll.mp h
  have cut := cut_ofTokens (tokens s)
  have room : Reader.start.outer.length ≤ maxNesting := Nat.zero_le _
  exact ⟨((stack_start s.toList).readAll cut run).finish done, Reader.deepest_le cut room run,
    Reader.quantitiesFit cut run⟩

end OpeningHand.Condition
