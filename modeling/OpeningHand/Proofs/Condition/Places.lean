import Mathlib.Data.List.Chain
import OpeningHand.Proofs.Condition.Layout

/-!
# Tokens by their places

What the tokens of a text are, said of places in the text and without following its reading:
`Lexing` asks that they stand in order and apart, that all between and around them is blank, and
that nothing which belongs together is cut. There is one such list of tokens for every text, the one
that reading gives (`tokens_eq_iff_lexing`). Since a token can be told from its characters alone,
one space between neighbours writes the same tokens again.
-/

namespace OpeningHand.Condition

variable {text : List Char} {t : Token} {ts : List Token} {p : Nat}

/-- Characters spell a token of a kind: no blank is among them, a parenthesis is all there is, and
they alone tell the kind. -/
structure Spells (chars : List Char) (kind : TokenKind) : Prop where
  noBlank : ∀ c ∈ chars, Text.isBlank c = false
  openingAlone : '(' ∈ chars → chars = ['(']
  closingAlone : ')' ∈ chars → chars = [')']
  opening : kind = .opening ↔ chars = ['(']
  closing : kind = .closing ↔ chars = [')']
  connective : ∀ k : Connective, kind = .connective k ↔ chars = k.word.toList

namespace Token

/-- A parenthesis. -/
def IsParenthesis (t : Token) : Prop :=
  t.chars = ['('] ∨ t.chars = [')']

/-- A token in its text, from a position on: it is not empty, and its characters are those that the
text has from its start to its stop. -/
structure StandsIn (text : List Char) (p : Nat) (t : Token) : Prop where
  start : p ≤ t.start
  nonempty : t.start < t.stop
  stop : t.stop ≤ text.length
  chars : t.chars = text.extract t.start t.stop

/-- A position is inside a token. -/
def Covers (t : Token) (i : Nat) : Prop :=
  t.start ≤ i ∧ i < t.stop

end Token

/-- A blank stands in the text from one position up to another. -/
def BlankBetween (text : List Char) (start stop : Nat) : Prop :=
  ∃ i, start ≤ i ∧ i < stop ∧ ∃ c ∈ text[i]?, Text.isBlank c = true

/-- Tokens are those of a text from a position on. They stand in order without overlapping, what no
token covers is blank, and neighbours of which none is a parenthesis have a blank between them. -/
structure Lexing (text : List Char) (p : Nat) (ts : List Token) : Prop where
  stands : ∀ t ∈ ts, t.StandsIn text p
  spells : ∀ t ∈ ts, Spells t.chars t.kind
  ordered : ts.Pairwise fun t u => t.stop ≤ u.start
  outside : ∀ i, p ≤ i → (∀ t ∈ ts, ¬ t.Covers i) → ∀ c ∈ text[i]?, Text.isBlank c = true
  apart : ts.IsChain fun t u =>
    t.IsParenthesis ∨ u.IsParenthesis ∨ BlankBetween text t.stop u.start

/-! ## One token -/

theorem spells_opening : Spells ['('] .opening :=
  ⟨List.forall_mem_singleton.mpr rfl, by decide, by decide, by decide, by decide,
    fun k => by cases k <;> decide⟩

theorem spells_closing : Spells [')'] .closing :=
  ⟨List.forall_mem_singleton.mpr rfl, by decide, by decide, by decide, by decide,
    fun k => by cases k <;> decide⟩

theorem spells_run {w : List Char} (inner : ∀ c ∈ w, isInner c = true) : Spells w (.ofRun w) := by
  have free := not_mem_of_inner inner
  have hne {c : Char} (hc : c ∉ w) : w ≠ [c] := fun h => hc (h ▸ List.mem_singleton_self c)
  exact ⟨fun c hc => isBlank_of_isInner (inner c hc), fun h => absurd h free.1,
    fun h => absurd h free.2, iff_of_false ofRun_ne.1 (hne free.1),
    iff_of_false ofRun_ne.2 (hne free.2), fun _ => ofRun_eq_connective_iff⟩

theorem Token.not_isParenthesis (inner : ∀ c ∈ t.chars, isInner c = true) : ¬ t.IsParenthesis := by
  have free := not_mem_of_inner inner
  rintro (h | h)
  · exact free.1 (h ▸ List.mem_singleton_self '(')
  · exact free.2 (h ▸ List.mem_singleton_self ')')

/-- What spells a token is a parenthesis or a run. -/
theorem Spells.cases {w : List Char} {kind : TokenKind} (h : Spells w kind) :
    (w = ['('] ∧ kind = .opening) ∨ (w = [')'] ∧ kind = .closing) ∨
      ((∀ c ∈ w, isInner c = true) ∧ kind = .ofRun w) := by
  by_cases ho : '(' ∈ w
  · exact .inl ⟨h.openingAlone ho, h.opening.mpr (h.openingAlone ho)⟩
  by_cases hc : ')' ∈ w
  · exact .inr (.inl ⟨h.closingAlone hc, h.closing.mpr (h.closingAlone hc)⟩)
  refine .inr (.inr ⟨fun c hmem => ?_, ?_⟩)
  · rcases char_cases c with rfl | rfl | hb | hi
    · exact absurd hmem ho
    · exact absurd hmem hc
    · cases (h.noBlank c hmem).symm.trans hb
    · exact hi
  · cases kind with
    | opening => exact absurd (h.opening.mp rfl ▸ List.mem_singleton_self '(') ho
    | closing => exact absurd (h.closing.mp rfl ▸ List.mem_singleton_self ')') hc
    | connective k => exact (ofRun_eq_connective_iff.mpr ((h.connective k).mp rfl)).symm
    | word =>
      refine (ofRun_eq_word_iff.mpr fun k hk => ?_).symm
      cases (h.connective k).mpr hk

/-- Before a blank or the end, characters that spell a token are read as it. -/
theorem Spells.tokensFrom {w : List Char} {kind : TokenKind} (h : Spells w kind) (ne : w ≠ [])
    {rest : List Char} (ends : EndsRun rest) (p : Nat) :
    tokensFrom p [] (w ++ rest) =
      ⟨kind, w, p, p + w.length⟩ :: Condition.tokensFrom (p + w.length) [] rest := by
  rcases h.cases with ⟨rfl, rfl⟩ | ⟨rfl, rfl⟩ | ⟨inner, rfl⟩
  · exact tokensFrom_opening p [] rest
  · exact tokensFrom_closing p [] rest
  · exact tokensFrom_run ne inner ends p

/-! ## The tokens of a text one by one -/

theorem lexing_nil_iff : Lexing text p [] ↔ ∀ c ∈ text.drop p, Text.isBlank c = true := by
  constructor
  · intro h c hc
    obtain ⟨j, hj⟩ := List.mem_iff_getElem?.mp hc
    rw [List.getElem?_drop] at hj
    exact h.outside (p + j) (Nat.le_add_right p j) (List.forall_mem_nil _) c hj
  · intro h
    refine ⟨List.forall_mem_nil _, List.forall_mem_nil _, .nil, fun i hi _ c hc => ?_, .nil⟩
    refine h c (List.mem_iff_getElem?.mpr ⟨i - p, ?_⟩)
    rw [List.getElem?_drop, Nat.add_sub_cancel' hi]
    exact hc

/-- A first token: it stands after blanks alone, and the others stand from its stop on, the next one
apart from it. -/
theorem lexing_cons_iff : Lexing text p (t :: ts) ↔
    t.StandsIn text p ∧ Spells t.chars t.kind ∧ (∀ c ∈ text.extract p t.start, Text.isBlank c = true) ∧
      (∀ u ∈ ts.head?, t.IsParenthesis ∨ u.IsParenthesis ∨ BlankBetween text t.stop u.start) ∧
      Lexing text t.stop ts := by
  constructor
  · intro h
    obtain ⟨ht, hts⟩ := List.forall_mem_cons.mp h.stands
    obtain ⟨spells, more⟩ := List.forall_mem_cons.mp h.spells
    obtain ⟨first, ordered⟩ := List.pairwise_cons.mp h.ordered
    have := ht.start
    have := ht.nonempty
    obtain ⟨next, apart⟩ := List.isChain_cons.mp h.apart
    refine ⟨ht, spells, fun c hc => ?_, next, ?_⟩
    · obtain ⟨j, hj⟩ := List.mem_iff_getElem?.mp hc
      rw [List.getElem?_take] at hj
      split at hj
      next hlt =>
        rw [List.getElem?_drop] at hj
        refine h.outside (p + j) (Nat.le_add_right p j) (List.forall_mem_cons.mpr ⟨?_, ?_⟩) c hj
        · intro covers
          have := covers.1
          omega
        · intro u hu covers
          have := covers.1
          have := first u hu
          omega
      next => cases hj
    · refine ⟨fun u hu => { hts u hu with start := first u hu }, more, ordered,
        fun i hi free c hc => ?_, apart⟩
      refine h.outside i (by omega) (List.forall_mem_cons.mpr ⟨?_, free⟩) c hc
      exact fun covers => absurd covers.2 (Nat.not_lt.mpr hi)
  · intro h
    obtain ⟨ht, spells, blank, next, more⟩ := h
    have := ht.start
    have := ht.nonempty
    refine ⟨List.forall_mem_cons.mpr ⟨ht, fun u hu => ?_⟩,
      List.forall_mem_cons.mpr ⟨spells, more.spells⟩,
      List.pairwise_cons.mpr ⟨fun u hu => (more.stands u hu).start, more.ordered⟩,
      fun i hi free c hc => ?_, List.isChain_cons.mpr ⟨next, more.apart⟩⟩
    · have := (more.stands u hu).start
      exact { more.stands u hu with start := by omega }
    · obtain ⟨hout, free⟩ := List.forall_mem_cons.mp free
      by_cases hbefore : i < t.start
      · refine blank c (List.mem_iff_getElem?.mpr ⟨i - p, ?_⟩)
        rw [List.getElem?_take, if_pos (by omega), List.getElem?_drop, Nat.add_sub_cancel' hi]
        exact hc
      · exact more.outside i (Nat.not_lt.mp fun hlt => hout ⟨Nat.not_lt.mp hbefore, hlt⟩) free c hc

/-- Where a token stands, the text goes on with what is before the token, the token and the rest. -/
theorem Token.StandsIn.drop_eq (h : t.StandsIn text p) :
    text.drop p = text.extract p t.start ++ (t.chars ++ text.drop t.stop) ∧
      p + (text.extract p t.start).length = t.start ∧ t.start + t.chars.length = t.stop := by
  have hstart := h.start
  have hnonempty := h.nonempty
  have hstop := h.stop
  have cut {i j : Nat} (hij : i ≤ j) : text.drop i = text.extract i j ++ text.drop j := by
    rw [List.extract_eq_take_drop]
    conv_lhs => rw [← List.take_append_drop (j - i) (text.drop i)]
    rw [List.drop_drop, Nat.add_sub_cancel' hij]
  have size {i j : Nat} (hij : i ≤ j) (hj : j ≤ text.length) :
      i + (text.extract i j).length = j := by
    rw [List.extract_eq_take_drop, List.length_take, List.length_drop]
    omega
  rw [h.chars]
  exact ⟨by rw [← cut hnonempty.le, ← cut hstart], size hstart (by omega), size hnonempty.le hstop⟩

/-- What is cut off a text after a gap and a token. -/
theorem standsIn_of_drop_eq {gap w rest : List Char} (ne : w ≠ [])
    (h : text.drop p = gap ++ (w ++ rest)) (kind : TokenKind) :
    Token.StandsIn text p ⟨kind, w, p + gap.length, p + gap.length + w.length⟩ ∧
      text.extract p (p + gap.length) = gap ∧ text.drop (p + gap.length + w.length) = rest := by
  have hstart : text.drop (p + gap.length) = w ++ rest := by
    rw [← List.drop_drop, h, List.drop_left]
  have hstop : text.drop (p + gap.length + w.length) = rest := by
    rw [← List.drop_drop, hstart, List.drop_left]
  have hpos : 0 < w.length := List.length_pos_iff.mpr ne
  have hlen := congrArg List.length h
  rw [List.length_drop, List.length_append, List.length_append] at hlen
  refine ⟨⟨Nat.le_add_right _ _, Nat.lt_add_of_pos_right hpos, by dsimp only; omega, ?_⟩, ?_, hstop⟩
  · rw [List.extract_eq_take_drop, hstart, Nat.add_sub_cancel_left, List.take_left]
  · rw [List.extract_eq_take_drop, h, Nat.add_sub_cancel_left, List.take_left]

/-- Between a run and the next token there is a parenthesis or a blank. -/
theorem Laid.apart {rest : List Char} (h : Laid p rest ts) (ends : EndsRun rest)
    (place : text.drop p = rest) :
    ∀ u ∈ ts.head?, u.IsParenthesis ∨ BlankBetween text p u.start := by
  intro u hu
  cases h with
  | done => cases hu
  | opening => cases hu; exact .inl (.inl rfl)
  | closing => cases hu; exact .inl (.inr rfl)
  | @run _ gap w rest ts blank ne inner =>
    cases hu
    right
    cases gap with
    | nil =>
      obtain ⟨c, w, rfl⟩ := List.exists_cons_of_ne_nil ne
      cases (ends c rfl).symm.trans (inner c List.mem_cons_self)
    | cons c gap =>
      refine ⟨p, Nat.le_refl p, Nat.lt_add_of_pos_right (Nat.succ_pos _), c, ?_,
        blank c List.mem_cons_self⟩
      have hplace : (text.drop p)[0]? = text[p + 0]? := List.getElem?_drop
      rw [place] at hplace
      exact hplace.symm

/-- A run that stands apart from the next token has come to its end. -/
theorem Lexing.ends (h : Lexing text p ts)
    (apart : ∀ u ∈ ts.head?, u.IsParenthesis ∨ BlankBetween text p u.start) :
    EndsRun (text.drop p) := by
  cases ts with
  | nil =>
    intro c hc
    exact isInner_of_blank (lexing_nil_iff.mp h c (List.mem_of_mem_head? hc))
  | cons u ts =>
    obtain ⟨stands, -, blank, -⟩ := lexing_cons_iff.mp h
    obtain ⟨hdrop, hstart, -⟩ := stands.drop_eq
    rw [hdrop]
    generalize text.extract p u.start = gap at blank hstart
    cases gap with
    | cons c gap => exact endsRun_cons (isInner_of_blank (blank c List.mem_cons_self))
    | nil =>
      rcases apart u rfl with (hparen | hparen) | ⟨i, hle, hlt, -⟩
      · exact hparen ▸ endsRun_cons (by decide)
      · exact hparen ▸ endsRun_cons (by decide)
      · rw [List.length_nil] at hstart
        omega

/-- Tokens are those of a text by their places exactly if they lie in it. The induction is on the
tokens; what is left of the text after one is what lies after it. -/
theorem lexing_iff_laid : ∀ {p : Nat} {ts : List Token},
    Lexing text p ts ↔ Laid p (text.drop p) ts := by
  intro p ts
  induction ts generalizing p with
  | nil =>
    rw [lexing_nil_iff]
    generalize text.drop p = cs
    exact ⟨.done, fun | .done blank => blank⟩
  | cons t ts ih =>
    rw [lexing_cons_iff, ih]
    constructor
    · intro h
      obtain ⟨stands, spells, blank, next, more⟩ := h
      obtain ⟨hdrop, hstart, hstop⟩ := stands.drop_eq
      have ends : t.IsParenthesis ∨ EndsRun (text.drop t.stop) :=
        or_iff_not_imp_left.mpr fun hparen =>
          (ih.mpr more).ends fun u hu => (next u hu).resolve_left hparen
      rw [hdrop]
      generalize text.extract p t.start = gap at blank hstart
      obtain ⟨kind, w, start, stop⟩ := t
      dsimp only at spells hstart hstop ends more ⊢
      subst hstart hstop
      rcases spells.cases with ⟨rfl, rfl⟩ | ⟨rfl, rfl⟩ | ⟨inner, rfl⟩
      · exact .opening blank more
      · exact .closing blank more
      · have ne : w ≠ [] := List.length_pos_iff.mp (Nat.lt_add_right_iff_pos.mp stands.nonempty)
        exact .run blank ne inner (ends.resolve_left (Token.not_isParenthesis inner)) more
    · intro h
      generalize hdrop : text.drop p = cs at h
      cases h with
      | @opening _ gap rest _ blank more =>
        obtain ⟨stands, hgap, hrest⟩ := standsIn_of_drop_eq (List.cons_ne_nil '(' []) hdrop .opening
        exact ⟨stands, spells_opening, hgap.symm ▸ blank, fun _ _ => .inl (.inl rfl),
          hrest.symm ▸ more⟩
      | @closing _ gap rest _ blank more =>
        obtain ⟨stands, hgap, hrest⟩ := standsIn_of_drop_eq (List.cons_ne_nil ')' []) hdrop .closing
        exact ⟨stands, spells_closing, hgap.symm ▸ blank, fun _ _ => .inl (.inr rfl),
          hrest.symm ▸ more⟩
      | @run _ gap w rest _ blank ne inner ends more =>
        obtain ⟨stands, hgap, hrest⟩ := standsIn_of_drop_eq ne hdrop (.ofRun w)
        exact ⟨stands, spells_run inner, hgap.symm ▸ blank,
          fun u hu => .inr (more.apart ends hrest u hu), hrest.symm ▸ more⟩

/-! ## Tokens with single spaces -/

/-- The tokens of a text with one space between neighbours. -/
def respaced (text : String) : String :=
  String.ofList (List.intercalate [' '] ((tokens text).map Token.chars))

/-- Whatever spells tokens spells them again with single spaces. -/
theorem lexemes_intercalate (h : ∀ t ∈ ts, t.chars ≠ [] ∧ Spells t.chars t.kind) : ∀ p : Nat,
    (tokensFrom p [] (List.intercalate [' '] (ts.map Token.chars))).map (fun t => (t.kind, t.chars)) =
      ts.map fun t => (t.kind, t.chars) := by
  have hblank : Text.isBlank ' ' = true := by decide
  induction ts with
  | nil => intro p; rfl
  | cons t ts ih =>
    intro p
    obtain ⟨⟨ne, spells⟩, more⟩ := List.forall_mem_cons.mp h
    cases ts with
    | nil =>
      have := spells.tokensFrom ne endsRun_nil p
      rw [List.append_nil] at this
      simp only [List.map_cons, List.map_nil, List.intercalate_singleton, this]
      rfl
    | cons u ts =>
      have hjoin : List.intercalate [' '] ((t :: u :: ts).map Token.chars) =
          t.chars ++ ' ' :: List.intercalate [' '] ((u :: ts).map Token.chars) :=
        List.intercalate_cons_cons.trans (List.append_assoc ..)
      rw [hjoin, spells.tokensFrom ne (endsRun_cons (isInner_of_blank hblank)),
        tokensFrom_blank hblank, Token.ofRun, List.nil_append, List.map_cons, ih more]
      rfl

/-- The tokens of a text are the only list that tells the text's words and parentheses apart by
their places. With one space between neighbours they are the same tokens again, but for their
places. -/
theorem tokens_eq_iff_lexing (text : String) :
    (∀ ts, tokens text = ts ↔ Lexing text.toList 0 ts) ∧
      lexemes (respaced text) = lexemes text := by
  have hlexing : ∀ ts, tokens text = ts ↔ Lexing text.toList 0 ts := fun ts => by
    rw [lexing_iff_laid, List.drop_zero, laid_iff, tokens]
  have h := (hlexing _).mp rfl
  refine ⟨hlexing, ?_⟩
  rw [lexemes, respaced, tokens, String.toList_ofList]
  refine lexemes_intercalate (fun t ht => ⟨?_, h.spells t ht⟩) 0
  obtain ⟨-, -, hlen⟩ := (h.stands t ht).drop_eq
  have := (h.stands t ht).nonempty
  rintro hnil
  rw [hnil, List.length_nil] at hlen
  omega

/-- A connective is told from a word by the whole run, and a wide space is a blank. -/
example : tokens "A AND(ANDY\u3000B)" = [⟨.word, ['A'], 0, 1⟩, ⟨.connective .and, ['A', 'N', 'D'], 2, 5⟩,
    ⟨.opening, ['('], 5, 6⟩, ⟨.word, ['A', 'N', 'D', 'Y'], 6, 10⟩, ⟨.word, ['B'], 11, 12⟩,
    ⟨.closing, [')'], 12, 13⟩] := by
  decide

end OpeningHand.Condition
