import OpeningHand.Proofs.Condition.Soundness

/-!
# What the reader reads

The grammar of conditions against the reader. The tokens of a term take a reader that wants one to
a reader with the term as one more member, whatever follows them (`Term.readAll`), as long as there
is room for their parentheses and their quantities fit. The induction is on derivations, with one
law for each kind of derivation.

With `expr_of_parse` this makes the grammar and its bounds exactly what a text is read by
(`parse_iff_expr`). A derivation that nests too deep is refused for that reason and no other
(`parse_too_deep`).
-/

namespace OpeningHand.Condition

open Grammar

variable {text : List Char}

/-! ## Nesting of parts -/

/-- Past a link the level is the one that the joined terms started at. -/
theorem Grammar.Joined.deepestFrom_link {k : Connective} {ts more : List Token}
    {cs : List Condition} {link : Token} (h : Joined text k ts cs)
    (kind : link.kind = .connective k) (level : Nat) :
    deepestFrom level (ts ++ link :: more) =
      max (deepestFrom level ts) (deepestFrom level more) := by
  obtain ⟨depth, hdepth⟩ := h.balanced
  have hts := hdepth level []
  have hle := le_deepestFrom level more
  rw [List.append_nil, deepestFrom] at hts
  rw [hdepth, hts]
  simp only [deepestFrom, levelAfter, kind]
  omega

/-- Inside of parentheses is one level deeper. -/
theorem Grammar.Expr.deepestFrom_parentheses {ts : List Token} {c : Condition} {o cl : Token}
    (h : Expr text ts c) (opening : o.kind = .opening) (closing : cl.kind = .closing)
    (level : Nat) :
    deepestFrom level (o :: (ts ++ [cl])) = deepestFrom (level + 1) ts := by
  obtain ⟨depth, hdepth⟩ := h.balanced
  have hts := hdepth (level + 1) []
  rw [List.append_nil, deepestFrom] at hts
  rw [deepestFrom, levelAfter, opening, hdepth, hts]
  simp only [deepestFrom, levelAfter, closing, Nat.add_sub_cancel]
  omega

/-! ## Items of parts -/

theorem ofTokens_opening {t : Token} (kind : t.kind = .opening) (ts : List Token) :
    Item.ofTokens (t :: ts) = .opening t.start :: Item.ofTokens ts :=
  (Cut.opening kind (cut_ofTokens ts)).items

theorem ofTokens_closing {t : Token} (kind : t.kind = .closing) (ts : List Token) :
    Item.ofTokens (t :: ts) = .closing t.start :: Item.ofTokens ts :=
  (Cut.closing kind (cut_ofTokens ts)).items

theorem ofTokens_connective {t : Token} {k : Connective} (kind : t.kind = .connective k)
    (ts : List Token) : Item.ofTokens (t :: ts) = .connective k t.start :: Item.ofTokens ts :=
  (Cut.connective kind (cut_ofTokens ts)).items

theorem ofTokens_phrase {first : Token} {words ts : List Token}
    (kind : ∀ t ∈ first :: words, t.kind = .word) (ends : ∀ t ∈ ts.head?, t.kind ≠ .word) :
    Item.ofTokens (first :: (words ++ ts)) = .phrase first words :: Item.ofTokens ts :=
  (Cut.phrase kind ends (cut_ofTokens ts)).items

theorem Reader.Step.readAll {r s : Reader} {item : Item} (h : Step text r item s)
    (items : List Item) : r.readAll text (item :: items) = s.readAll text items := by
  rw [Reader.readAll, h.read]
  rfl

/-! ## Reading derivations -/

/-- A level that some terms joined by `k` were read at, and nothing else. -/
def Level.ofJoined (opener : Option Nat) (k : Connective) (cs : List Condition) : Level :=
  ⟨opener, if 2 ≤ cs.length then some k else none, cs.reverse⟩

/-- A link goes after joined terms, whether or not it is the first. -/
theorem Level.ofJoined_link {opener : Option Nat} {k : Connective} {cs : List Condition}
    {outer : List Level} {position : Nat} :
    Reader.Step text ⟨.ofJoined opener k cs, outer, false⟩ (.connective k position)
      ⟨⟨opener, some k, cs.reverse⟩, outer, true⟩ := by
  unfold Level.ofJoined
  split
  next => exact .relink
  next => exact .link

theorem Level.ofJoined_add {opener : Option Nat} {k : Connective} {cs : List Condition}
    {c : Condition} (pos : 1 ≤ cs.length) :
    Level.add ⟨opener, some k, cs.reverse⟩ c = .ofJoined opener k (cs ++ [c]) := by
  have two : 2 ≤ (cs ++ [c]).length := by
    rw [List.length_append, List.length_singleton]
    exact Nat.succ_le_succ pos
  rw [Level.ofJoined, if_pos two, List.reverse_append]
  rfl

/-- Tokens at some levels of parentheses, with room for their own and quantities that fit. -/
structure Fits (outer : List Level) (ts : List Token) : Prop where
  room : deepestFrom outer.length ts ≤ maxNesting
  quantities : QuantitiesFit ts

/-- What is left to read does not go on with a word. -/
def Ends (rest : List Token) : Prop :=
  ∀ t ∈ rest.head?, t.kind ≠ .word

theorem ends_nil : Ends [] := by
  intro t ht
  cases ht

theorem ends_cons {t : Token} {rest : List Token} (h : t.kind ≠ .word) : Ends (t :: rest) := by
  intro u hu
  rw [List.head?_cons, Option.mem_some_iff] at hu
  exact hu ▸ h

theorem Fits.joined {outer : List Level} {k : Connective} {ts more : List Token}
    {cs : List Condition} {link : Token} (joined : Joined text k ts cs)
    (kind : link.kind = .connective k) (h : Fits outer (ts ++ link :: more)) :
    Fits outer ts ∧ Fits outer more := by
  have hroom := h.room
  rw [joined.deepestFrom_link kind] at hroom
  obtain ⟨hts, hmore⟩ := Nat.max_le.mp hroom
  obtain ⟨qts, qmore⟩ := (quantitiesFit_divided (by simp [kind])).mp h.quantities
  exact ⟨⟨hts, qts⟩, ⟨hmore, qmore⟩⟩

theorem Fits.parentheses {outer : List Level} (level : Level) {ts : List Token} {c : Condition}
    {o cl : Token} (inner : Expr text ts c) (opening : o.kind = .opening)
    (closing : cl.kind = .closing) (h : Fits outer (o :: (ts ++ [cl]))) :
    outer.length < maxNesting ∧ Fits (level :: outer) ts := by
  have hroom := h.room
  rw [inner.deepestFrom_parentheses opening closing] at hroom
  exact ⟨(le_deepestFrom _ ts).trans hroom, hroom,
    (quantitiesFit_parentheses opening closing).mp h.quantities⟩

mutual

/-- An expression fills a fresh level, which then amounts to it. -/
theorem Grammar.Expr.readAll {ts rest : List Token} {c : Condition} (opener : Option Nat)
    {outer : List Level} : Expr text ts c → Fits outer ts → Ends rest →
      ∃ level, level.opener = opener ∧ level.close = some c ∧
        Reader.readAll text ⟨.new opener, outer, true⟩ (Item.ofTokens (ts ++ rest)) =
          Reader.readAll text ⟨level, outer, false⟩ (Item.ofTokens rest)
  | .single term, fits, ends => ⟨_, rfl, rfl, term.readAll fits ends⟩
  | .group joined two, fits, ends => by
    refine ⟨_, rfl, ?_, joined.readAll fits ends⟩
    simp only [Level.ofJoined, if_pos two, Level.close, List.reverse_reverse]

/-- Joined terms fill a fresh level, in order. -/
theorem Grammar.Joined.readAll {k : Connective} {ts rest : List Token} {cs : List Condition}
    {opener : Option Nat} {outer : List Level} :
    Joined text k ts cs → Fits outer ts → Ends rest →
      Reader.readAll text ⟨.new opener, outer, true⟩ (Item.ofTokens (ts ++ rest)) =
        Reader.readAll text ⟨.ofJoined opener k cs, outer, false⟩ (Item.ofTokens rest)
  | .one term, fits, ends => term.readAll fits ends
  | .next joined kind term, fits, ends => by
    obtain ⟨fitsJoined, fitsTerm⟩ := fits.joined joined kind
    rw [List.append_assoc, List.cons_append,
      joined.readAll fitsJoined (ends_cons (by simp [kind])), ofTokens_connective kind,
      Level.ofJoined_link.readAll, term.readAll fitsTerm ends,
      Level.ofJoined_add joined.length_pos]

/-- A term where one must come is one member more. -/
theorem Grammar.Term.readAll {ts rest : List Token} {c : Condition} {level : Level}
    {outer : List Level} : Term text ts c → Fits outer ts → Ends rest →
      Reader.readAll text ⟨level, outer, true⟩ (Item.ofTokens (ts ++ rest)) =
        Reader.readAll text ⟨level.add c, outer, false⟩ (Item.ofTokens rest)
  | @Term.parentheses _ o _ cl _ opening inner closing, fits, ends => by
    obtain ⟨room, fitsInner⟩ := fits.parentheses level inner opening closing
    have closing_ends : Ends (cl :: rest) := ends_cons (by simp [closing])
    obtain ⟨_, _, hclose, hinner⟩ :=
      inner.readAll (some o.start) fitsInner closing_ends
    rw [List.cons_append, List.append_assoc, ofTokens_opening opening,
      (Reader.Step.opening room).readAll, List.singleton_append, hinner, ofTokens_closing closing,
      (Reader.Step.closing hclose).readAll]
  | @Term.leaf _ (first :: more) _ words writes, fits, ends => by
    have digits := (quantitiesFit_words words).mp fits.quantities
    have hread := readPhrase_eq_ok_iff.mpr ⟨writes, digits⟩
    rw [List.cons_append, ofTokens_phrase words ends, (Reader.Step.phrase hread).readAll]

end

/-! ## Too deep -/

mutual

/-- An expression whose parentheses nest too deep ends the reading. -/
theorem Grammar.Expr.readAll_too_deep {ts rest : List Token} {c : Condition}
    (opener : Option Nat) {outer : List Level} : Expr text ts c → outer.length ≤ maxNesting →
      maxNesting < deepestFrom outer.length ts → QuantitiesFit ts → Ends rest → ∃ position,
        Reader.readAll text ⟨.new opener, outer, true⟩ (Item.ofTokens (ts ++ rest)) =
          .error (.fault .tooDeep position)
  | .single term, room, deep, fit, ends => term.readAll_too_deep room deep fit ends
  | .group joined _, room, deep, fit, ends => joined.readAll_too_deep room deep fit ends

theorem Grammar.Joined.readAll_too_deep {k : Connective} {ts rest : List Token}
    {cs : List Condition} {opener : Option Nat} {outer : List Level} :
    Joined text k ts cs → outer.length ≤ maxNesting →
      maxNesting < deepestFrom outer.length ts → QuantitiesFit ts → Ends rest → ∃ position,
        Reader.readAll text ⟨.new opener, outer, true⟩ (Item.ofTokens (ts ++ rest)) =
          .error (.fault .tooDeep position)
  | .one term, room, deep, fit, ends => term.readAll_too_deep room deep fit ends
  | @Joined.next _ _ ts _ link more _ joined kind term, room, deep, fit, ends => by
    have link_ends {rest : List Token} : Ends (link :: rest) := ends_cons (by simp [kind])
    obtain ⟨fitJoined, fitTerm⟩ := (quantitiesFit_divided (by simp [kind])).mp fit
    rw [joined.deepestFrom_link kind] at deep
    rw [List.append_assoc, List.cons_append]
    by_cases hjoined : maxNesting < deepestFrom outer.length ts
    · exact joined.readAll_too_deep room hjoined fitJoined link_ends
    · -- there is room for the terms up to the link, so the last one goes too deep
      have hterm : maxNesting < deepestFrom outer.length more := by omega
      rw [joined.readAll ⟨Nat.not_lt.mp hjoined, fitJoined⟩ link_ends, ofTokens_connective kind,
        Level.ofJoined_link.readAll]
      exact term.readAll_too_deep room hterm fitTerm ends

theorem Grammar.Term.readAll_too_deep {ts rest : List Token} {c : Condition} {level : Level}
    {outer : List Level} : Term text ts c → outer.length ≤ maxNesting →
      maxNesting < deepestFrom outer.length ts → QuantitiesFit ts → Ends rest → ∃ position,
        Reader.readAll text ⟨level, outer, true⟩ (Item.ofTokens (ts ++ rest)) =
          .error (.fault .tooDeep position)
  | @Term.parentheses _ o ts _ _ opening inner closing, room, deep, fit, ends => by
    rw [inner.deepestFrom_parentheses opening closing] at deep
    have fitInner := (quantitiesFit_parentheses opening closing).mp fit
    rw [List.cons_append, List.append_assoc, ofTokens_opening opening]
    rcases Nat.lt_or_eq_of_le room with less | full
    · rw [(Reader.Step.opening less).readAll]
      have roomInner : (level :: outer).length ≤ maxNesting := less
      have deepInner : maxNesting < deepestFrom (level :: outer).length ts := deep
      exact inner.readAll_too_deep (some o.start) roomInner deepInner fitInner (ends_cons (by simp [closing]))
    · refine ⟨o.start, ?_⟩
      simp only [Reader.readAll, Reader.read, Reader.readTerm, full, Nat.le_refl, if_true]
      rfl
  | .leaf words _, room, deep, _, _ => by
    have hflat := balanced_words words outer.length []
    rw [List.append_nil, deepestFrom] at hflat
    omega

end

/-! ## Texts -/

/-- What the grammar derives from a text's tokens within the bounds, the text is read as. -/
theorem parse_of_expr {s : String} {c : Condition} (h : Expr s.toList (tokens s) c)
    (room : nesting (tokens s) ≤ maxNesting) (fit : QuantitiesFit (tokens s)) :
    parse s = .ok c := by
  have fits : Fits [] (tokens s) := ⟨room, fit⟩
  obtain ⟨level, opener, close, run⟩ := h.readAll none fits ends_nil
  rw [List.append_nil] at run
  refine parse_eq_ok_iff_readAll.mpr ⟨_, run, ?_⟩
  simp only [Reader.finish, Bool.false_eq_true, if_false, opener, close]

/-- A text that the grammar derives, but with too deep parentheses, is refused for that. -/
theorem parse_too_deep {s : String} {c : Condition} (h : Expr s.toList (tokens s) c)
    (deep : maxNesting < nesting (tokens s)) (fit : QuantitiesFit (tokens s)) :
    ∃ position, parse s = .error (.fault .tooDeep position) := by
  have room : ([] : List Level).length ≤ maxNesting := Nat.zero_le _
  obtain ⟨position, run⟩ := h.readAll_too_deep none room deep fit ends_nil
  rw [List.append_nil] at run
  refine ⟨position, ?_⟩
  rw [parse]
  split
  next hnil =>
    rw [hnil] at run
    cases run
  next hitems =>
    rw [hitems] at run
    exact bind_eq_error.mpr (.inl run)

/-- A text is read as a condition exactly if the grammar derives it from the text's tokens, their
parentheses nest no deeper than the limit, and no quantity has more digits than a numeral may
have. -/
theorem parse_iff_expr (s : String) (c : Condition) :
    parse s = .ok c ↔
      Expr s.toList (tokens s) c ∧ nesting (tokens s) ≤ maxNesting ∧ QuantitiesFit (tokens s) :=
  ⟨expr_of_parse, fun ⟨h, room, fit⟩ => parse_of_expr h room fit⟩

end OpeningHand.Condition
