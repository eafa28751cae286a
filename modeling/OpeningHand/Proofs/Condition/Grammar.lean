import OpeningHand.Condition.Parser

/-!
# The grammar of conditions

Which lists of tokens write a condition, and which one. `Expr` is one term, or two and more terms
with the same connective between neighbours; `Term` is an expression in parentheses, which add no
node of their own, or the words of a card test. Two card tests never stand side by side in a
derivation, so the words of each are all the words there are at that place.

The grammar knows no bounds. How deep parentheses nest (`nesting`) and which digits stand as a
quantity (`IsQuantity`) are read off the tokens, whether or not a derivation exists.
-/

namespace OpeningHand.Condition.Grammar

/-! ## Card tests -/

/-- Decimal digits, at least one. -/
def IsNumeral (cs : List Char) : Prop :=
  cs ≠ [] ∧ ∀ c ∈ cs, Text.isDecimal c = true

/-- Digits and then a plus sign, with anything after it. -/
def StartsLeast (cs : List Char) : Prop :=
  ∃ digits rest, IsNumeral digits ∧ cs = digits ++ '+' :: rest

/-- The card test that some words write, by the form of the first: digits and a plus sign, digits
alone before a further word, or anything else that does not start with digits and a plus sign. -/
inductive Words (text : List Char) : List Token → CardTest → Prop
  | atLeast {first second more digits} (numeral : IsNumeral digits)
      (lead : first.chars = digits ++ ['+']) :
      Words text (first :: second :: more)
        ⟨slice text second more, Text.decimalValue digits, .atLeast⟩
  | exactly {first second more} (numeral : IsNumeral first.chars) :
      Words text (first :: second :: more)
        ⟨slice text second more, Text.decimalValue first.chars, .exactly⟩
  | named {first more} (free : ¬ StartsLeast first.chars)
      (lone : IsNumeral first.chars → more = []) :
      Words text (first :: more) ⟨slice text first more, 1, .exactly⟩

/-! ## Conditions -/

mutual

/-- The tokens of a condition: one term, or at least two joined by one connective. -/
inductive Expr (text : List Char) : List Token → Condition → Prop
  | single {ts c} (term : Term text ts c) : Expr text ts c
  | group {k ts cs} (joined : Joined text k ts cs) (two : 2 ≤ cs.length) :
      Expr text ts (.group k cs)

/-- The tokens of terms with the connective `k` between neighbours, and what each term is. -/
inductive Joined (text : List Char) : Connective → List Token → List Condition → Prop
  | one {k ts c} (term : Term text ts c) : Joined text k ts [c]
  | next {k ts cs link more c} (joined : Joined text k ts cs)
      (kind : link.kind = .connective k) (term : Term text more c) :
      Joined text k (ts ++ link :: more) (cs ++ [c])

/-- The tokens of an expression in parentheses, or the words of a card test. -/
inductive Term (text : List Char) : List Token → Condition → Prop
  | parentheses {o ts cl c} (opening : o.kind = .opening) (inner : Expr text ts c)
      (closing : cl.kind = .closing) : Term text (o :: (ts ++ [cl])) c
  | leaf {ts test} (words : ∀ t ∈ ts, t.kind = .word) (writes : Words text ts test) :
      Term text ts (.card test)

end

/-! ## Bounds -/

/-- The level of parentheses after a token. -/
def levelAfter (level : Nat) (t : Token) : Nat :=
  match t.kind with
  | .opening => level + 1
  | .closing => level - 1
  | _ => level

/-- The deepest level that is reached from a level on. -/
def deepestFrom (level : Nat) : List Token → Nat
  | [] => level
  | t :: ts => max level (deepestFrom (levelAfter level t) ts)

/-- How deep the parentheses of some tokens nest. -/
def nesting (ts : List Token) : Nat :=
  deepestFrom 0 ts

/-- The digits of a word that reads as a quantity, with or without a plus sign. -/
def IsCount (word digits : List Char) : Prop :=
  IsNumeral digits ∧ (word = digits ∨ word = digits ++ ['+'])

/-- Digits that stand as a quantity: those of the first word of a run, if a further word follows. -/
def IsQuantity (ts : List Token) (digits : List Char) : Prop :=
  ∃ before first second after, ts = before ++ first :: second :: after ∧
    (∀ t ∈ before.getLast?, t.kind ≠ .word) ∧ first.kind = .word ∧ second.kind = .word ∧
    IsCount first.chars digits

/-- No quantity has more digits than a numeral may have. -/
def QuantitiesFit (ts : List Token) : Prop :=
  ∀ digits, IsQuantity ts digits → digits.length ≤ Number.maxDigits

/-! ## Nesting of balanced tokens -/

theorem le_deepestFrom (level : Nat) (ts : List Token) : level ≤ deepestFrom level ts := by
  cases ts with
  | nil => exact Nat.le_refl _
  | cons t ts => exact Nat.le_max_left _ _

/-- The tokens nest `depth` deep and end at the level they start at, wherever they stand. -/
def Balanced (depth : Nat) (ts : List Token) : Prop :=
  ∀ level rest, deepestFrom level (ts ++ rest) = max (level + depth) (deepestFrom level rest)

theorem Balanced.nesting_eq {depth : Nat} {ts : List Token} (h : Balanced depth ts) :
    nesting ts = depth := by
  have := h 0 []
  rw [List.append_nil] at this
  simp only [nesting, this, deepestFrom]
  omega

theorem balanced_nil : Balanced 0 [] := by
  intro level rest
  have := le_deepestFrom level rest
  rw [List.nil_append]
  omega

/-- Words and connectives do not nest. -/
theorem Balanced.cons_flat {depth : Nat} {t : Token} {ts : List Token} (h : Balanced depth ts)
    (opening : t.kind ≠ .opening) (closing : t.kind ≠ .closing) : Balanced depth (t :: ts) := by
  intro level rest
  have hlevel : levelAfter level t = level := by
    simp only [levelAfter]
  have := le_deepestFrom level rest
  rw [List.cons_append, deepestFrom, hlevel, h level rest]
  omega

theorem balanced_words {ts : List Token} (h : ∀ t ∈ ts, t.kind = .word) : Balanced 0 ts := by
  induction ts with
  | nil => exact balanced_nil
  | cons t ts ih =>
    have ht := h t List.mem_cons_self
    exact (ih fun u hu => h u (List.mem_cons_of_mem _ hu)).cons_flat (by simp [ht]) (by simp [ht])

theorem Balanced.append {d e : Nat} {a b : List Token} (ha : Balanced d a) (hb : Balanced e b) :
    Balanced (max d e) (a ++ b) := by
  intro level rest
  rw [List.append_assoc, ha, hb]
  omega

theorem Balanced.parentheses {d : Nat} {ts : List Token} {o cl : Token} (h : Balanced d ts)
    (opening : o.kind = .opening) (closing : cl.kind = .closing) :
    Balanced (d + 1) (o :: (ts ++ [cl])) := by
  intro level rest
  have := le_deepestFrom level rest
  rw [List.cons_append, List.append_assoc, deepestFrom, h]
  simp only [levelAfter, opening, closing, List.singleton_append, deepestFrom,
    Nat.add_sub_cancel]
  omega

mutual

/-- A condition's tokens are balanced. -/
theorem Expr.balanced {text : List Char} {ts : List Token} {c : Condition} :
    Expr text ts c → ∃ depth, Balanced depth ts
  | .single term => term.balanced
  | .group joined _ => joined.balanced

theorem Joined.balanced {text : List Char} {k : Connective} {ts : List Token}
    {cs : List Condition} : Joined text k ts cs → ∃ depth, Balanced depth ts
  | .one term => term.balanced
  | .next joined kind term => by
    obtain ⟨d, hd⟩ := joined.balanced
    obtain ⟨e, he⟩ := term.balanced
    exact ⟨_, hd.append (he.cons_flat (by simp [kind]) (by simp [kind]))⟩

theorem Term.balanced {text : List Char} {ts : List Token} {c : Condition} :
    Term text ts c → ∃ depth, Balanced depth ts
  | .parentheses opening inner closing => by
    obtain ⟨d, hd⟩ := inner.balanced
    exact ⟨_, hd.parentheses opening closing⟩
  | .leaf words _ => ⟨_, balanced_words words⟩

end

/-! ## Quantities of parts -/

theorem quantitiesFit_nil : QuantitiesFit [] := by
  intro digits hyp
  obtain ⟨before, first, second, after, h, -⟩ := hyp
  simp at h

/-- A token that is no word divides the quantities before it from those after it. -/
theorem isQuantity_divided {a b : List Token} {link : Token} {digits : List Char}
    (h : link.kind ≠ .word) :
    IsQuantity (a ++ link :: b) digits ↔ IsQuantity a digits ∨ IsQuantity b digits := by
  constructor
  · intro h
    obtain ⟨before, first, second, after, heq, hlast, hfirst, hsecond, hcount⟩ := h
    rcases List.append_eq_append_iff.mp heq with ⟨a', rfl, hb⟩ | ⟨a', rfl, hb⟩
    · -- the quantity stands after the dividing token, which `before` then holds
      cases a' with
      | nil =>
        obtain ⟨rfl, -⟩ := List.cons.inj hb
        exact absurd hfirst h
      | cons x a' =>
        obtain ⟨rfl, rfl⟩ := List.cons.inj hb
        refine .inr ⟨a', first, second, after, rfl, fun t ht => hlast t ?_, hfirst, hsecond,
          hcount⟩
        cases a' with
        | nil => cases ht
        | cons y a' => simpa using ht
    · cases a' with
      | nil =>
        obtain ⟨rfl, -⟩ := List.cons.inj hb
        exact absurd hfirst h
      | cons x a' =>
        obtain ⟨rfl, htail⟩ := List.cons.inj hb
        cases a' with
        | nil =>
          obtain ⟨rfl, -⟩ := List.cons.inj htail
          exact absurd hsecond h
        | cons y a' =>
          obtain ⟨rfl, rfl⟩ := List.cons.inj htail
          exact .inl ⟨before, first, second, a', rfl, hlast, hfirst, hsecond, hcount⟩
  · rintro (⟨before, first, second, after, rfl, hlast, hfirst, hsecond, hcount⟩ |
      ⟨before, first, second, after, rfl, hlast, hfirst, hsecond, hcount⟩)
    · exact ⟨before, first, second, after ++ link :: b, by simp, hlast, hfirst, hsecond, hcount⟩
    · refine ⟨a ++ link :: before, first, second, after, by simp, ?_, hfirst, hsecond, hcount⟩
      intro t ht
      cases before with
      | nil =>
        have : link = t := by simpa using ht
        exact this ▸ h
      | cons x before => exact hlast t (by simpa using ht)

theorem quantitiesFit_divided {a b : List Token} {link : Token} (h : link.kind ≠ .word) :
    QuantitiesFit (a ++ link :: b) ↔ QuantitiesFit a ∧ QuantitiesFit b := by
  constructor
  · intro fit
    exact ⟨fun ds hds => fit ds ((isQuantity_divided h).mpr (.inl hds)),
      fun ds hds => fit ds ((isQuantity_divided h).mpr (.inr hds))⟩
  · rintro ⟨ha, hb⟩ ds hds
    rcases (isQuantity_divided h).mp hds with hds | hds
    · exact ha ds hds
    · exact hb ds hds

/-- A token that is no word has no part in a quantity. -/
theorem quantitiesFit_cons {ts : List Token} {t : Token} (h : t.kind ≠ .word) :
    QuantitiesFit (t :: ts) ↔ QuantitiesFit ts := by
  have := quantitiesFit_divided (a := []) (b := ts) h
  rw [List.nil_append] at this
  rw [this]
  exact and_iff_right quantitiesFit_nil

/-- Quantities may be looked for on either side of a place where no run of words goes on. -/
theorem quantitiesFit_append {a b : List Token} (h : ∀ t ∈ b.head?, t.kind ≠ .word) :
    QuantitiesFit (a ++ b) ↔ QuantitiesFit a ∧ QuantitiesFit b := by
  cases b with
  | nil =>
    rw [List.append_nil]
    exact (and_iff_left quantitiesFit_nil).symm
  | cons t b =>
    have ht := h t rfl
    rw [quantitiesFit_divided ht, quantitiesFit_cons ht]

theorem quantitiesFit_parentheses {ts : List Token} {o cl : Token} (opening : o.kind = .opening)
    (closing : cl.kind = .closing) : QuantitiesFit (o :: (ts ++ [cl])) ↔ QuantitiesFit ts := by
  rw [quantitiesFit_cons (by simp [opening]), quantitiesFit_divided (by simp [closing])]
  exact and_iff_left quantitiesFit_nil

/-- Of some words alone only the first may be a quantity. -/
theorem quantitiesFit_words {first : Token} {more : List Token}
    (words : ∀ t ∈ first :: more, t.kind = .word) :
    QuantitiesFit (first :: more) ↔
      ∀ digits, IsCount first.chars digits → more ≠ [] → digits.length ≤ Number.maxDigits := by
  constructor
  · intro fit digits hcount hmore
    cases more with
    | nil => exact absurd rfl hmore
    | cons second more =>
      exact fit digits ⟨[], first, second, more, rfl, by simp, words _ List.mem_cons_self,
        words _ (List.mem_cons_of_mem _ List.mem_cons_self), hcount⟩
  · intro fit digits h
    obtain ⟨before, first', second, after, heq, hlast, -, -, hcount⟩ := h
    cases before with
    | nil =>
      obtain ⟨rfl, rfl⟩ := List.cons.inj heq
      exact fit digits hcount (List.cons_ne_nil _ _)
    | cons x before =>
      -- a word stands before the first word of a run
      have hmem := List.getLast_mem (List.cons_ne_nil x before)
      have hword := words _ (heq ▸ List.mem_append_left _ hmem)
      exact absurd hword (hlast _ (List.getLast?_eq_some_getLast (List.cons_ne_nil x before)))

end OpeningHand.Condition.Grammar
