import OpeningHand.Condition.Printer
import OpeningHand.Proofs.Condition.Tree

/-!
# How a printed condition reads

The text of a condition, wherever it stands in a longer text, reads as one term of the grammar, and
the term is what the condition collapses to (`term_chars`). Its parentheses nest as deep as the
condition's groups, so the limit on the one is a limit on the other.

The induction is on the condition. A test needs care at two places: the number before its name must
not join the name, and a name without a number must not lend its first word to one.
-/

namespace OpeningHand.Condition

open Grammar

variable {text : List Char}

/-! ## Numbers before names -/

theorem isInner_of_decimal {c : Char} (h : Text.isDecimal c = true) : isInner c = true := by
  have ho : Text.isDecimal '(' = false := by decide
  have hc : Text.isDecimal ')' = false := by decide
  rcases char_cases c with rfl | rfl | hb | hi
  · exact absurd (ho.symm.trans h) Bool.false_ne_true
  · exact absurd (hc.symm.trans h) Bool.false_ne_true
  · exact absurd ((Text.isDecimal_of_blank hb).symm.trans h) Bool.false_ne_true
  · exact hi

/-- A word that starts with a digit is no connective. -/
theorem ofRun_of_decimal {c : Char} {w : List Char} (h : Text.isDecimal c = true) :
    TokenKind.ofRun (c :: w) = .word := by
  have hA : Text.isDecimal 'A' = false := by decide
  have hO : Text.isDecimal 'O' = false := by decide
  refine ofRun_eq_word_iff.mpr fun k hk => ?_
  cases k with
  | and =>
    rw [(List.cons.inj (hk.trans and_word_toList)).1, hA] at h
    cases h
  | or =>
    rw [(List.cons.inj (hk.trans or_word_toList)).1, hO] at h
    cases h

theorem Grammar.IsCount.inner {w digits : List Char} (h : IsCount w digits) :
    w ≠ [] ∧ (∀ c ∈ w, isInner c = true) ∧ TokenKind.ofRun w = .word := by
  obtain ⟨⟨hne, hall⟩, hw⟩ := h
  obtain ⟨d, ds, rfl⟩ := List.exists_cons_of_ne_nil hne
  have hdigits : ∀ c ∈ d :: ds, isInner c = true := fun c hc => isInner_of_decimal (hall c hc)
  have hd := ofRun_of_decimal (w := ds) (hall d List.mem_cons_self)
  have hd' := ofRun_of_decimal (w := ds ++ ['+']) (hall d List.mem_cons_self)
  rcases hw with rfl | rfl
  · exact ⟨hne, hdigits, hd⟩
  · refine ⟨by simp, List.forall_mem_append.mpr ⟨hdigits, ?_⟩, hd'⟩
    simp only [List.forall_mem_singleton]
    decide

/-- A quantity and a blank before a text read as one word before the words of the text. -/
theorem Grammar.IsCount.tokens {w digits : List Char} (h : IsCount w digits) (p : Nat)
    (rest : List Char) :
    tokensFrom p [] (w ++ ' ' :: rest) =
      ⟨.word, w, p, p + w.length⟩ :: tokensFrom (p + w.length + 1) [] rest := by
  obtain ⟨hne, hinner, hkind⟩ := h.inner
  have hblank : Text.isBlank ' ' = true := by decide
  rw [tokensFrom_run hne hinner (endsRun_cons (isInner_of_blank hblank)), hkind,
    tokensFrom_blank hblank]
  rfl

theorem wholeDigits_natCast (n : Nat) :
    Number.wholeDigits (n : Int) = Text.decimalDigits n := rfl

theorem isNumeral_decimalDigits (n : Nat) : IsNumeral (Text.decimalDigits n) :=
  ⟨Text.decimalDigits_ne_nil n, fun _ => Text.isDecimal_of_mem_decimalDigits⟩

/-! ## Names -/

/-- A numeral before a plus sign or a blank is what a name must not start with. -/
theorem startsLikeQuantity_append {digits : List Char} {c : Char} (numeral : IsNumeral digits)
    (h : c = '+' ∨ Text.isBlank c = true) (rest : List Char) :
    startsLikeQuantity (digits ++ c :: rest) = true := by
  obtain ⟨hne, hall⟩ := numeral
  have hc : Text.isDecimal c = false := by
    rcases h with rfl | h
    · decide
    · exact Text.isDecimal_of_blank h
  have hrest : ∀ d ∈ (c :: rest).head?, Text.isDecimal d = false := by simp [hc]
  obtain ⟨htake, hdrop⟩ := span_decimal hall hrest
  obtain ⟨d, ds, rfl⟩ := List.exists_cons_of_ne_nil hne
  rw [startsLikeQuantity, htake, hdrop]
  simpa using h

/-- A text that starts with a word goes on with what ends it, if it goes on. -/
theorem Laid.first_word {p : Nat} {name : List Char} {t : Token} {ts : List Token}
    (h : Laid p name (t :: ts)) (words : ∀ u ∈ t :: ts, u.kind = .word) (start : t.start = p) :
    ∃ rest, name = t.chars ++ rest ∧
      (ts ≠ [] → ∃ c more, rest = c :: more ∧ Text.isBlank c = true) := by
  have free := h.free words
  subst start
  obtain ⟨rest, rfl, -, -, ends, more⟩ := h.head_word (words t List.mem_cons_self)
  refine ⟨rest, rfl, fun hts => ?_⟩
  obtain ⟨u, us, rfl⟩ := List.exists_cons_of_ne_nil hts
  obtain ⟨c, rest, rfl⟩ := List.exists_cons_of_ne_nil more.ne_nil
  refine ⟨c, rest, rfl, ?_⟩
  rcases char_cases c with rfl | rfl | hb | hi
  · simp at free
  · simp at free
  · exact hb
  · exact absurd ((ends c rfl).symm.trans hi) Bool.false_ne_true

/-- A plain name at some place of a text reads as words, and the text from the first to the last
of them is the name. -/
theorem PlainName.tokens {name pre post : List Char} (h : PlainName name)
    (place : text = pre ++ (name ++ post)) :
    ∃ t ts, tokensFrom pre.length [] name = t :: ts ∧ (∀ u ∈ t :: ts, u.kind = .word) ∧
      slice text t ts = String.ofList name ∧
      (startsLikeQuantity name = false →
        ¬ StartsLeast t.chars ∧ (IsNumeral t.chars → ts = [])) := by
  obtain ⟨t, ts, laid, words, start, stop⟩ := (plainName_iff_laid (p := pre.length)).mp h
  refine ⟨t, ts, laid.tokens, words, ?_, fun hname => ?_⟩
  · simp only [slice, stop, start, place, Nat.add_sub_cancel_left, List.drop_left,
      List.take_left]
  · obtain ⟨rest, hrest, hgap⟩ := laid.first_word words start
    constructor
    · intro h
      obtain ⟨digits, more, numeral, hchars⟩ := h
      have hplus := startsLikeQuantity_append numeral (.inl rfl) (more ++ rest)
      rw [hrest, hchars, List.append_assoc, List.cons_append, hplus] at hname
      cases hname
    · intro numeral
      by_contra hts
      obtain ⟨c, more, rfl, hblank⟩ := hgap hts
      rw [hrest, startsLikeQuantity_append numeral (.inr hblank) more] at hname
      cases hname

/-! ## Tests -/

/-- A plain name after a quantity and a blank. -/
theorem PlainName.tokens_counted {w digits name pre post : List Char} (h : PlainName name)
    (count : IsCount w digits) (place : text = pre ++ (w ++ ' ' :: name ++ post)) :
    ∃ first t ts, tokensFrom pre.length [] (w ++ ' ' :: name) = first :: t :: ts ∧
      first.chars = w ∧ (∀ u ∈ first :: t :: ts, u.kind = .word) ∧
      slice text t ts = String.ofList name := by
  have place' : text = (pre ++ w ++ [' ']) ++ (name ++ post) := by
    rw [place]
    simp
  obtain ⟨t, ts, htokens, words, hslice, -⟩ := h.tokens place'
  have hlen : (pre ++ w ++ [' ']).length = pre.length + w.length + 1 := by simp; omega
  rw [hlen] at htokens
  exact ⟨_, t, ts, by rw [count.tokens, htokens], rfl, List.forall_mem_cons.mpr ⟨rfl, words⟩,
    hslice⟩

theorem quantitiesFit_counted {first : Token} {more : List Token} {digits : List Char}
    (words : ∀ t ∈ first :: more, t.kind = .word) (count : IsCount first.chars digits)
    (h : digits.length ≤ Number.maxDigits) : QuantitiesFit (first :: more) := by
  refine (quantitiesFit_words words).mpr fun ds hds _ => ?_
  rwa [hds.eq count]

theorem quantitiesFit_named {first : Token} {more : List Token}
    (words : ∀ t ∈ first :: more, t.kind = .word) (free : ¬ StartsLeast first.chars)
    (lone : IsNumeral first.chars → more = []) : QuantitiesFit (first :: more) := by
  refine (quantitiesFit_words words).mpr fun ds hds hmore => ?_
  rcases hds.2 with h | h
  · exact absurd (lone (h ▸ hds.1)) hmore
  · exact absurd ⟨ds, [], hds.1, h⟩ free

/-- The words of a printed test write it. -/
theorem Writable.words_testChars {test : CardTest} {pre post : List Char} (h : Writable test)
    (place : text = pre ++ (testChars test ++ post)) :
    (∀ t ∈ tokensFrom pre.length [] (testChars test), t.kind = .word) ∧
      Words text (tokensFrom pre.length [] (testChars test)) test ∧
      QuantitiesFit (tokensFrom pre.length [] (testChars test)) := by
  obtain ⟨name, quantity, bound⟩ := test
  obtain ⟨plain, small⟩ := h
  have numeral := isNumeral_decimalDigits quantity
  have hvalue := Text.decimalValue_decimalDigits quantity
  have hlen := (Text.length_decimalDigits_le_iff (by decide)).mpr small
  have hname : String.ofList name.toList = name := String.ofList_toList
  cases bound with
  | atLeast =>
    have hchars : testChars ⟨name, quantity, .atLeast⟩ =
        Text.decimalDigits quantity ++ ['+'] ++ ' ' :: name.toList := by
      simp [testChars, quantityText, wholeDigits_natCast]
    rw [hchars] at place ⊢
    obtain ⟨first, t, ts, htokens, hfirst, words, hslice⟩ :=
      plain.tokens_counted numeral.isCount_plus place
    rw [htokens]
    have writes : Words text (first :: t :: ts) ⟨slice text t ts,
        Text.decimalValue (Text.decimalDigits quantity), .atLeast⟩ := .atLeast numeral hfirst
    rw [hslice, hname, hvalue] at writes
    exact ⟨words, writes, quantitiesFit_counted words (hfirst ▸ numeral.isCount_plus) hlen⟩
  | exactly =>
    by_cases hq : quantity ≠ 1 ∨ startsLikeQuantity name.toList = true
    · have hchars : testChars ⟨name, quantity, .exactly⟩ =
          Text.decimalDigits quantity ++ ' ' :: name.toList := by
        have hwritten : ((quantity : Int) ≠ 1 || startsLikeQuantity name.toList) = true := by
          rw [Bool.or_eq_true, decide_eq_true_eq]
          exact_mod_cast hq
        have hleast : ¬ decide (Bound.exactly = .atLeast) = true := by decide
        rw [testChars, quantityText, if_neg hleast, if_pos hwritten, wholeDigits_natCast,
          List.append_assoc, List.singleton_append]
      rw [hchars] at place ⊢
      obtain ⟨first, t, ts, htokens, hfirst, words, hslice⟩ :=
        plain.tokens_counted numeral.isCount place
      rw [htokens]
      have numeral' : IsNumeral first.chars := hfirst ▸ numeral
      have writes : Words text (first :: t :: ts)
          ⟨slice text t ts, Text.decimalValue first.chars, .exactly⟩ := .exactly numeral'
      rw [hslice, hname, hfirst, hvalue] at writes
      exact ⟨words, writes, quantitiesFit_counted words (hfirst ▸ numeral.isCount) hlen⟩
    · obtain ⟨hone, hstarts⟩ := not_or.mp hq
      obtain rfl : quantity = 1 := not_not.mp hone
      have hchars : testChars ⟨name, 1, .exactly⟩ = name.toList := by
        simp [testChars, quantityText, hstarts]
      rw [hchars] at place ⊢
      obtain ⟨t, ts, htokens, words, hslice, hlead⟩ := plain.tokens place
      obtain ⟨free, lone⟩ := hlead (Bool.eq_false_iff.mpr hstarts)
      rw [htokens]
      have writes : Words text (t :: ts) ⟨slice text t ts, 1, .exactly⟩ := .named free lone
      rw [hslice, hname] at writes
      exact ⟨words, writes, quantitiesFit_named words free lone⟩

/-! ## Groups -/

/-- Tokens that nest so deep, with quantities that fit. -/
structure Measured (depth : Nat) (ts : List Token) : Prop where
  balanced : Balanced depth ts
  quantities : QuantitiesFit ts

theorem Measured.link {d e : Nat} {ts more : List Token} {link : Token} {k : Connective}
    (hts : Measured d ts) (hmore : Measured e more) (kind : link.kind = .connective k) :
    Measured (max d e) (ts ++ link :: more) := by
  have hlink := hmore.balanced.cons_flat (t := link) (by simp [kind]) (by simp [kind])
  exact ⟨hts.balanced.append hlink,
    (quantitiesFit_divided (by simp [kind])).mpr ⟨hts.quantities, hmore.quantities⟩⟩

theorem Measured.parentheses {d : Nat} {ts : List Token} {o cl : Token} (h : Measured d ts)
    (opening : o.kind = .opening) (closing : cl.kind = .closing) :
    Measured (d + 1) (o :: (ts ++ [cl])) :=
  ⟨h.balanced.parentheses opening closing,
    (quantitiesFit_parentheses opening closing).mpr h.quantities⟩

/-- Joined terms may be read from the left as well. -/
theorem Grammar.Joined.cons {k : Connective} {ts more : List Token} {c : Condition}
    {cs : List Condition} {link : Token} (term : Term text ts c)
    (kind : link.kind = .connective k) (h : Joined text k more cs) :
    Joined text k (ts ++ link :: more) (c :: cs) := by
  -- the number of terms is counted down, for a derivation among others allows no induction
  obtain ⟨n, hn⟩ : ∃ n, cs.length = n := ⟨_, rfl⟩
  induction n generalizing more cs with
  | zero => exact absurd hn (Nat.ne_of_gt h.length_pos)
  | succ n ih =>
    cases h with
    | one last => exact (Joined.one term).next kind last
    | next joined kind' last =>
      rw [← List.cons_append, ← List.append_assoc, ← List.cons_append]
      rw [List.length_append] at hn
      exact (ih joined (Nat.succ.inj hn)).next kind' last

/-- Joined terms, however many, are one expression. -/
theorem Grammar.Joined.expr {k : Connective} {ts : List Token} {cs : List Condition}
    (h : Joined text k ts cs) : Expr text ts (regroup k cs) := by
  cases h with
  | one term => exact .single term
  | @next _ _ cs _ _ c joined kind term =>
    have two : 2 ≤ (cs ++ [c]).length := by
      rw [List.length_append, List.length_singleton]
      exact Nat.succ_le_succ joined.length_pos
    rw [regroup_of_two two]
    exact .group (joined.next kind term) two

/-- The word between two members with its blanks. -/
def separator (k : Connective) : List Char :=
  ' ' :: k.word.toList ++ [' ']

theorem endsRun_separator (k : Connective) (rest : List Char) : EndsRun (separator k ++ rest) :=
  endsRun_cons (isInner_of_blank (by decide))

theorem tokensFrom_separator (k : Connective) (p : Nat) (rest : List Char) :
    ∃ link, link.kind = .connective k ∧
      tokensFrom p [] (separator k ++ rest) =
        link :: tokensFrom (p + (separator k).length) [] rest := by
  have hblank : Text.isBlank ' ' = true := by decide
  have hword : (∀ c ∈ k.word.toList, isInner c = true) ∧
      TokenKind.ofRun k.word.toList = .connective k := by
    cases k with
    | and =>
      rw [and_word_toList]
      exact ⟨List.all_eq_true.mp (by decide), rfl⟩
    | or =>
      rw [or_word_toList]
      exact ⟨List.all_eq_true.mp (by decide), rfl⟩
  refine ⟨⟨.ofRun k.word.toList, k.word.toList, p + 1, p + 1 + k.word.toList.length⟩, hword.2, ?_⟩
  rw [separator, List.cons_append, List.cons_append, List.append_assoc, List.singleton_append,
    tokensFrom_blank hblank, Token.ofRun, List.nil_append,
    tokensFrom_run (word_toList_ne_nil k) hword.1 (endsRun_cons (isInner_of_blank hblank)),
    tokensFrom_blank hblank, Token.ofRun, List.nil_append]
  congr 2
  simp
  omega

mutual

/-- The text of a condition reads as one term, the condition collapsed, and nests as deep as it. -/
theorem term_chars : ∀ {c : Condition} {pre post : List Char}, c.GroupsHave 1 →
    (∀ test ∈ c.tests, Writable test) → text = pre ++ (c.chars ++ post) →
      Term text (tokensFrom pre.length [] c.chars) c.collapse ∧
        Measured c.depth (tokensFrom pre.length [] c.chars)
  | .card test, pre, post, _, writable, place => by
    have hwritable := writable test List.mem_cons_self
    obtain ⟨words, writes, fit⟩ := hwritable.words_testChars place
    exact ⟨.leaf words writes, balanced_words words, fit⟩
  | .group k members, pre, post, groups, writable, place => by
    have hne : members ≠ [] := List.length_pos_iff.mp groups.1
    have hchars : (Condition.group k members).chars =
        '(' :: (List.intercalate (separator k) (charsAll members) ++ [')']) := rfl
    have place' : text = (pre ++ ['(']) ++
        (List.intercalate (separator k) (charsAll members) ++ (')' :: post)) := by
      rw [place, hchars]
      simp
    obtain ⟨joined, measured⟩ := joined_charsAll k hne groups.2 writable place'
    have hlen : (pre ++ ['(']).length = pre.length + 1 := by simp
    have hclosing : EndsRun [')'] := endsRun_cons (by decide)
    rw [hlen] at joined measured
    rw [hchars, tokensFrom_opening, Token.ofRun, List.nil_append, tokensFrom_append hclosing,
      tokensFrom_closing, Token.ofRun, List.nil_append, tokensFrom, Token.ofRun]
    exact ⟨.parentheses rfl joined.expr rfl, measured.parentheses rfl rfl⟩

theorem joined_charsAll (k : Connective) : ∀ {cs : List Condition} {pre post : List Char},
    cs ≠ [] → AllGroupsHave 1 cs → (∀ test ∈ testsAll cs, Writable test) →
      text = pre ++ (List.intercalate (separator k) (charsAll cs) ++ post) →
      Joined text k (tokensFrom pre.length [] (List.intercalate (separator k) (charsAll cs)))
          (collapseAll cs) ∧
        Measured (depthAll cs)
          (tokensFrom pre.length [] (List.intercalate (separator k) (charsAll cs)))
  | [], _, _, ne, _, _, _ => absurd rfl ne
  | [c], pre, post, _, groups, writable, place => by
    have hwritable : ∀ test ∈ c.tests, Writable test := by
      simpa [testsAll] using writable
    have hjoin : List.intercalate (separator k) (charsAll [c]) = c.chars :=
      List.intercalate_singleton
    rw [hjoin] at place ⊢
    obtain ⟨term, measured⟩ := term_chars groups.1 hwritable place
    rw [depthAll, depthAll, Nat.max_zero]
    exact ⟨.one term, measured⟩
  | c :: d :: cs, pre, post, _, groups, writable, place => by
    obtain ⟨hfirst, hmore⟩ := List.forall_mem_append.mp writable
    have hjoin : List.intercalate (separator k) (charsAll (c :: d :: cs)) =
        c.chars ++ (separator k ++ List.intercalate (separator k) (charsAll (d :: cs))) :=
      List.intercalate_cons_cons.trans (List.append_assoc ..)
    rw [hjoin] at place ⊢
    -- the text of the first member, and the text after the separator
    have placeFirst : text = pre ++ (c.chars ++ (separator k ++
        List.intercalate (separator k) (charsAll (d :: cs)) ++ post)) := by
      rw [place, List.append_assoc c.chars]
    have placeMore : text = (pre ++ c.chars ++ separator k) ++
        (List.intercalate (separator k) (charsAll (d :: cs)) ++ post) := by
      rw [place]
      simp only [List.append_assoc]
    obtain ⟨term, measuredFirst⟩ := term_chars groups.1 hfirst placeFirst
    obtain ⟨joined, measuredMore⟩ :=
      joined_charsAll k (List.cons_ne_nil d cs) groups.2 hmore placeMore
    rw [List.length_append, List.length_append] at joined measuredMore
    obtain ⟨link, kind, hlink⟩ := tokensFrom_separator k (pre.length + c.chars.length)
      (List.intercalate (separator k) (charsAll (d :: cs)))
    rw [tokensFrom_append (endsRun_separator k _), hlink]
    exact ⟨joined.cons term kind, measuredFirst.link measuredMore kind⟩

end

end OpeningHand.Condition
