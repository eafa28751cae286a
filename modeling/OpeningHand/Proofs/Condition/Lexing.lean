import OpeningHand.Condition.Token

/-!
# The law of tokens

How tokens lie in a text, said without the function that finds them. `Laid` asks that blanks alone
stand between and around tokens, that a parenthesis is a token of its own, and that any other token
is a run of characters that are neither blank nor a parenthesis and goes on as far as it can.

A list of tokens lies in a text exactly if reading the text gives it (`laid_iff`). From there a text
may be cut where a run ends and each part read on its own (`tokensFrom_append`), and the part of a
text from one token to another reads as the tokens between (`Laid.slice`).
-/

namespace OpeningHand.Condition

/-- A character of a run: neither blank nor a parenthesis. -/
def isInner (c : Char) : Bool :=
  c ≠ '(' && c ≠ ')' && !Text.isBlank c

/-- A run cannot go on into `cs`. -/
def EndsRun (cs : List Char) : Prop :=
  ∀ c ∈ cs.head?, isInner c = false

/-- The tokens `ts` lie in the text `cs`, which starts at a position. -/
inductive Laid : Nat → List Char → List Token → Prop
  | done {p gap} (blank : ∀ c ∈ gap, Text.isBlank c = true) : Laid p gap []
  | opening {p gap rest ts} (blank : ∀ c ∈ gap, Text.isBlank c = true)
      (more : Laid (p + gap.length + 1) rest ts) :
      Laid p (gap ++ '(' :: rest)
        (⟨.opening, ['('], p + gap.length, p + gap.length + 1⟩ :: ts)
  | closing {p gap rest ts} (blank : ∀ c ∈ gap, Text.isBlank c = true)
      (more : Laid (p + gap.length + 1) rest ts) :
      Laid p (gap ++ ')' :: rest)
        (⟨.closing, [')'], p + gap.length, p + gap.length + 1⟩ :: ts)
  | run {p gap w rest ts} (blank : ∀ c ∈ gap, Text.isBlank c = true) (ne : w ≠ [])
      (inner : ∀ c ∈ w, isInner c = true) (ends : EndsRun rest)
      (more : Laid (p + gap.length + w.length) rest ts) :
      Laid p (gap ++ (w ++ rest))
        (⟨.ofRun w, w, p + gap.length, p + gap.length + w.length⟩ :: ts)

/-! ## Characters -/

theorem isInner_of_blank {c : Char} (h : Text.isBlank c = true) : isInner c = false := by
  simp [isInner, h]

theorem isBlank_of_isInner {c : Char} (h : isInner c = true) : Text.isBlank c = false := by
  simp only [isInner, Bool.and_eq_true, Bool.not_eq_true'] at h
  exact h.2

/-- A character is one of four things to the reading of tokens. -/
theorem char_cases (c : Char) :
    c = '(' ∨ c = ')' ∨ Text.isBlank c = true ∨ isInner c = true := by
  by_cases ho : c = '('
  · exact .inl ho
  by_cases hc : c = ')'
  · exact .inr (.inl hc)
  cases hb : Text.isBlank c with
  | true => exact .inr (.inr (.inl rfl))
  | false => exact .inr (.inr (.inr (by simp [isInner, ho, hc, hb])))

theorem endsRun_nil : EndsRun [] := by
  intro c hc
  cases hc

theorem endsRun_cons {c : Char} {cs : List Char} (h : isInner c = false) : EndsRun (c :: cs) := by
  intro d hd
  rw [List.head?_cons, Option.mem_some_iff] at hd
  exact hd ▸ h

theorem EndsRun.of_append {a b : List Char} (h : EndsRun (a ++ b)) : EndsRun a := by
  cases a with
  | nil => exact endsRun_nil
  | cons c cs => exact endsRun_cons (h c rfl)

/-! ## Reading piece by piece -/

theorem tokensFrom_opening (p : Nat) (run cs : List Char) :
    tokensFrom p run ('(' :: cs) =
      Token.ofRun p run ++ ⟨.opening, ['('], p, p + 1⟩ :: tokensFrom (p + 1) [] cs := by
  rw [tokensFrom, if_pos rfl]

theorem tokensFrom_closing (p : Nat) (run cs : List Char) :
    tokensFrom p run (')' :: cs) =
      Token.ofRun p run ++ ⟨.closing, [')'], p, p + 1⟩ :: tokensFrom (p + 1) [] cs := by
  rw [tokensFrom, if_neg (by decide), if_pos rfl]

theorem tokensFrom_blank {c : Char} (h : Text.isBlank c = true) (p : Nat) (run cs : List Char) :
    tokensFrom p run (c :: cs) = Token.ofRun p run ++ tokensFrom (p + 1) [] cs := by
  have ho : c ≠ '(' := by rintro rfl; revert h; decide
  have hc : c ≠ ')' := by rintro rfl; revert h; decide
  rw [tokensFrom, if_neg ho, if_neg hc, if_pos h]

theorem tokensFrom_inner {c : Char} (h : isInner c = true) (p : Nat) (run cs : List Char) :
    tokensFrom p run (c :: cs) = tokensFrom (p + 1) (c :: run) cs := by
  have hb := isBlank_of_isInner h
  simp only [isInner, Bool.and_eq_true, decide_eq_true_eq] at h
  rw [tokensFrom, if_neg h.1.1, if_neg h.1.2, hb, if_neg Bool.false_ne_true]

/-- A run that cannot go on is a token. -/
theorem tokensFrom_ends {cs : List Char} (h : EndsRun cs) (p : Nat) (run : List Char) :
    tokensFrom p run cs = Token.ofRun p run ++ tokensFrom p [] cs := by
  cases cs with
  | nil => simp only [tokensFrom, Token.ofRun, List.append_nil]
  | cons c cs =>
    rcases char_cases c with rfl | rfl | hb | hi
    · simp only [tokensFrom_opening, Token.ofRun, List.nil_append]
    · simp only [tokensFrom_closing, Token.ofRun, List.nil_append]
    · simp only [tokensFrom_blank hb, Token.ofRun, List.nil_append]
    · rw [h c rfl] at hi
      cases hi

/-- Where no run goes on, a text may be cut and its parts read apart. -/
theorem tokensFrom_append {b : List Char} (hb : EndsRun b) (a : List Char) :
    ∀ (p : Nat) (run : List Char),
      tokensFrom p run (a ++ b) = tokensFrom p run a ++ tokensFrom (p + a.length) [] b := by
  induction a with
  | nil =>
    intro p run
    simp only [List.nil_append, List.length_nil, Nat.add_zero, tokensFrom]
    exact tokensFrom_ends hb p run
  | cons c cs ih =>
    intro p run
    have hlen : p + (c :: cs).length = p + 1 + cs.length := by
      rw [List.length_cons]
      omega
    rw [List.cons_append, hlen]
    rcases char_cases c with rfl | rfl | hc | hc
    · simp only [tokensFrom_opening, ih, List.append_assoc, List.cons_append]
    · simp only [tokensFrom_closing, ih, List.append_assoc, List.cons_append]
    · simp only [tokensFrom_blank hc, ih, List.append_assoc]
    · simp only [tokensFrom_inner hc, ih]

/-- Blanks before a text only move it. -/
theorem tokensFrom_gap {gap : List Char} (h : ∀ c ∈ gap, Text.isBlank c = true)
    (cs : List Char) : ∀ p : Nat,
      tokensFrom p [] (gap ++ cs) = tokensFrom (p + gap.length) [] cs := by
  induction gap with
  | nil => intro p; rfl
  | cons c gap ih =>
    intro p
    rw [List.cons_append, tokensFrom_blank (h c List.mem_cons_self), Token.ofRun, List.nil_append,
      ih (fun d hd => h d (List.mem_cons_of_mem _ hd)), List.length_cons]
    congr 1
    omega

/-- Characters of a run join the run so far. -/
theorem tokensFrom_join {w : List Char} (h : ∀ c ∈ w, isInner c = true) (cs : List Char) :
    ∀ (p : Nat) (run : List Char),
      tokensFrom p run (w ++ cs) = tokensFrom (p + w.length) (w.reverse ++ run) cs := by
  induction w with
  | nil => intro p run; rfl
  | cons c w ih =>
    intro p run
    rw [List.cons_append, tokensFrom_inner (h c List.mem_cons_self),
      ih (fun d hd => h d (List.mem_cons_of_mem _ hd)), List.length_cons, List.reverse_cons,
      List.append_assoc, List.singleton_append]
    congr 1
    omega

/-- The token of a run that is not empty. -/
theorem Token.ofRun_reverse {w : List Char} (ne : w ≠ []) (p : Nat) :
    Token.ofRun (p + w.length) w.reverse = [⟨.ofRun w, w, p, p + w.length⟩] := by
  cases hr : w.reverse with
  | nil => exact absurd (List.reverse_eq_nil_iff.mp hr) ne
  | cons c cs =>
    have hw : (c :: cs).reverse = w := by rw [← hr, List.reverse_reverse]
    have hl : (c :: cs).length = w.length := by rw [← hw, List.length_reverse]
    simp only [Token.ofRun, hw, hl, Nat.add_sub_cancel]

/-- A run that cannot go on is read as one token. -/
theorem tokensFrom_run {w rest : List Char} (ne : w ≠ []) (inner : ∀ c ∈ w, isInner c = true)
    (ends : EndsRun rest) (p : Nat) :
    tokensFrom p [] (w ++ rest) =
      ⟨.ofRun w, w, p, p + w.length⟩ :: tokensFrom (p + w.length) [] rest := by
  rw [tokensFrom_join inner, List.append_nil, tokensFrom_ends ends, Token.ofRun_reverse ne]
  rfl

/-! ## The law -/

/-- Tokens that lie in a text are the ones that reading it gives. -/
theorem Laid.tokens {p : Nat} {cs : List Char} {ts : List Token} (h : Laid p cs ts) :
    tokensFrom p [] cs = ts := by
  induction h with
  | @done p gap blank =>
    have := tokensFrom_gap blank [] p
    rw [List.append_nil] at this
    rw [this]
    rfl
  | opening blank _ ih => rw [tokensFrom_gap blank, tokensFrom_opening, ih]; rfl
  | closing blank _ ih => rw [tokensFrom_gap blank, tokensFrom_closing, ih]; rfl
  | run blank ne inner ends _ ih => rw [tokensFrom_gap blank, tokensFrom_run ne inner ends, ih]

/-- The characters with `q` at the front of a text, as many as there are, and what follows them. -/
theorem exists_front (q : Char → Bool) (cs : List Char) :
    ∃ front rest, cs = front ++ rest ∧ (∀ c ∈ front, q c = true) ∧
      ∀ c ∈ rest.head?, q c = false := by
  refine ⟨cs.takeWhile q, cs.dropWhile q, List.takeWhile_append_dropWhile.symm, ?_, ?_⟩
  · intro c hc
    exact List.all_eq_true.mp List.all_takeWhile c hc
  · intro c hc
    have := List.head?_dropWhile_not q cs
    rw [Option.mem_def.mp hc] at this
    simpa using this

/-- The tokens that reading a text gives lie in it. The induction is on the length, for after a
token the text goes on where the token stops. -/
theorem laid_tokensFrom (p : Nat) (cs : List Char) : Laid p cs (tokensFrom p [] cs) := by
  generalize hn : cs.length = n
  induction n using Nat.strongRecOn generalizing p cs with
  | ind n ih =>
    subst hn
    obtain ⟨gap, rest, rfl, blank, hrest⟩ := exists_front Text.isBlank cs
    suffices h : ∃ ts, Laid p (gap ++ rest) ts by
      obtain ⟨ts, h⟩ := h
      exact h.tokens ▸ h
    cases rest with
    | nil => exact ⟨_, by rw [List.append_nil]; exact .done blank⟩
    | cons c rest =>
      have hc : Text.isBlank c = false := hrest c rfl
      have shorter : rest.length < (gap ++ c :: rest).length := by
        rw [List.length_append, List.length_cons]
        omega
      rcases char_cases c with rfl | rfl | hb | hi
      · exact ⟨_, .opening blank (ih _ shorter _ _ rfl)⟩
      · exact ⟨_, .closing blank (ih _ shorter _ _ rfl)⟩
      · rw [hc] at hb
        cases hb
      · obtain ⟨w, rest', hw, inner, ends⟩ := exists_front isInner rest
        have hlen : rest'.length < (gap ++ c :: rest).length := by
          rw [hw, List.length_append] at shorter
          rw [hw]
          omega
        have hinner : ∀ d ∈ c :: w, isInner d = true := by
          intro d hd
          rcases List.mem_cons.mp hd with rfl | hd
          · exact hi
          · exact inner d hd
        have hl := Laid.run (p := p) blank (List.cons_ne_nil c w) hinner ends
          (ih _ hlen _ rest' rfl)
        exact ⟨_, by rw [hw]; exact hl⟩

/-- Tokens lie in a text exactly if reading the text gives them. -/
theorem laid_iff {p : Nat} {cs : List Char} {ts : List Token} :
    Laid p cs ts ↔ tokensFrom p [] cs = ts :=
  ⟨Laid.tokens, fun h => h ▸ laid_tokensFrom p cs⟩

/-! ## Parts of a text -/

/-- Some tokens may be taken off the front of a text, with what lies before the next one. -/
theorem Laid.drop {t : Token} {ts before : List Token} :
    ∀ {p : Nat} {cs : List Char}, Laid p cs (before ++ t :: ts) →
      ∃ lead rest, cs = lead ++ rest ∧ t.start = p + lead.length ∧ Laid t.start rest (t :: ts) := by
  induction before with
  | nil =>
    intro p cs h
    cases h with
    | @opening p gap rest ts blank more =>
      exact ⟨gap, '(' :: rest, rfl, rfl, @Laid.opening _ [] rest ts (by simp) more⟩
    | @closing p gap rest ts blank more =>
      exact ⟨gap, ')' :: rest, rfl, rfl, @Laid.closing _ [] rest ts (by simp) more⟩
    | @run p gap w rest ts blank ne inner ends more =>
      exact ⟨gap, w ++ rest, rfl, rfl, @Laid.run _ [] w rest ts (by simp) ne inner ends more⟩
  | cons b before ih =>
    -- the first token, with the gap before it, goes to the part that is taken off
    have extend : ∀ {p q : Nat} {cs first tail : List Char}, cs = first ++ tail →
        q = p + first.length → Laid q tail (before ++ t :: ts) →
        ∃ lead rest, cs = lead ++ rest ∧ t.start = p + lead.length ∧
          Laid t.start rest (t :: ts) := by
      intro p q cs first tail hcs hq h
      obtain ⟨lead, rest, rfl, hstart, hrest⟩ := ih h
      refine ⟨first ++ lead, rest, by rw [hcs, List.append_assoc], ?_, hrest⟩
      rw [hstart, hq, List.length_append, Nat.add_assoc]
    intro p cs h
    cases h with
    | @opening p gap rest ts blank more =>
      exact extend (List.append_cons gap '(' rest) (by simp; omega) more
    | @closing p gap rest ts blank more =>
      exact extend (List.append_cons gap ')' rest) (by simp; omega) more
    | @run p gap w rest ts blank ne inner ends more =>
      exact extend (List.append_assoc gap w rest).symm (by simp; omega) more

/-- The text up to where a token stops holds the tokens up to that one. -/
theorem Laid.take {after ts : List Token} :
    ∀ {p : Nat} {cs : List Char} {t : Token}, Laid p cs (t :: ts ++ after) →
      ∃ name rest, cs = name ++ rest ∧ Laid p name (t :: ts) ∧
        ((t :: ts).getLast (List.cons_ne_nil t ts)).stop = p + name.length := by
  induction ts with
  | nil =>
    intro p cs t h
    cases h with
    | @opening p gap rest ts blank more =>
      exact ⟨gap ++ ['('], rest, by simp, .opening blank (.done (by simp)), by simp; omega⟩
    | @closing p gap rest ts blank more =>
      exact ⟨gap ++ [')'], rest, by simp, .closing blank (.done (by simp)), by simp; omega⟩
    | @run p gap w rest ts blank ne inner ends more =>
      refine ⟨gap ++ w, rest, (List.append_assoc gap w rest).symm, ?_, by simp; omega⟩
      have hl := Laid.run (p := p) blank ne inner endsRun_nil (.done (by simp))
      rwa [List.append_nil] at hl
  | cons t' ts ih =>
    intro p cs t h
    cases h with
    | @opening p gap rest _ blank more =>
      obtain ⟨name, rest', rfl, hname, hstop⟩ := ih more
      refine ⟨gap ++ '(' :: name, rest', by simp, .opening blank hname, ?_⟩
      rw [List.getLast_cons (List.cons_ne_nil t' ts), hstop]
      simp
      omega
    | @closing p gap rest _ blank more =>
      obtain ⟨name, rest', rfl, hname, hstop⟩ := ih more
      refine ⟨gap ++ ')' :: name, rest', by simp, .closing blank hname, ?_⟩
      rw [List.getLast_cons (List.cons_ne_nil t' ts), hstop]
      simp
      omega
    | @run p gap w rest _ blank ne inner ends more =>
      obtain ⟨name, rest', rfl, hname, hstop⟩ := ih more
      refine ⟨gap ++ (w ++ name), rest', by simp, .run blank ne inner ends.of_append hname, ?_⟩
      rw [List.getLast_cons (List.cons_ne_nil t' ts), hstop]
      simp
      omega

/-- The part of a text from one token to the stop of another reads as the tokens between. -/
theorem Laid.slice {p : Nat} {cs : List Char} {before ts after : List Token} {t : Token}
    (h : Laid p cs (before ++ (t :: ts ++ after))) :
    ∃ lead name rest, cs = lead ++ (name ++ rest) ∧ t.start = p + lead.length ∧
      Laid t.start name (t :: ts) ∧
      ((t :: ts).getLast (List.cons_ne_nil t ts)).stop = t.start + name.length := by
  rw [List.cons_append] at h
  obtain ⟨lead, rest, rfl, hstart, hrest⟩ := h.drop
  obtain ⟨name, rest', rfl, hname, hstop⟩ := hrest.take
  exact ⟨lead, name, rest', rfl, hstart, hname, hstop⟩

/-- Where a word starts, a text is the word's run and what cannot go on with it. -/
theorem Laid.head_word {t : Token} {cs : List Char} {ts : List Token}
    (h : Laid t.start cs (t :: ts)) (word : t.kind = .word) :
    ∃ rest, cs = t.chars ++ rest ∧ t.chars ≠ [] ∧ (∀ c ∈ t.chars, isInner c = true) ∧
      EndsRun rest ∧ Laid t.stop rest ts := by
  generalize hp : t.start = p at h
  cases h with
  | opening => cases word
  | closing => cases word
  | @run _ gap w rest _ _ ne inner ends more =>
    obtain rfl := List.length_eq_zero_iff.mp (Nat.add_eq_left.mp hp)
    exact ⟨rest, rfl, ne, inner, ends, more⟩

/-! ## Places and characters of tokens -/

/-- Tokens are not empty, and lie within the text. -/
theorem Laid.bounds {p : Nat} {cs : List Char} {ts : List Token} (h : Laid p cs ts) :
    ∀ t ∈ ts, t.start < t.stop ∧ t.stop ≤ p + cs.length := by
  induction h with
  | done => exact List.forall_mem_nil _
  | opening _ _ ih | closing _ _ ih =>
    simp only [List.length_append, List.length_cons]
    refine List.forall_mem_cons.mpr ⟨⟨Nat.lt_succ_self _, by dsimp only; omega⟩, fun t ht => ?_⟩
    have := ih t ht
    omega
  | @run p gap w rest ts _ ne _ _ _ ih =>
    have pos : 0 < w.length := List.length_pos_iff.mpr ne
    simp only [List.length_append]
    refine List.forall_mem_cons.mpr
      ⟨⟨Nat.lt_add_of_pos_right pos, by dsimp only; omega⟩, fun t ht => ?_⟩
    have := ih t ht
    omega

/-- What a token that is no word is written with. -/
def TokenKind.chars? : TokenKind → Option (List Char)
  | .opening => some ['(']
  | .closing => some [')']
  | .connective k => some k.word.toList
  | .word => none

/-- A token that is no word is written as its kind is. -/
theorem Laid.chars_eq {p : Nat} {cs : List Char} {ts : List Token} (h : Laid p cs ts) :
    ∀ t ∈ ts, ∀ w ∈ t.kind.chars?, t.chars = w := by
  induction h with
  | done => exact List.forall_mem_nil _
  | opening _ _ ih | closing _ _ ih =>
    refine List.forall_mem_cons.mpr ⟨fun w hw => ?_, ih⟩
    cases hw
    rfl
  | @run p gap w rest ts _ _ _ _ _ ih =>
    refine List.forall_mem_cons.mpr ⟨fun w' hw => ?_, ih⟩
    dsimp only at hw ⊢
    unfold TokenKind.ofRun at hw
    split at hw
    next h =>
      cases hw
      exact h
    next =>
      split at hw
      next h =>
        cases hw
        exact h
      next => cases hw

end OpeningHand.Condition
