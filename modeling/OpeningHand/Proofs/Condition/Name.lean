import OpeningHand.Proofs.Condition.Lexing

/-!
# Names that a text can write

A text writes a name as words, with nothing around them. `PlainName` says of a name's characters
which names those are; `plainName_iff_laid` says that they are the ones that read as words from
their first character to their last. A name that is not plain has to be taken for something else
wherever it stands.
-/

namespace OpeningHand.Condition

/-- No parenthesis, no blank at either end, and no connective between blanks. -/
structure PlainName (name : List Char) : Prop where
  free : '(' ∉ name ∧ ')' ∉ name
  starts : ∃ c ∈ name.head?, Text.isBlank c = false
  ends : ∃ c ∈ name.getLast?, Text.isBlank c = false
  noConnective : ∀ k : Connective, k.word.toList ∉ name.splitOnP Text.isBlank

/-- Whether a name is plain can be tested. -/
instance (name : List Char) : Decidable (PlainName name) :=
  decidable_of_iff
    (('(' ∉ name ∧ ')' ∉ name) ∧ name.head?.any (!Text.isBlank ·) ∧
      name.getLast?.any (!Text.isBlank ·) ∧
      Connective.and.word.toList ∉ name.splitOnP Text.isBlank ∧
      Connective.or.word.toList ∉ name.splitOnP Text.isBlank) <| by
    simp only [Option.any_eq_true, Bool.not_eq_true']
    constructor
    · intro h
      obtain ⟨free, starts, ends, hand, hor⟩ := h
      exact ⟨free, starts, ends, fun k => by cases k <;> assumption⟩
    · intro h
      obtain ⟨free, starts, ends, noConnective⟩ := h
      exact ⟨free, starts, ends, noConnective .and, noConnective .or⟩

example : PlainName "7 Colored Fish".toList := by decide

example : ¬ PlainName "Fire AND Ice".toList := by decide

/-! ## Words and their kinds -/

theorem and_word_toList : Connective.and.word.toList = ['A', 'N', 'D'] := rfl

theorem or_word_toList : Connective.or.word.toList = ['O', 'R'] := rfl

theorem word_toList_ne_nil (k : Connective) : k.word.toList ≠ [] := by
  cases k with
  | and => exact List.cons_ne_nil 'A' _
  | or => exact List.cons_ne_nil 'O' _

/-- A run is a word exactly if it is no connective's word. -/
theorem ofRun_eq_word_iff {w : List Char} :
    TokenKind.ofRun w = .word ↔ ∀ k : Connective, w ≠ k.word.toList := by
  unfold TokenKind.ofRun
  constructor
  · intro h k hk
    cases k with
    | and =>
      rw [if_pos (hk.trans and_word_toList)] at h
      cases h
    | or =>
      rw [hk.trans or_word_toList] at h
      cases h
  · intro h
    rw [if_neg (and_word_toList ▸ h .and), if_neg (or_word_toList ▸ h .or)]

theorem ofRun_eq_connective_iff {w : List Char} {k : Connective} :
    TokenKind.ofRun w = .connective k ↔ w = k.word.toList := by
  unfold TokenKind.ofRun
  rw [← and_word_toList, ← or_word_toList]
  constructor
  · intro h
    split at h
    next hw => cases h; exact hw
    next =>
      split at h
      next hw => cases h; exact hw
      next => cases h
  · rintro rfl
    cases k <;> rfl

theorem ofRun_ne {w : List Char} :
    TokenKind.ofRun w ≠ .opening ∧ TokenKind.ofRun w ≠ .closing := by
  unfold TokenKind.ofRun
  split
  next => exact ⟨TokenKind.noConfusion, TokenKind.noConfusion⟩
  next => split <;> exact ⟨TokenKind.noConfusion, TokenKind.noConfusion⟩

/-! ## Texts without parentheses -/

variable {p : Nat} {cs : List Char} {ts : List Token}

theorem not_mem_of_blank {gap : List Char} (blank : ∀ c ∈ gap, Text.isBlank c = true) :
    '(' ∉ gap ∧ ')' ∉ gap := by
  have ho : Text.isBlank '(' = false := by decide
  have hc : Text.isBlank ')' = false := by decide
  exact ⟨fun h => Bool.false_ne_true (ho.symm.trans (blank _ h)),
    fun h => Bool.false_ne_true (hc.symm.trans (blank _ h))⟩

theorem not_mem_of_inner {w : List Char} (inner : ∀ c ∈ w, isInner c = true) :
    '(' ∉ w ∧ ')' ∉ w := by
  have ho : isInner '(' = false := by decide
  have hc : isInner ')' = false := by decide
  exact ⟨fun h => Bool.false_ne_true (ho.symm.trans (inner _ h)),
    fun h => Bool.false_ne_true (hc.symm.trans (inner _ h))⟩

/-- A text of words has no parenthesis. -/
theorem Laid.free (h : Laid p cs ts) (words : ∀ t ∈ ts, t.kind = .word) :
    '(' ∉ cs ∧ ')' ∉ cs := by
  induction h with
  | done blank => exact not_mem_of_blank blank
  | opening => exact absurd (words _ List.mem_cons_self) TokenKind.noConfusion
  | closing => exact absurd (words _ List.mem_cons_self) TokenKind.noConfusion
  | run blank _ inner _ _ ih =>
    have hrest := ih fun t ht => words t (List.mem_cons_of_mem _ ht)
    have hgap := not_mem_of_blank blank
    have hw := not_mem_of_inner inner
    simp only [List.mem_append, not_or]
    exact ⟨⟨hgap.1, hw.1, hrest.1⟩, hgap.2, hw.2, hrest.2⟩

/-- Without a parenthesis all tokens are runs. -/
theorem Laid.kind_eq (h : Laid p cs ts) (free : '(' ∉ cs ∧ ')' ∉ cs) :
    ∀ t ∈ ts, t.kind = .ofRun t.chars := by
  induction h with
  | done => simp
  | opening => simp at free
  | closing => simp at free
  | run _ _ _ _ _ ih =>
    simp only [List.mem_append, not_or] at free
    exact List.forall_mem_cons.mpr ⟨rfl, ih ⟨free.1.2.2, free.2.2.2⟩⟩

/-- What blanks separate, but for empty pieces. -/
def pieces (cs : List Char) : List (List Char) :=
  (cs.splitOnP Text.isBlank).filter (!·.isEmpty)

theorem mem_pieces {w : List Char} (ne : w ≠ []) :
    w ∈ pieces cs ↔ w ∈ cs.splitOnP Text.isBlank := by
  simp [pieces, List.mem_filter, ne]

theorem pieces_gap {gap : List Char} (blank : ∀ c ∈ gap, Text.isBlank c = true)
    (cs : List Char) : pieces (gap ++ cs) = pieces cs := by
  induction gap with
  | nil => rfl
  | cons c gap ih =>
    obtain ⟨hc, hgap⟩ := List.forall_mem_cons.mp blank
    rw [← ih hgap]
    simp [pieces, List.splitOnP_cons_eq_if_modifyHead, hc]

theorem pieces_run {w rest : List Char} (ne : w ≠ []) (inner : ∀ c ∈ w, isInner c = true)
    (ends : EndsRun rest) (free : '(' ∉ rest ∧ ')' ∉ rest) :
    pieces (w ++ rest) = w :: pieces rest := by
  have hw : ∀ c ∈ w, Text.isBlank c = false := fun c hc => isBlank_of_isInner (inner c hc)
  cases rest with
  | nil => simp [pieces, List.splitOnP_eq_singleton hw, ne]
  | cons c rest =>
    have hc : Text.isBlank c = true := by
      rcases char_cases c with rfl | rfl | hb | hi
      · simp at free
      · simp at free
      · exact hb
      · exact absurd ((ends c rfl).symm.trans hi) Bool.false_ne_true
    have hcut := List.splitOnP_append_cons_of_forall_mem hw c hc rest
    simp [pieces, hcut, ne, List.splitOnP_cons_eq_if_modifyHead, hc]

/-- Without a parenthesis the tokens are the pieces between blanks. -/
theorem Laid.pieces_eq (h : Laid p cs ts) (free : '(' ∉ cs ∧ ')' ∉ cs) :
    pieces cs = ts.map Token.chars := by
  induction h with
  | @done p gap blank =>
    have := pieces_gap blank []
    rw [List.append_nil] at this
    rw [this]
    rfl
  | opening => simp at free
  | closing => simp at free
  | run blank ne inner ends _ ih =>
    simp only [List.mem_append, not_or] at free
    have hrest := And.intro free.1.2.2 free.2.2.2
    rw [pieces_gap blank, pieces_run ne inner ends hrest, ih hrest]
    rfl

/-! ## The ends of a text -/

theorem starts_gap_iff {gap rest : List Char} {d : Char}
    (blank : ∀ c ∈ gap, Text.isBlank c = true) (hd : Text.isBlank d = false) :
    (∃ c ∈ (gap ++ d :: rest).head?, Text.isBlank c = false) ↔ gap = [] := by
  cases gap with
  | nil => simp [hd]
  | cons c gap => simp [blank c List.mem_cons_self]

/-- The first token starts where the text does exactly if no blank comes before it. -/
theorem Laid.starts_iff {t : Token} (h : Laid p cs (t :: ts)) :
    (∃ c ∈ cs.head?, Text.isBlank c = false) ↔ t.start = p := by
  cases h with
  | opening blank =>
    rw [starts_gap_iff blank (by decide)]
    simp
  | closing blank =>
    rw [starts_gap_iff blank (by decide)]
    simp
  | @run _ _ w _ _ blank ne inner =>
    obtain ⟨d, w, rfl⟩ := List.exists_cons_of_ne_nil ne
    rw [List.cons_append, starts_gap_iff blank (isBlank_of_isInner (inner d List.mem_cons_self))]
    simp

theorem Laid.ne_nil {t : Token} (h : Laid p cs (t :: ts)) : cs ≠ [] := by
  cases h with
  | opening => simp
  | closing => simp
  | run blank ne => simp [ne]

/-- The text up to where its first token stops, which ends without a blank, and the rest. -/
theorem Laid.tail {t : Token} (h : Laid p cs (t :: ts)) :
    ∃ front rest, cs = front ++ rest ∧ (∃ c ∈ front.getLast?, Text.isBlank c = false) ∧
      t.stop = p + front.length ∧ Laid t.stop rest ts := by
  cases h with
  | @opening _ gap rest _ blank more =>
    exact ⟨gap ++ ['('], rest, List.append_cons gap '(' rest, ⟨'(', by simp, by decide⟩,
      by simp; omega, more⟩
  | @closing _ gap rest _ blank more =>
    exact ⟨gap ++ [')'], rest, List.append_cons gap ')' rest, ⟨')', by simp, by decide⟩,
      by simp; omega, more⟩
  | @run _ gap w rest _ blank ne inner ends more =>
    have hlast := List.getLast_mem ne
    refine ⟨gap ++ w, rest, (List.append_assoc gap w rest).symm, ⟨w.getLast ne, ?_, ?_⟩,
      by simp; omega, more⟩
    · rw [List.getLast?_append, List.getLast?_eq_some_getLast ne]
      rfl
    · exact isBlank_of_isInner (inner _ hlast)

/-- The last token stops where the text does exactly if no blank comes after it. -/
theorem Laid.ends_iff {t : Token} (h : Laid p cs (t :: ts)) :
    (∃ c ∈ cs.getLast?, Text.isBlank c = false) ↔
      ((t :: ts).getLast (List.cons_ne_nil t ts)).stop = p + cs.length := by
  induction ts generalizing p cs t with
  | nil =>
    obtain ⟨front, rest, rfl, hfront, hstop, more⟩ := h.tail
    cases more with
    | done blank =>
      rw [List.getLast_singleton, hstop, List.length_append, List.getLast?_append]
      cases hlast : rest.getLast? with
      | none =>
        obtain rfl := List.getLast?_eq_none_iff.mp hlast
        simpa using hfront
      | some d =>
        have hmem := List.mem_of_getLast? hlast
        have hne := List.ne_nil_of_mem hmem
        simp [blank d hmem, hne]
  | cons t' ts ih =>
    obtain ⟨front, rest, rfl, -, hstop, more⟩ := h.tail
    obtain ⟨d, hd⟩ := Option.isSome_iff_exists.mp (List.getLast?_isSome.mpr more.ne_nil)
    have hlast := ih more
    rw [List.getLast_cons (List.cons_ne_nil t' ts), List.getLast?_append, List.length_append,
      ← Nat.add_assoc, ← hstop, ← hlast, hd]
    rfl

/-! ## Plain names -/

/-- A name is plain exactly if it reads as words that start where it starts and stop where it
stops. -/
theorem plainName_iff_laid {name : List Char} :
    PlainName name ↔ ∃ t ts, Laid p name (t :: ts) ∧ (∀ u ∈ t :: ts, u.kind = .word) ∧
      t.start = p ∧ ((t :: ts).getLast (List.cons_ne_nil t ts)).stop = p + name.length := by
  constructor
  · intro h
    have laid := laid_tokensFrom p name
    have kinds := laid.kind_eq h.free
    have cut := laid.pieces_eq h.free
    generalize tokensFrom p [] name = ts at laid kinds cut
    cases ts with
    | nil =>
      cases laid with
      | done blank =>
        obtain ⟨c, hc, hblank⟩ := h.starts
        exact absurd (hblank.symm.trans (blank c (List.mem_of_head? hc))) Bool.false_ne_true
    | cons t ts =>
      refine ⟨t, ts, laid, fun u hu => ?_, laid.starts_iff.mp h.starts, laid.ends_iff.mp h.ends⟩
      rw [kinds u hu, ofRun_eq_word_iff]
      rintro k hk
      have hmem : u.chars ∈ pieces name := cut ▸ List.mem_map_of_mem hu
      rw [hk, mem_pieces (word_toList_ne_nil k)] at hmem
      exact h.noConnective k hmem
  · intro h
    obtain ⟨t, ts, laid, words, hstart, hstop⟩ := h
    have free := laid.free words
    refine ⟨free, laid.starts_iff.mpr hstart, laid.ends_iff.mpr hstop, fun k hk => ?_⟩
    rw [← mem_pieces (word_toList_ne_nil k), laid.pieces_eq free, List.mem_map] at hk
    obtain ⟨u, hu, hchars⟩ := hk
    have hkind := words u hu
    rw [laid.kind_eq free u hu, ofRun_eq_word_iff] at hkind
    exact hkind k hchars

end OpeningHand.Condition
