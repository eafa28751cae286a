import OpeningHand.Proofs.Yaml.Written.Blocks
import OpeningHand.Proofs.Yaml.Written.Double
import OpeningHand.Proofs.Yaml.Written.Single

/-!
# Tokens of written scalars

A text that is written in its style is one scalar token, whether it is a value with a line after it
or a key with its colon. A text that is kept (`IsKept`) is read back as it was.
-/

namespace OpeningHand.Yaml

open Writer Lexer

variable {l : Layout} {cs w x r : List Char} {ch : Char} {c d : Cursor} {n q : Nat}

namespace Writer

/-- Writing keeps the text: it is not written between apostrophes, or holds no U+0085, which would
be read as a newline there. -/
def IsKept (cs : List Char) : Prop := styleOf cs = .single → '\x85' ∉ cs

instance (cs : List Char) : Decidable (IsKept cs) :=
  inferInstanceAs (Decidable (_ → _))

/-- The token of a text in its style. -/
def scalarToken (cs : List Char) : Token := .scalar cs (styleOf cs = .plain)

/-! ## First words -/

/-- The first word of a text starts with no mark either. -/
theorem startsWithMark_word (hw : w ≠ []) (hx : isGapOrEnd (x.headD endMark) = true)
    (h : startsWithMark (w ++ x) = false) : startsWithMark w = false := by
  obtain ⟨ch, w, rfl⟩ := List.exists_cons_of_ne_nil hw
  cases w with
  | nil =>
    rw [List.singleton_append, startsWithMark, hx] at h
    simp only [Bool.or_eq_false_iff] at h
    rw [startsWithMark, h.1.1.1]
    simpa [isGapOrEnd, isSpaceOrEnd, isLineEnd, and_assoc] using h.1.1.2
  | cons d w =>
    cases w with
    | nil =>
      simp only [List.cons_append, startsWithMark, List.headD_cons, Bool.or_eq_false_iff] at h ⊢
      refine ⟨⟨h.1.1, ?_⟩, ?_⟩ <;> simp
    | cons e w => exact h

theorem startsPlain_word (hw : IsWord (ch :: w)) (h : startsWithMark (ch :: w) = false)
    (x : List Char) : StartsPlain ch (w ++ x) := by
  rw [startsWithMark] at h
  simp only [Bool.or_eq_false_iff] at h
  refine ⟨hw.solid ch List.mem_cons_self, h.1.1.1, ?_⟩
  cases w with
  | nil =>
    have hend : isGapOrEnd (([] : List Char).headD endMark) = true := rfl
    have hmark := h.1.1.2
    rw [hend, Bool.and_true] at hmark
    rw [hmark, Bool.false_and]
  | cons d w =>
    have hsolid := hw.solid d (List.mem_cons_of_mem ch List.mem_cons_self)
    rw [isSolid, Bool.not_eq_true'] at hsolid
    rw [List.cons_append, List.headD_cons, hsolid, Bool.and_false]

/-- What is in no chunk ends no separator. -/
theorem take_three_of_word {a : Char} (ha : isGapOrEnd a = false ∧ a ≠ ':') (hw : w ≠ [])
    (hx : plainChunk false x = []) (h : (w ++ x).take 3 = [a, a, a]) : w.take 3 = [a, a, a] := by
  have hhead (y : List Char) : x ≠ a :: y := by
    rintro rfl
    rw [plainChunk, ha.1, decide_eq_false ha.2] at hx
    cases hx
  -- the words of fewer than three characters would have the mark go on behind them
  obtain _ | ⟨b, _ | ⟨b', _ | ⟨b'', w⟩⟩⟩ := w
  · exact absurd rfl hw
  · cases x with
    | nil => simp at h
    | cons y x =>
      simp at h
      exact absurd (congrArg (· :: x) h.2.1) (hhead x)
  · cases x with
    | nil => simp at h
    | cons y x =>
      simp at h
      exact absurd (congrArg (· :: x) h.2.2) (hhead x)
  · simpa using h

theorem atSeparator_word (hw : w ≠ []) (hmark : startsWithMark w = false)
    (hx : plainChunk false x = []) (hrest : c.rest = w ++ x) : c.atSeparator = false := by
  have hnot (a : Char) (ha : isGapOrEnd a = false ∧ a ≠ ':') (hmarked : ∀ w',
      startsWithMark (a :: a :: a :: w') = true) : (w ++ x).take 3 ≠ [a, a, a] := by
    intro htake
    have hword := take_three_of_word ha hw hx htake
    obtain ⟨w', rfl⟩ : ∃ w', w = a :: a :: a :: w' :=
      ⟨w.drop 3, by rw [← List.take_append_drop 3 w, hword]; rfl⟩
    rw [hmarked] at hmark
    cases hmark
  rw [Cursor.atSeparator, hrest, decide_eq_false (hnot '-' (by decide) fun _ => rfl),
    decide_eq_false (hnot '.' (by decide) fun _ => rfl)]
  rfl

end Writer

namespace Lexer

/-! ## Letters and digits -/

theorem isAlphanum_of_isDigit (hch : ch.isDigit = true) : ch.isAlphanum = true := by
  rw [Char.isAlphanum, hch, Bool.or_true]

/-- A letter or digit is no mark. -/
theorem ne_of_isAlphanum {x : Char} (hch : ch.isAlphanum = true) (hx : x.isAlphanum = false) :
    ch ≠ x := by
  rintro rfl
  cases hch.symm.trans hx

theorem isSolid_of_isAlphanum (hch : ch.isAlphanum = true) : isSolid ch = true := by
  have hne {x : Char} (hx : x.isAlphanum = false) : decide (ch = x) = false :=
    decide_eq_false (ne_of_isAlphanum hch hx)
  simp only [isSolid, isGapOrEnd, isSpaceOrEnd, isLineEnd, isBreak, hne (x := '\t') rfl,
    hne (x := ' ') rfl, hne (x := endMark) rfl, hne (x := '\r') rfl, hne (x := '\n') rfl,
    hne (x := '\x85') rfl, hne (x := '\u2028') rfl, hne (x := '\u2029') rfl]
  rfl

theorem isInline_of_isAlphanum (hch : ch.isAlphanum = true) : isInline ch = true := by
  rw [isInline, (isSolid_iff.mp (isSolid_of_isAlphanum hch)).2.2.2,
    decide_eq_true (ne_of_isAlphanum hch rfl)]
  rfl

/-- Letters and digits are a word that starts with no mark. -/
theorem isWord_of_isAlphanum (hne : w ≠ []) (hw : ∀ ch ∈ w, ch.isAlphanum = true) :
    IsWord w ∧ startsWithMark w = false := by
  have hnot {x : Char} (hx : x.isAlphanum = false) : ∀ ch ∈ w, ch ≠ x :=
    fun ch hch => ne_of_isAlphanum (hw ch hch) hx
  refine ⟨⟨hne, fun ch hch => isSolid_of_isAlphanum (hw ch hch),
    fun ch hch => isInline_of_isAlphanum (hw ch hch), fun hhead => ?_, fun hlast => ?_⟩, ?_⟩
  · exact hnot (x := '#') rfl _ (List.mem_of_mem_head? hhead) rfl
  · exact hnot (x := ':') rfl _ (List.mem_of_getLast? hlast) rfl
  · obtain ⟨ch, w, rfl⟩ := List.exists_cons_of_ne_nil hne
    have hmarks : "#,[]\x7b\x7d&*!|>'\"%@`".toList.all (fun x => !x.isAlphanum) = true := by decide
    have hmark : "#,[]\x7b\x7d&*!|>'\"%@`".toList.contains ch = false := by
      rw [List.contains_eq_mem, decide_eq_false_iff_not]
      intro h
      have hletter := List.all_eq_true.mp hmarks ch h
      rw [hw ch List.mem_cons_self] at hletter
      cases hletter
    have hfirst {x : Char} (hx : x.isAlphanum = false) : decide (ch = x) = false :=
      decide_eq_false (hnot hx ch List.mem_cons_self)
    rw [startsWithMark, hmark, hfirst (x := '?') rfl, hfirst (x := ':') rfl, hfirst (x := '-') rfl,
      hfirst (x := '.') rfl]
    rfl

/-! ## Words -/

/-- Words that start with no mark are a plain scalar. -/
theorem takesScalar_words {indent : Int} {more : List (RunKind × List Char)} {crossed : Bool}
    {column : Nat} (h : Words ((.other, w) :: more)) (hmark : startsWithMark w = false)
    (hl : l.folds = true → 0 < l.indent ∧ indent < l.indent)
    (hr : PlainEnds (indent + 1) r crossed n)
    (hrest : c.rest = writeRuns l column true ((.other, w) :: more) ++ r)
    (hcolumn : indent ≤ c.column) :
    TakesScalar c (c.skip ((writeRuns l column true ((.other, w) :: more)).length + n))
      (.scalar (flat ((.other, w) :: more)) true) indent crossed := by
  have hword : IsWord w := by
    cases h with
    | last word => exact word
    | cons word => exact word
  obtain ⟨x, hx, hchunk⟩ : ∃ x, c.rest = w ++ x ∧ plainChunk false x = [] := by
    rw [writeRuns, List.append_assoc] at hrest
    refine ⟨_, hrest, ?_⟩
    cases h with
    | last => exact hr.chunk
    | cons word gap spaces rest =>
      obtain ⟨t, column', hwritten, hgap, -⟩ :=
        exists_gap rest (fun hfolds => hl hfolds) gap spaces (column + w.length)
      rw [hwritten, List.append_assoc]
      exact hgap _
  have hseparator := atSeparator_word hword.nonempty hmark hchunk hx
  obtain ⟨ch, w, rfl⟩ := List.exists_cons_of_ne_nil hword.nonempty
  exact takesScalar_plain (startsPlain_word hword hmark x) hx hseparator
    (plainScalar_words h hl hr hrest hcolumn)

theorem writeRuns_word (w : List Char) : writeRuns ⟨false, 0⟩ 0 true [(.other, w)] = w := by
  rw [writeRuns, writeRuns, List.append_nil]

theorem flat_word (w : List Char) : flat [(.other, w)] = w := by
  rw [flat_cons]
  exact List.append_nil w

/-- One word that starts with no mark is a plain scalar. -/
theorem takesScalar_word {indent : Int} {crossed : Bool} (hword : IsWord w)
    (hmark : startsWithMark w = false) (hr : PlainEnds (indent + 1) r crossed n)
    (hrest : c.rest = w ++ r) (hcolumn : indent ≤ c.column) :
    TakesScalar c (c.skip (w.length + n)) (.scalar w true) indent crossed := by
  have h := takesScalar_words (.last hword) hmark (by rintro ⟨⟩) hr
    ((writeRuns_word w).symm ▸ hrest) hcolumn
  rwa [writeRuns_word, flat_word] at h

variable {ts ts' : List Token} {outer outer' : List Int} {indent : Int} {allowsKey : Bool}
  {column : Nat}

/-! ## Values -/

/-- Words as a value in a block, and the next line. -/
theorem leads_words {more : List (RunKind × List Char)} (h : Words ((.other, w) :: more))
    (hmark : startsWithMark w = false) (hl : l.folds = true → 0 < l.indent ∧ q < l.indent)
    (hrest : c.rest = writeRuns l column true ((.other, w) :: more) ++
      '\n' :: (List.replicate n ' ' ++ r)) (hr : Starts r) (hcolumn : q < c.column) (hn : n ≤ q) :
    ∃ c', c'.rest = r ∧ c'.column = n ∧ Leads (inBlock c ts q outer allowsKey)
      ((inBlock c' (.scalar (flat ((.other, w) :: more)) true :: ts) q outer true).unwind n) := by
  generalize hwritten : writeRuns l column true ((.other, w) :: more) = written at hrest
  have htakes : TakesScalar c (c.skip ((writeRuns l column true ((.other, w) :: more)).length +
      (n + 1))) (.scalar (flat ((.other, w) :: more)) true) q true :=
    takesScalar_words h hmark (fun hfolds => ⟨(hl hfolds).1, Int.ofNat_lt.mpr (hl hfolds).2⟩)
      (plainEnds_newline hr (Int.ofNat_lt.mpr (Nat.lt_succ_of_le hn))) (hwritten ▸ hrest) (by omega)
  rw [hwritten, Cursor.skip_add, Cursor.skip_newline (Cursor.rest_of_skip hrest)] at htakes
  refine ⟨_, rfl, rfl, leads_scalar_crossed htakes (by omega) ?_ ?_ hr⟩
  · exact Nat.lt_succ_of_le (Cursor.line_le_skip _ c)
  · show r.length < c.rest.length
    rw [hrest, List.length_append, List.length_cons, List.length_append]
    omega

/-- One word as a value in a block, and the next line. -/
theorem leads_word (hword : IsWord w) (hmark : startsWithMark w = false)
    (hrest : c.rest = w ++ '\n' :: (List.replicate n ' ' ++ r)) (hr : Starts r)
    (hcolumn : q < c.column) (hn : n ≤ q) :
    ∃ c', c'.rest = r ∧ c'.column = n ∧ Leads (inBlock c ts q outer allowsKey)
      ((inBlock c' (.scalar w true :: ts) q outer true).unwind n) := by
  have h : ∃ c', c'.rest = r ∧ c'.column = n ∧ Leads (inBlock c ts q outer allowsKey)
      ((inBlock c' (.scalar (flat [(.other, w)]) true :: ts) q outer true).unwind n) :=
    leads_words (.last hword) hmark (by rintro ⟨⟩) ((writeRuns_word w).symm ▸ hrest) hr hcolumn hn
  rwa [flat_word] at h

theorem exists_word (h : allowsPlain cs = true) :
    ∃ w more, runs cs = (.other, w) :: more ∧ startsWithMark w = false := by
  have hmark : startsWithMark cs = false := by
    simp only [allowsPlain, Bool.and_eq_true, Bool.not_eq_true'] at h
    exact h.1.1.1.2
  have hflat := flat_runs cs
  have hwords := words_of_allowsPlain h
  generalize runs cs = rs at hflat hwords
  cases hwords with
  | @last w word =>
    have hw : w = cs := by rw [← hflat, flat_cons]; exact (List.append_nil w).symm
    exact ⟨w, [], rfl, hw ▸ hmark⟩
  | @cons w s rs word gap spaces rest =>
    rw [flat_cons, flat_cons] at hflat
    obtain ⟨ch, s, rfl⟩ := List.exists_cons_of_ne_nil gap
    obtain rfl := spaces ch List.mem_cons_self
    exact ⟨w, _, rfl, startsWithMark_word word.nonempty rfl (hflat ▸ hmark)⟩

/-- A quoted text as a value in a block, and the next line. -/
theorem leads_quoted {isDouble : Bool} (hquoted : quotedScalar isDouble c = .ok (cs.map .char, c.skip w.length))
    (hstart : c.peek = quoteMark isDouble)
    (hrest : c.rest = w ++ '\n' :: (List.replicate n ' ' ++ r)) (hr : Starts r)
    (hcolumn : q < c.column) :
    ∃ c', c'.rest = r ∧ c'.column = n ∧ Leads (inBlock c ts q outer allowsKey)
      ((inBlock c' (.scalar cs false :: ts) q outer true).unwind n) := by
  obtain ⟨x, hx⟩ := Cursor.rest_eq_cons hstart (by cases isDouble <;> decide)
  refine leads_scalar_line (takesScalar_quoted hx hquoted) (by omega) (Cursor.line_le_skip _ c) ?_
    (Cursor.rest_of_skip hrest) hr
  rw [hrest, List.length_append, List.length_cons, List.length_append]
  omega

/-- A text as a value in a block, and the next line. -/
theorem leads_text (hkept : IsKept cs) (hq : q + 2 < maxWidth)
    (hrest : c.rest = scalarText ⟨true, q + 2⟩ column cs ++ '\n' :: (List.replicate n ' ' ++ r))
    (hr : Starts r) (hcolumn : q < c.column) (hn : n ≤ q) :
    ∃ c', c'.rest = r ∧ c'.column = n ∧ Leads (inBlock c ts q outer allowsKey)
      ((inBlock c' (scalarToken cs :: ts) q outer true).unwind n) := by
  rw [scalarText] at hrest
  cases hstyle : styleOf cs with
  | plain =>
    simp only [hstyle] at hrest
    have hplain := styleOf_eq_plain hstyle
    have hwords := words_of_allowsPlain hplain
    obtain ⟨w, more, hruns, hmark⟩ := exists_word hplain
    have hflat := flat_runs cs
    rw [hruns] at hwords hflat
    rw [plainText, hruns] at hrest
    have h : ∃ c', c'.rest = r ∧ c'.column = n ∧ Leads (inBlock c ts q outer allowsKey)
        ((inBlock c' (.scalar (flat ((.other, w) :: more)) true :: ts) q outer true).unwind n) :=
      leads_words hwords hmark (fun _ => ⟨Nat.succ_pos _, Nat.lt_add_of_pos_right (by decide)⟩)
        hrest hr hcolumn hn
    rw [hflat] at h
    rw [scalarToken, hstyle]
    exact h
  | single =>
    simp only [hstyle] at hrest
    have hquoted := quotedScalar_singleText (styleOf_eq_single hstyle) (hkept hstyle)
      (fun _ => Nat.succ_pos _) (fun _ => Nat.succ_pos _) hrest (by simp)
    rw [scalarToken, hstyle]
    refine leads_quoted hquoted ?_ hrest hr hcolumn
    rw [Cursor.peek, hrest]
    rfl
  | double =>
    simp only [hstyle] at hrest
    have hquoted := quotedScalar_doubleText (fun _ => ⟨Nat.succ_pos _, hq⟩) hrest
    rw [scalarToken, hstyle]
    refine leads_quoted hquoted ?_ hrest hr hcolumn
    rw [Cursor.peek, hrest]
    rfl

end Lexer

end OpeningHand.Yaml
