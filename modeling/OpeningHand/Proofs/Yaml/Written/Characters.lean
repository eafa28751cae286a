import OpeningHand.Proofs.Yaml.Written.Double
import OpeningHand.Proofs.Yaml.Written.Single

/-!
# Characters of written scalars

Whatever text a scalar is written for, its characters may stand in a document, and without folds and
breaks they stand on one line, a column each.
-/

namespace OpeningHand.Yaml

open Writer Lexer

variable {l : Layout} {cs : List Char} {ch : Char} {column : Nat}

/-- A printable character of ASCII. -/
def IsPrinted (ch : Char) : Prop := 0x20 ≤ ch.toNat ∧ ch.toNat ≤ 0x7e

instance (ch : Char) : Decidable (IsPrinted ch) := inferInstanceAs (Decidable (_ ∧ _))

theorem IsPrinted.isInline (h : IsPrinted ch) : isInline ch = true := by
  have hmark : ch ≠ '\ufeff' := by
    rintro rfl
    revert h
    decide
  rw [Yaml.isInline, decide_eq_true hmark, Bool.and_true, Bool.not_eq_true']
  refine Bool.eq_false_iff.mpr fun hbreak => ?_
  simp only [isBreak, Bool.or_eq_true, decide_eq_true_eq] at hbreak
  rcases hbreak with (((rfl | rfl) | rfl) | rfl) | rfl <;> revert h <;> decide

theorem IsPrinted.isTextChar (h : IsPrinted ch) : isTextChar ch = true := by
  simp [Yaml.isTextChar, h.1, h.2]

/-- An escape is printable ASCII. -/
theorem isPrinted_escapeText {d : Char} (h : ch ∈ escapeText d) : IsPrinted ch := by
  have hletters : ∀ e ∈ [('\x00', '0'), ('\x07', 'a'), ('\x08', 'b'), ('\t', 't'), ('\n', 'n'),
      ('\x0b', 'v'), ('\x0c', 'f'), ('\r', 'r'), ('\x1b', 'e'), ('"', '"'), ('\\', '\\'),
      ('\x85', 'N'), ('\xa0', '_'), ('\u2028', 'L'), ('\u2029', 'P')], IsPrinted e.2 := by decide
  have hdigit : ∀ d < 16, IsPrinted (Nat.digitChar d).toUpper := by decide
  have hnumber {letter : Char} {width n : Nat} (hletter : IsPrinted letter)
      (h : ch ∈ '\\' :: letter :: capitalHex width n) : IsPrinted ch := by
    rcases List.mem_cons.mp h with rfl | h
    · decide
    · rcases List.mem_cons.mp h with rfl | h
      · exact hletter
      · obtain ⟨d, hd, rfl⟩ := exists_digit_of_mem_capitalHex h
        exact hdigit d hd
  rw [escapeText] at h
  split at h
  next letter hletter =>
    obtain ⟨as, bs, heq, -⟩ := List.lookup_eq_some_iff.mp hletter
    rcases List.mem_cons.mp h with rfl | h
    · decide
    · rw [List.mem_singleton.mp h]
      exact hletters (d, letter) (by rw [heq]; simp)
  next =>
    dsimp only at h
    split at h
    · exact hnumber (by decide) h
    · split at h <;> exact hnumber (by decide) h

theorem isTextChar_of_needsEscape (h : needsEscape ch = false) : isTextChar ch = true := by
  by_cases hnewline : ch = '\n'
  · rw [hnewline]
    rfl
  · simp only [needsEscape, hnewline, decide_false, Bool.false_or, Bool.not_eq_false',
      Bool.or_eq_true, Bool.and_eq_true, decide_eq_true_eq] at h
    simp only [isTextChar, Bool.or_eq_true, Bool.and_eq_true, decide_eq_true_eq]
    omega

theorem isTextChar_of_isDoubleChar (h : isDoubleChar ch = true) : isTextChar ch = true := by
  simp only [isDoubleChar, Bool.and_eq_true, Bool.or_eq_true, decide_eq_true_eq] at h
  simp only [isTextChar, Bool.or_eq_true, Bool.and_eq_true, decide_eq_true_eq]
  omega

theorem isInline_of_isDoubleChar (h : isDoubleChar ch = true) : isInline ch = true := by
  have hmark : ch ≠ '\ufeff' := by
    rintro rfl
    cases h
  by_cases hspace : ch = ' '
  · subst hspace
    rfl
  · rw [isInline, (isSolid_iff.mp (isSolid_of_isDoubleChar h hspace)).2.2.2, decide_eq_true hmark]
    rfl

theorem isInline_of_needsEscape (h : needsEscape ch = false) (hbreak : isWrittenBreak ch = false) :
    isInline ch = true := by
  by_cases hspace : ch = ' '
  · subst hspace
    rfl
  · exact isInline_of_other (by rw [RunKind.of, if_neg hspace, hbreak]; rfl) h

theorem mem_doubled (h : ch ∈ doubled cs) : ch ∈ cs := by
  obtain ⟨d, hd, hch⟩ := List.mem_flatMap.mp h
  split at hch
  · rcases List.mem_cons.mp hch with rfl | hch
    · exact hd
    · rwa [List.mem_singleton.mp hch]
  · rwa [List.mem_singleton.mp hch]

theorem needsEscape_of_allowsSingle (h : allowsSingle cs = true) :
    ∀ ch ∈ cs, needsEscape ch = false := by
  rw [allowsSingle, Bool.not_eq_true', Bool.or_eq_false_iff] at h
  exact fun ch hch => Bool.eq_false_iff.mpr (List.any_eq_false.mp h.2 ch hch)

/-- Whatever is written for a text may stand in a document. -/
theorem isTextChar_scalarText (h : ch ∈ scalarText l column cs) : isTextChar ch = true := by
  have hruns {cs : List Char} {column : Nat} {isFirst : Bool}
      (hcs : ∀ ch ∈ cs, needsEscape ch = false)
      (h : ch ∈ writeRuns l column isFirst (runs cs)) : isTextChar ch = true := by
    rcases mem_writeRuns h with h | rfl | rfl
    · rw [flat_runs] at h
      exact isTextChar_of_needsEscape (hcs ch h)
    · rfl
    · rfl
  rw [scalarText] at h
  cases hstyle : styleOf cs with
  | plain =>
    simp only [hstyle] at h
    have hplain := styleOf_eq_plain hstyle
    exact hruns (needsEscape_of_allowsSingle (allowsSingle_of_allowsPlain hplain)) h
  | single =>
    simp only [hstyle, singleText, List.mem_cons, List.mem_append] at h
    rcases h with rfl | h | rfl | h
    · rfl
    · exact hruns (fun ch hch => needsEscape_of_allowsSingle (styleOf_eq_single hstyle) ch
        (mem_doubled hch)) h
    · rfl
    · cases h
  | double =>
    simp only [hstyle, doubleText, List.mem_cons, List.mem_append] at h
    rcases h with rfl | h | rfl | h
    · rfl
    · rcases mem_doubleFrom h with h | ⟨d, h⟩ | ⟨-, rfl | rfl | rfl⟩
      · exact isTextChar_of_isDoubleChar h
      · exact (isPrinted_escapeText h).isTextChar
      all_goals rfl
    · rfl
    · cases h

/-- A text of one line is written alike by all layouts without folds. -/
theorem scalarText_line {l' : Layout} {column' : Nat} (hl : l.folds = false)
    (hl' : l'.folds = false) (hline : isMultiline cs = false) :
    scalarText l column cs = scalarText l' column' cs := by
  have hcs : ∀ ch ∈ cs, isWrittenBreak ch = false :=
    fun ch hch => Bool.eq_false_iff.mpr (List.any_eq_false.mp hline ch hch)
  have hdoubled : ∀ ch ∈ doubled cs, isWrittenBreak ch = false := fun ch hch => hcs ch (mem_doubled hch)
  rw [scalarText, scalarText, plainText, plainText, singleText, singleText, doubleText, doubleText,
    writeRuns_line hl hcs, writeRuns_line hl' hcs, writeRuns_line hl hdoubled,
    writeRuns_line hl' hdoubled, doubleFrom_unfolded hl, doubleFrom_unfolded hl']

/-- A text of one line is written on one line if it may not be folded. -/
theorem isInline_scalarText (hl : l.folds = false) (hline : isMultiline cs = false)
    (h : ch ∈ scalarText l column cs) : isInline ch = true := by
  have hcs : ∀ ch ∈ cs, isWrittenBreak ch = false :=
    fun ch hch => Bool.eq_false_iff.mpr (List.any_eq_false.mp hline ch hch)
  rw [scalarText] at h
  cases hstyle : styleOf cs with
  | plain =>
    simp only [hstyle, plainText, writeRuns_line hl hcs] at h
    have hsingle := allowsSingle_of_allowsPlain (styleOf_eq_plain hstyle)
    exact isInline_of_needsEscape (needsEscape_of_allowsSingle hsingle ch h) (hcs ch h)
  | single =>
    simp only [hstyle, singleText, writeRuns_line hl fun ch hch => hcs ch (mem_doubled hch),
      List.mem_cons, List.mem_append] at h
    rcases h with rfl | h | rfl | h
    · rfl
    · have hmem := mem_doubled h
      exact isInline_of_needsEscape
        (needsEscape_of_allowsSingle (styleOf_eq_single hstyle) ch hmem) (hcs ch hmem)
    · rfl
    · cases h
  | double =>
    simp only [hstyle, doubleText, List.mem_cons, List.mem_append] at h
    rcases h with rfl | h | rfl | h
    · rfl
    · rcases mem_doubleFrom h with h | ⟨d, h⟩ | ⟨hfolds, -⟩
      · exact isInline_of_isDoubleChar h
      · exact (isPrinted_escapeText h).isInline
      · rw [hl] at hfolds
        cases hfolds
    · rfl
    · cases h

end OpeningHand.Yaml
