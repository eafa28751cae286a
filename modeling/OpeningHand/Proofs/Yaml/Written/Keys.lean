import OpeningHand.Proofs.Yaml.Written.Characters
import OpeningHand.Proofs.Yaml.Written.Scalars
import OpeningHand.Yaml.Writer

/-!
# Tokens of written keys

A name before its colon, or after a question mark, is read as a key. Before its colon a name stands
on one line, and it is only read back if what is written for it is not too long: the reader forgets
where a key could have started after 1024 characters.
-/

namespace OpeningHand.Yaml

open Writer Lexer

variable {cs r : List Char} {c : Cursor} {ts ts' : List Token} {outer outer' : List Int}
  {indent : Int} {q : Nat}

namespace Lexer

/-- A text on the line of its colon. -/
theorem takesScalar_simpleName (hkept : IsKept cs) (hline : isMultiline cs = false)
    (hcolumn : indent ≤ c.column) (hrest : c.rest = simpleName q cs ++ ':' :: r)
    (hr : isGapOrEnd (r.headD endMark) = true) :
    TakesScalar c (c.skip (simpleName q cs).length) (scalarToken cs) indent false := by
  rw [simpleName, scalarText] at hrest ⊢
  cases hstyle : styleOf cs with
  | plain =>
    simp only [hstyle] at hrest ⊢
    have hplain := styleOf_eq_plain hstyle
    have hwords := words_of_allowsPlain hplain
    obtain ⟨w, more, hruns, hmark⟩ := exists_word hplain
    have hflat := flat_runs cs
    rw [plainText, hruns] at hrest ⊢
    rw [hruns] at hwords hflat
    have h := takesScalar_words hwords hmark (by rintro ⟨⟩) (plainEnds_colon hr) hrest hcolumn
    rw [hflat, Nat.add_zero] at h
    rw [scalarToken, hstyle]
    exact h
  | single =>
    simp only [hstyle] at hrest ⊢
    have hquoted := quotedScalar_singleText (styleOf_eq_single hstyle) (hkept hstyle)
      (by rintro ⟨⟩) (fun hmulti => absurd hmulti (Bool.eq_false_iff.mp hline)) hrest (by simp)
    have hstart : c.rest = quoteMark false :: _ := hrest
    rw [scalarToken, hstyle]
    exact takesScalar_quoted hstart hquoted
  | double =>
    simp only [hstyle] at hrest ⊢
    have hquoted := quotedScalar_doubleText (by rintro ⟨⟩) hrest
    have hstart : c.rest = quoteMark true :: _ := hrest
    rw [scalarToken, hstyle]
    exact takesScalar_quoted hstart hquoted

/-- What is written for a text starts a token. -/
theorem starts_scalarText {l : Layout} {column : Nat} (x : List Char) :
    Starts (scalarText l column cs ++ x) := by
  rw [scalarText]
  cases hstyle : styleOf cs with
  | plain =>
    obtain ⟨first, more, heq, hsolid, hstart⟩ :=
      (words_of_allowsPlain (styleOf_eq_plain hstyle)).exists_head (l := l) column true
    show Starts (writeRuns l column true (runs cs) ++ x)
    rw [heq]
    rw [isSolid, Bool.not_eq_true'] at hsolid
    exact starts_cons.mpr ⟨hsolid, hstart⟩
  | single => exact starts_cons.mpr (by decide)
  | double => exact starts_cons.mpr (by decide)

theorem length_scalarText_pos (l : Layout) (column : Nat) : 0 < (scalarText l column cs).length := by
  refine List.length_pos_iff.mpr fun hnil => ?_
  have hstarts : Starts (scalarText l column cs ++ [' ']) := starts_scalarText _
  rw [hnil] at hstarts
  cases (starts_cons.mp hstarts).1

/-- A name and its colon on one line. -/
theorem leads_simpleName (hkept : IsKept cs) (hsimple : isSimpleKey cs = true)
    (hshort : (simpleName q cs).length ≤ maxKeyLength)
    (hopens : Opens q .blockMappingStart indent outer ts outer' ts') (hcolumn : c.column = q)
    (hrest : c.rest = simpleName q cs ++ ':' :: r) (hr : isGapOrEnd (r.headD endMark) = true) :
    ∃ d, d.rest = r ∧ d.column = q + (simpleName q cs).length + 1 ∧ ∀ m,
      Continues (inBlock d (.value :: scalarToken cs :: .key :: ts') q outer' false) m →
        Leads (inBlock c ts indent outer true) m := by
  have hline : isMultiline cs = false := by
    simp only [isSimpleKey, Bool.and_eq_true, Bool.not_eq_true'] at hsimple
    exact hsimple.2
  have hle := hopens.le
  have htakes : TakesScalar c (c.skip (simpleName q cs).length) (scalarToken cs) indent false :=
    takesScalar_simpleName hkept hline (by omega) hrest hr
  have hskip := Cursor.skip_inline hrest fun ch hch => isInline_scalarText rfl hline hch
  have hrest' := Cursor.rest_of_skip hrest
  refine ⟨(c.skip (simpleName q cs).length).next, ?_, ?_, fun m h => ?_⟩
  · rw [Cursor.rest_next, hrest']
    rfl
  · rw [Cursor.next_inline hrest' rfl, hskip, hcolumn]
  · rw [hskip] at htakes hrest' h
    exact leads_simpleKey htakes hopens hcolumn rfl (Nat.add_le_add_left hshort _)
      (Nat.le_add_right _ _) (by
        rw [hrest, List.length_append]
        exact Nat.lt_add_of_pos_left (length_scalarText_pos _ _)) hrest' hr h

/-- A name after a question mark, and the colon on the next line. -/
theorem leads_longName (hkept : IsKept cs) (hq : q + 2 < maxWidth)
    (hopens : Opens q .blockMappingStart indent outer ts outer' ts') (hcolumn : c.column = q)
    (hrest : c.rest = longName q cs ++ ':' :: r) (hr : isGapOrEnd (r.headD endMark) = true) :
    ∃ d, d.rest = r ∧ d.column = q + 1 ∧ ∀ m,
      Continues (inBlock d (.value :: scalarToken cs :: .key :: ts') q outer' true) m →
        Leads (inBlock c ts indent outer true) m := by
  have hrest₀ : c.rest = '?' :: ' ' :: (scalarText ⟨true, q + 2⟩ (q + 2) cs ++
      '\n' :: (List.replicate q ' ' ++ ':' :: r)) := by
    rw [hrest, longName, newLine]
    simp only [List.cons_append, List.append_assoc]
  have hnext := Cursor.next_inline hrest₀ rfl
  have hrest₁ : c.next.rest = ' ' :: (scalarText ⟨true, q + 2⟩ (q + 2) cs ++
      '\n' :: (List.replicate q ' ' ++ ':' :: r)) := by rw [hnext]
  have hnext' := Cursor.next_inline hrest₁ rfl
  have hcolumn₂ : c.next.next.column = q + 2 := by rw [hnext', hnext, hcolumn]
  have hcolon : Starts (':' :: r) := starts_cons.mpr (by decide)
  obtain ⟨c', hc', hcolumn', hleads⟩ : ∃ c', c'.rest = ':' :: r ∧ c'.column = q ∧
      Leads (inBlock c.next.next (.key :: ts') q outer' true)
        ((inBlock c' (scalarToken cs :: .key :: ts') q outer' true).unwind q) :=
    leads_text hkept hq (by rw [hnext']) hcolon (by omega) (Nat.le_refl q)
  rw [unwind_self] at hleads
  refine ⟨c'.next, by rw [Cursor.rest_next, hc']; rfl, ?_, fun m h => ?_⟩
  · rw [Cursor.next_inline hc' rfl, hcolumn']
  · have hcontinues : Continues (inBlock c.next (.key :: ts') q outer' true) m := by
      refine continues_space hrest₁ (starts_scalarText _) ?_ (hleads.trans ?_)
      · rw [hnext]
        show (q : Int) ≤ ((c.column + 1 : Nat) : Int) + 1
        omega
      · refine leads_of_continues (takes_longValue hcolumn' hc' hr) rfl ?_ h
        exact Cursor.length_next_lt hc'
    refine leads_of_continues (takes_longKey hopens hcolumn hrest₀) rfl ?_ hcontinues
    exact Cursor.length_next_lt hrest₀

end Lexer

end OpeningHand.Yaml
