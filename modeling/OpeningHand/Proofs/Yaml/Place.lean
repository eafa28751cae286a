import OpeningHand.Yaml.Lexer

/-!
# Places stay in their text

A cursor stands in a text if what is left at it is an end of that text. Every way of going on from a
cursor keeps that, whatever it passes, so a fault that is found at a cursor is a fault of the text
it stands in.
-/

namespace OpeningHand.Yaml

/-- What is left at the cursor is an end of the text. -/
def Cursor.In (text : List Char) (c : Cursor) : Prop :=
  c.rest <:+ text

namespace Cursor

variable {text : List Char} {c : Cursor}

theorem in_start (text : List Char) : In text (start text) :=
  List.suffix_refl text

/-- Off the end of a text there is only the mark of the end. -/
theorem rest_eq_cons {ch : Char} (h : c.peek = ch) (ne : ch ≠ endMark) :
    ∃ rest, c.rest = ch :: rest := by
  cases hrest : c.rest with
  | nil =>
    rw [peek, hrest] at h
    exact absurd h.symm ne
  | cons d rest =>
    rw [peek, hrest] at h
    exact ⟨rest, by rw [← h]; rfl⟩

theorem rest_next (c : Cursor) : c.next.rest = c.rest.tail := by
  unfold next
  split
  next h => rw [h]; rfl
  next ch rest h =>
    rw [h]
    split
    · rfl
    · split <;> rfl

theorem rest_skip (n : Nat) (c : Cursor) : (c.skip n).rest = c.rest.drop n := by
  induction n generalizing c with
  | zero => rfl
  | succ n ih => rw [skip, ih, rest_next, List.drop_tail]

theorem In.next (h : c.In text) : c.next.In text := by
  rw [In, rest_next]
  exact (List.tail_suffix _).trans h

theorem In.skip (h : c.In text) (n : Nat) : (c.skip n).In text := by
  rw [In, rest_skip]
  exact (List.drop_suffix _ _).trans h

theorem In.run (h : c.In text) (p : Char → Bool) : (c.run p).2.In text :=
  h.skip _

theorem In.skipWhile (h : c.In text) (p : Char → Bool) : (c.skipWhile p).In text :=
  h.run p

theorem In.skipSpaces (h : c.In text) : c.skipSpaces.In text :=
  h.skipWhile _

theorem In.skipComment (h : c.In text) : c.skipComment.In text := by
  unfold Cursor.skipComment
  split
  · exact h.skipWhile _
  · exact h

theorem In.lineBreak (h : c.In text) : c.lineBreak.2.In text := by
  unfold Cursor.lineBreak
  dsimp only
  split
  · exact h.skip 2
  · split
    · exact h.next
    · split
      · exact h.next
      · exact h

end Cursor

namespace Lexer

variable {text : List Char} {c : Cursor}

/-! ## Plain scalars -/

theorem in_plainBreaks (h : c.In text) (breaks : List Char) (fuel : Nat) :
    (plainBreaks breaks c fuel).2.In text := by
  induction fuel generalizing breaks c with
  | zero => exact h
  | succ fuel ih =>
    unfold plainBreaks
    dsimp only
    split
    · exact ih h.next breaks
    · split
      · split
        · exact h.lineBreak
        · exact ih h.lineBreak _
      · exact h

theorem in_plainGap (h : c.In text) : (plainGap c).2.2.In text := by
  have hrun := h.run (· = ' ')
  unfold plainGap
  dsimp only
  split
  · split
    · exact hrun.lineBreak
    · have hbreaks := in_plainBreaks hrun.lineBreak []
        ((c.run (· = ' ')).2.lineBreak.2.rest.length + 1)
      split
      next heq => rw [heq] at hbreaks; exact hbreaks
      next heq => rw [heq] at hbreaks; exact hbreaks
  · exact hrun

theorem in_plainFrom (h : c.In text) (inFlow : Bool) (indent : Int) (chars gap : List Char)
    (crossed : Bool) (fuel : Nat) : (plainFrom inFlow indent chars gap crossed c fuel).2.2.In text := by
  induction fuel generalizing chars gap crossed c with
  | zero => exact h
  | succ fuel ih =>
    unfold plainFrom
    dsimp only
    generalize (if c.peek = '#' then [] else plainChunk inFlow c.rest) = chunk
    have hgap := in_plainGap (h.skip chunk.length)
    split
    · exact h
    · split
      · exact hgap
      · exact ih hgap _ _ _

theorem in_plainScalar (h : c.In text) (inFlow : Bool) (indent : Int) :
    (plainScalar inFlow indent c).2.2.In text :=
  in_plainFrom h inFlow _ _ _ _ _

/-! ## Block scalars -/

theorem in_blockLead (h : c.In text) (breaks : List Char) (widest fuel : Nat) :
    (blockLead breaks widest c fuel).2.2.In text := by
  induction fuel generalizing breaks widest c with
  | zero => exact h
  | succ fuel ih =>
    unfold blockLead
    dsimp only
    split
    · exact ih h.next _ _
    · split
      · exact ih h.lineBreak _ _
      · exact h

theorem in_passIndent (h : c.In text) (indent : Int) (fuel : Nat) :
    (passIndent indent c fuel).In text := by
  induction fuel generalizing c with
  | zero => exact h
  | succ fuel ih =>
    unfold passIndent
    split
    · exact ih h.next
    · exact h

theorem in_blockBreaks (h : c.In text) (indent : Int) (breaks : List Char) (fuel : Nat) :
    (blockBreaks indent breaks c fuel).2.In text := by
  induction fuel generalizing breaks c with
  | zero => exact h
  | succ fuel ih =>
    unfold blockBreaks
    dsimp only
    have hpass := in_passIndent h indent (c.rest.length + 1)
    split
    · exact ih hpass.lineBreak _
    · exact hpass

theorem in_blockLines (h : c.In text) (isFolded : Bool) (indent : Int) (chars breaks : List Char)
    (fuel : Nat) : (blockLines isFolded indent chars breaks c fuel).2.2.2.In text := by
  induction fuel generalizing chars breaks c with
  | zero => exact h
  | succ fuel ih =>
    unfold blockLines
    dsimp only
    have hbreaks := in_blockBreaks (h.run fun ch => !isLineEnd ch).lineBreak indent []
    split
    · exact ih (hbreaks _) _ _
    · exact hbreaks _

end Lexer

end OpeningHand.Yaml
