import OpeningHand.Text.Lines

/-!
# Lines of a text

A line of a text holds no boundary, and lines without boundaries are the lines of some text: each of
them followed by a newline.
-/

namespace OpeningHand.Text

/-- Every line ended by a newline. -/
def unlines (lines : List (List Char)) : List Char :=
  lines.flatMap fun line => line ++ ['\n']

/-- Characters that are no boundaries join the line that they stand in. -/
theorem linesFrom_append {run : List Char} (unbroken : ∀ c ∈ run, isLineBoundary c = false)
    (line rest : List Char) :
    linesFrom line (run ++ rest) = linesFrom (run.reverse ++ line) rest := by
  induction run generalizing line with
  | nil => rfl
  | cons c run ih =>
    obtain ⟨hc, unbroken⟩ := List.forall_mem_cons.mp unbroken
    have hreturn : c ≠ '\r' := by
      rintro rfl
      exact absurd hc (by decide)
    rw [List.cons_append, linesFrom, if_neg (by simp [hc]), ih unbroken, List.reverse_cons,
      List.append_assoc]
    · rfl
    · exact fun cs h => absurd h hreturn

/-- The text up to the first newline is a line, if it holds no boundary. -/
theorem lines_append_newline {run : List Char} (unbroken : ∀ c ∈ run, isLineBoundary c = false)
    (rest : List Char) : lines (run ++ '\n' :: rest) = run :: lines rest := by
  rw [lines, linesFrom_append unbroken, linesFrom, if_pos (by decide), List.append_nil,
    List.reverse_reverse]
  · rfl
  · exact fun cs h => absurd h (by decide)

theorem lines_unlines {ls : List (List Char)}
    (unbroken : ∀ line ∈ ls, ∀ c ∈ line, isLineBoundary c = false) : lines (unlines ls) = ls := by
  induction ls with
  | nil => rfl
  | cons line ls ih =>
    obtain ⟨hline, unbroken⟩ := List.forall_mem_cons.mp unbroken
    rw [unlines, List.flatMap_cons, List.append_assoc]
    exact (lines_append_newline hline _).trans (congrArg (line :: ·) (ih unbroken))

theorem exists_text {ls : List (List Char)}
    (unbroken : ∀ line ∈ ls, ∀ c ∈ line, isLineBoundary c = false) :
    ∃ text : String, lines text.toList = ls := by
  refine ⟨String.ofList (unlines ls), ?_⟩
  rw [String.toList_ofList]
  exact lines_unlines unbroken

/-- No line holds a boundary. The induction follows the reading: what is passed of the current line
holds none. -/
theorem unbroken_of_mem_linesFrom {line cs : List Char}
    (unbroken : ∀ c ∈ line, isLineBoundary c = false) :
    ∀ l ∈ linesFrom line cs, ∀ c ∈ l, isLineBoundary c = false := by
  have hreverse {line : List Char} (h : ∀ c ∈ line, isLineBoundary c = false) :
      ∀ c ∈ line.reverse, isLineBoundary c = false :=
    fun c hc => h c (List.mem_reverse.mp hc)
  induction line, cs using linesFrom.induct with
  | case1 line hempty =>
    rw [linesFrom, if_pos hempty]
    exact fun _ h => absurd h List.not_mem_nil
  | case2 line hempty =>
    rw [linesFrom, if_neg hempty]
    exact List.forall_mem_singleton.mpr (hreverse unbroken)
  | case3 line cs ih =>
    rw [linesFrom]
    exact List.forall_mem_cons.mpr ⟨hreverse unbroken, ih (List.forall_mem_nil _)⟩
  | case4 line c cs hpair hc ih =>
    rw [linesFrom, if_pos hc]
    · exact List.forall_mem_cons.mpr ⟨hreverse unbroken, ih (List.forall_mem_nil _)⟩
    · exact hpair
  | case5 line c cs hpair hc ih =>
    rw [linesFrom, if_neg hc]
    · exact ih (List.forall_mem_cons.mpr ⟨Bool.eq_false_iff.mpr hc, unbroken⟩)
    · exact hpair

theorem unbroken_of_mem_lines {cs : List Char} :
    ∀ line ∈ lines cs, ∀ c ∈ line, isLineBoundary c = false :=
  unbroken_of_mem_linesFrom (List.forall_mem_nil _)

end OpeningHand.Text
