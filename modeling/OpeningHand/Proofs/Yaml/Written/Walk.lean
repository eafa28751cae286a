import OpeningHand.Proofs.Yaml.Place

/-!
# Walks over known text

Where a cursor gets when what is left of the text is known: over characters of one line, which take
a column each, and over a newline and the spaces after it. Further, where a run at the cursor ends.
-/

namespace OpeningHand.Yaml

/-- A character that takes one column of its line. -/
def isInline (ch : Char) : Bool := !isBreak ch && ch ≠ '\ufeff'

namespace Cursor

variable {c : Cursor} {ch : Char} {r w : List Char}

theorem peek_of_rest (h : c.rest = ch :: r) : c.peek = ch := by
  rw [peek, h]
  rfl

theorem peek_of_end (h : c.rest = []) : c.peek = endMark := by
  rw [peek, h]
  rfl

theorem peekAt_one (h : c.rest = ch :: r) : c.peekAt 1 = r.headD endMark := by
  rw [peekAt, h]
  cases r <;> rfl

/-- The character at the cursor is no `ch` if what is left does not start with it. -/
theorem peek_ne (hne : ch ≠ endMark) (h : ∀ d ∈ c.rest.head?, d ≠ ch) : c.peek ≠ ch := by
  rw [peek]
  cases hrest : c.rest with
  | nil => exact hne.symm
  | cons d r => exact h d (by rw [hrest]; rfl)

/-- Within a line, one step is one column. -/
theorem next_inline (h : c.rest = ch :: r) (hch : isInline ch = true) :
    c.next = ⟨r, c.index + 1, c.line, c.column + 1⟩ := by
  simp only [isInline, Bool.and_eq_true, Bool.not_eq_true', decide_eq_true_eq] at hch
  simp only [next, h, hch.1, hch.2, Bool.false_and, Bool.false_eq_true, if_false]

/-- A newline starts the next line at its first column. -/
theorem next_newline (h : c.rest = '\n' :: r) : c.next = ⟨r, c.index + 1, c.line + 1, 0⟩ := by
  rw [next, h]
  rfl

/-- Every step leaves less of the text, which the fuel of readings is measured by. -/
theorem length_next_lt (h : c.rest = ch :: r) : c.next.rest.length < c.rest.length := by
  rw [rest_next, h]
  exact Nat.lt_succ_self _

theorem index_next (h : c.rest = ch :: r) : c.next.index = c.index + 1 := by
  rw [next, h]
  dsimp only
  split
  · rfl
  · split <;> rfl

/-- Lines are never left backwards. -/
theorem line_le_next (c : Cursor) : c.line ≤ c.next.line := by
  unfold next
  split
  · exact Nat.le_refl _
  · split
    · exact Nat.le_succ _
    · split <;> exact Nat.le_refl _

theorem line_le_skip (n : Nat) (c : Cursor) : c.line ≤ (c.skip n).line := by
  induction n generalizing c with
  | zero => exact Nat.le_refl _
  | succ n ih => exact Nat.le_trans (line_le_next c) (ih c.next)

/-- Steps add up. -/
theorem skip_add (m n : Nat) (c : Cursor) : c.skip (m + n) = (c.skip m).skip n := by
  induction m generalizing c with
  | zero => rw [Nat.zero_add, skip]
  | succ m ih => rw [Nat.add_right_comm, skip, ih, skip]

/-- As many steps as a piece is long lead past it. -/
theorem rest_of_skip (h : c.rest = w ++ r) : (c.skip w.length).rest = r := by
  rw [rest_skip, h, List.drop_left]

/-- Over characters of one line. -/
theorem skip_inline (h : c.rest = w ++ r) (hw : ∀ ch ∈ w, isInline ch = true) :
    c.skip w.length = ⟨r, c.index + w.length, c.line, c.column + w.length⟩ := by
  induction w generalizing c with
  | nil =>
    obtain rfl : c.rest = r := h
    rfl
  | cons ch w ih =>
    obtain ⟨hch, hw⟩ := List.forall_mem_cons.mp hw
    rw [List.length_cons, skip, next_inline h hch, ih rfl hw, Nat.add_right_comm c.index,
      Nat.add_right_comm c.column]
    rfl

/-- Over a newline and the spaces of the next line. -/
theorem skip_newline {n : Nat} (h : c.rest = '\n' :: (List.replicate n ' ' ++ r)) :
    c.skip (n + 1) = ⟨r, c.index + 1 + n, c.line + 1, n⟩ := by
  have hnext : c.next.rest = List.replicate n ' ' ++ r := by rw [next_newline h]
  have hspaces := skip_inline hnext fun ch hch => by
    rw [List.eq_of_mem_replicate hch]
    rfl
  rw [List.length_replicate, next_newline h, Nat.zero_add] at hspaces
  rw [skip, next_newline h, hspaces]

/-- A run ends where its characters do. -/
theorem run_eq {p : Char → Bool} (h : c.rest = w ++ r) (hw : ∀ ch ∈ w, p ch = true)
    (hr : ∀ ch ∈ r.head?, p ch = false) : c.run p = (w, c.skip w.length) := by
  have htake : (w ++ r).takeWhile p = w := by
    rw [List.takeWhile_append_of_pos hw]
    cases r with
    | nil => rw [List.takeWhile_nil, List.append_nil]
    | cons d r =>
      rw [List.takeWhile_cons_of_neg (Bool.eq_false_iff.mp (hr d rfl)), List.append_nil]
  rw [run, h, htake]

/-- No run starts where its characters do not. -/
theorem run_nil {p : Char → Bool} (hr : ∀ ch ∈ c.rest.head?, p ch = false) :
    c.run p = ([], c) :=
  run_eq (List.nil_append c.rest).symm (List.forall_mem_nil _) hr

/-- A run of characters is skipped as a whole. -/
theorem skipWhile_eq {p : Char → Bool} (h : c.rest = w ++ r) (hw : ∀ ch ∈ w, p ch = true)
    (hr : ∀ ch ∈ r.head?, p ch = false) : c.skipWhile p = c.skip w.length := by
  rw [skipWhile, run_eq h hw hr]

/-- At a newline the cursor breaks its line. -/
theorem lineBreak_newline (h : c.rest = '\n' :: r) : c.lineBreak = (['\n'], c.next) := by
  rw [lineBreak, peek_of_rest h]
  rfl

end Cursor

/-- What may follow the indentation of a line: no blank, no break, no comment, and no mark U+FEFF,
which is passed over at the start of a text. -/
def Starts (r : List Char) : Prop :=
  ∀ ch ∈ r.head?, isGapOrEnd ch = false ∧ ch ≠ '#' ∧ ch ≠ '\ufeff'

theorem starts_nil : Starts [] := nofun

theorem starts_cons {ch : Char} {r : List Char} :
    Starts (ch :: r) ↔ isGapOrEnd ch = false ∧ ch ≠ '#' ∧ ch ≠ '\ufeff' :=
  ⟨fun h => h ch rfl, fun h d hd => by cases hd; exact h⟩

end OpeningHand.Yaml
