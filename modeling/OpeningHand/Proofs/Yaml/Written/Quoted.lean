import OpeningHand.Proofs.Yaml.Written.Walk
import OpeningHand.Yaml.Writer.Scalar

/-!
# Quoted scalars read back

What is written between quotes and what it is read as, piece by piece. `Quotes` says of a piece that
reading goes over it and adds what it stands for, whatever was read before; the laws put pieces
together, so the whole of a written scalar follows by induction on what was written. One thing is
not read back: between apostrophes the break U+0085 counts as a newline, so texts with it are left
out here.
-/

namespace OpeningHand.Yaml.Lexer

variable {isDouble : Bool} {ch : Char} {w w' r cs cs' : List Char} {c : Cursor}

/-- A character at which blanks end and nothing else does. -/
def isSolid (ch : Char) : Bool := !isGapOrEnd ch

/-- After some spaces, or none, stands a solid character. -/
def Firm : List Char → Prop
  | [] => False
  | ch :: r => if ch = ' ' then Firm r else isSolid ch = true

theorem firm_of_solid (h : isSolid ch = true) : Firm (ch :: r) := by
  rw [Firm, if_neg]
  · exact h
  · rintro rfl
    cases h

theorem Firm.after_spaces (h : Firm r) (hw : ∀ x ∈ w, x = ' ') : Firm (w ++ r) := by
  induction w with
  | nil => exact h
  | cons x w ih =>
    obtain ⟨hx, hw⟩ := List.forall_mem_cons.mp hw
    rw [List.cons_append, Firm, if_pos hx]
    exact ih hw

theorem Firm.exists_spaces (h : Firm r) :
    ∃ s ch r', r = s ++ ch :: r' ∧ (∀ x ∈ s, x = ' ') ∧ isSolid ch = true := by
  induction r with
  | nil => exact h.elim
  | cons ch r ih =>
    rw [Firm] at h
    split at h
    next hspace =>
      obtain ⟨s, ch', r', rfl, hs, hsolid⟩ := ih h
      exact ⟨ch :: s, ch', r', rfl, List.forall_mem_cons.mpr ⟨hspace, hs⟩, hsolid⟩
    next => exact ⟨[], ch, r, rfl, List.forall_mem_nil _, h⟩

theorem isSolid_iff : isSolid ch = true ↔
    ch ≠ '\t' ∧ ch ≠ ' ' ∧ ch ≠ endMark ∧ isBreak ch = false := by
  simp [isSolid, isGapOrEnd, isSpaceOrEnd, isLineEnd]

/-- Between quotes, `w` before `r` is read as `cs`. -/
def Quotes (isDouble : Bool) (w r cs : List Char) : Prop :=
  ∀ (ps : List Text.Point) (c : Cursor) (fuel : Nat), c.rest = w ++ r → (w ++ r).length ≤ fuel →
    ∃ fuel', r.length ≤ fuel' ∧ quotedFrom isDouble ps c fuel =
      quotedFrom isDouble (ps ++ cs.map .char) (c.skip w.length) fuel'

namespace Quotes

theorem nil : Quotes isDouble [] r [] := by
  intro ps c fuel _ hfuel
  rw [List.map_nil, List.append_nil]
  exact ⟨fuel, hfuel, rfl⟩

theorem append (h : Quotes isDouble w (w' ++ r) cs) (h' : Quotes isDouble w' r cs') :
    Quotes isDouble (w ++ w') r (cs ++ cs') := by
  intro ps c fuel hrest hfuel
  rw [List.append_assoc] at hrest hfuel
  obtain ⟨fuel₁, hfuel₁, h₁⟩ := h ps c fuel hrest hfuel
  obtain ⟨fuel₂, hfuel₂, h₂⟩ := h' (ps ++ cs.map .char) (c.skip w.length) fuel₁
    (Cursor.rest_of_skip hrest) hfuel₁
  refine ⟨fuel₂, hfuel₂, ?_⟩
  rw [h₁, h₂, List.append_assoc, List.map_append, List.length_append, Cursor.skip_add]

theorem cons (h : Quotes isDouble [ch] (w ++ r) [ch]) (h' : Quotes isDouble w r cs) :
    Quotes isDouble (ch :: w) r (ch :: cs) :=
  h.append h'

/-- A character that stands for itself. -/
theorem char (h : isQuotedChar isDouble ch = true) : Quotes isDouble [ch] r [ch] := by
  intro ps c fuel hrest hfuel
  obtain ⟨fuel, rfl⟩ := Nat.exists_eq_succ_of_ne_zero (Nat.ne_of_gt (Nat.lt_of_lt_of_le
    (Nat.succ_pos _) hfuel))
  refine ⟨fuel + 1, Nat.le_of_succ_le hfuel, ?_⟩
  have hnext : c.next.rest = r := by rw [Cursor.rest_next, hrest]; rfl
  have hrun : c.run (isQuotedChar isDouble) = (ch :: (c.next.run (isQuotedChar isDouble)).1,
      (c.next.run (isQuotedChar isDouble)).2) := by
    simp only [Cursor.run, hrest, hnext, List.singleton_append, List.takeWhile_cons_of_pos h,
      List.length_cons, Cursor.skip]
  rw [quotedFrom, quotedFrom, List.length_singleton, Cursor.skip, Cursor.skip, hrun]
  simp only [List.map_cons, List.map_nil, List.append_assoc, List.singleton_append]

end Quotes

/-! ## Blanks and breaks -/

/-- What is done at a character that does not stand for itself. -/
theorem quotedFrom_stop {ps : List Text.Point} (hrest : c.rest = ch :: r)
    (h : isQuotedChar isDouble ch = false) (fuel : Nat) :
    quotedFrom isDouble ps c (fuel + 1) =
      if isGapOrEnd ch then
        quotedGap c >>= fun gap => quotedFrom isDouble (ps ++ gap.1.map .char) gap.2 fuel
      else if isDouble && ch = '\\' then
        escape c.next >>= fun e => quotedFrom isDouble (ps ++ e.1) e.2 fuel
      else if !isDouble && r.headD endMark = '\'' then
        quotedFrom isDouble (ps ++ [.char '\'']) (c.skip 2) fuel
      else .ok (ps, c.next) := by
  have hrun : c.run (isQuotedChar isDouble) = ([], c) :=
    Cursor.run_nil fun d hd => by
      rw [hrest] at hd
      cases hd
      exact h
  rw [quotedFrom, hrun]
  simp only [Cursor.peek_of_rest hrest, Cursor.peekAt_one hrest, List.map_nil, List.append_nil]

theorem quotedFrom_gap {ps : List Text.Point} (hrest : c.rest = ch :: r)
    (hgap : isGapOrEnd ch = true) (fuel : Nat) :
    quotedFrom isDouble ps c (fuel + 1) =
      (quotedGap c >>= fun gap => quotedFrom isDouble (ps ++ gap.1.map .char) gap.2 fuel) := by
  have hquoted : isQuotedChar isDouble ch = false := by
    rw [isQuotedChar, hgap]
    rfl
  rw [quotedFrom_stop hrest hquoted, if_pos hgap]

/-- Spaces before a solid character are read as they are. -/
theorem quotedGap_spaces (hrest : c.rest = w ++ ch :: r) (hw : ∀ x ∈ w, x = ' ')
    (hsolid : isSolid ch = true) : quotedGap c = .ok (w, c.skip w.length) := by
  obtain ⟨htab, hspace, hend, hbreak⟩ := isSolid_iff.mp hsolid
  have hrun : c.run (fun ch => ch = ' ' || ch = '\t') = (w, c.skip w.length) := by
    refine Cursor.run_eq hrest (fun x hx => by simp [hw x hx]) fun x hx => ?_
    cases hx
    simp [hspace, htab]
  rw [quotedGap, hrun]
  simp only [Cursor.peek_of_rest (Cursor.rest_of_skip hrest), hend, hbreak, if_false,
    Bool.false_eq_true]

theorem Quotes.space (h : Firm r) : Quotes isDouble [' '] r [' '] := by
  obtain ⟨s, ch, r', rfl, hs, hsolid⟩ := h.exists_spaces
  intro ps c fuel hrest hfuel
  obtain ⟨fuel, rfl⟩ := Nat.exists_eq_succ_of_ne_zero (Nat.ne_of_gt (Nat.lt_of_lt_of_le
    (Nat.succ_pos _) hfuel))
  have hall : ∀ x ∈ ' ' :: s, x = ' ' := List.forall_mem_cons.mpr ⟨rfl, hs⟩
  have hnext : c.next.rest = s ++ ch :: r' := by rw [Cursor.rest_next, hrest]; rfl
  have hleft : quotedFrom isDouble ps c (fuel + 1) =
      quotedFrom isDouble (ps ++ (' ' :: s).map .char) (c.skip (s.length + 1)) fuel := by
    rw [quotedFrom_gap hrest rfl, quotedGap_spaces (w := ' ' :: s) hrest hall hsolid]
    rfl
  rw [hleft]
  cases s with
  | nil => exact ⟨fuel, Nat.le_of_succ_le_succ hfuel, rfl⟩
  | cons x s =>
    refine ⟨fuel + 1, Nat.le_of_succ_le hfuel, ?_⟩
    obtain rfl : x = ' ' := hs x List.mem_cons_self
    show _ = quotedFrom isDouble (ps ++ [.char ' ']) c.next (fuel + 1)
    rw [quotedFrom_gap hnext rfl, quotedGap_spaces hnext hs hsolid, List.map_cons,
      List.append_cons]
    rfl

/-- A break that is read as itself, or as a newline if it is one. -/
def isKeptBreak (ch : Char) : Bool := ch = '\n' || ch = '\u2028' || ch = '\u2029'

theorem lineBreak_kept {b : Char} (h : isKeptBreak b = true) (hrest : c.rest = b :: r) :
    c.lineBreak = ([b], c.next) := by
  simp only [isKeptBreak, Bool.or_eq_true, decide_eq_true_eq] at h
  rcases h with (rfl | rfl) | rfl <;> rw [Cursor.lineBreak, Cursor.peek_of_rest hrest] <;> rfl

theorem isBreak_of_kept {b : Char} (h : isKeptBreak b = true) : isBreak b = true := by
  simp only [isKeptBreak, Bool.or_eq_true, decide_eq_true_eq] at h
  rcases h with (rfl | rfl) | rfl <;> rfl

theorem atSeparator_of_head (hrest : c.rest = ch :: r) (hhyphen : ch ≠ '-') (hpoint : ch ≠ '.') :
    c.atSeparator = false := by
  rw [Cursor.atSeparator, hrest]
  simp [hhyphen, hpoint]

theorem ne_of_isBreak {b : Char} (h : isBreak b = true) : b ≠ '-' ∧ b ≠ '.' ∧ b ≠ ' ' ∧ b ≠ '\t' := by
  refine ⟨?_, ?_, ?_, ?_⟩ <;> rintro rfl <;> cases h

/-- Breaks, the indentation of a line, and what the line starts with. -/
theorem quotedBreaks_eq {brs acc : List Char} {n fuel : Nat} (hn : 0 < n)
    (hbrs : ∀ b ∈ brs, isKeptBreak b = true)
    (hrest : c.rest = brs ++ (List.replicate n ' ' ++ ch :: r)) (hsolid : isSolid ch = true)
    (hfuel : brs.length < fuel) :
    quotedBreaks acc c fuel = .ok (acc ++ brs, c.skip (brs.length + n)) := by
  obtain ⟨htab, hspace, hend, hbreak⟩ := isSolid_iff.mp hsolid
  induction brs generalizing acc c fuel with
  | nil =>
    obtain ⟨fuel, rfl⟩ := Nat.exists_eq_succ_of_ne_zero (Nat.ne_of_gt hfuel)
    obtain ⟨m, rfl⟩ := Nat.exists_eq_succ_of_ne_zero (Nat.ne_of_gt hn)
    have hspaces : c.rest = List.replicate (m + 1) ' ' ++ ch :: r := hrest
    have hseparator : c.atSeparator = false := by
      rw [List.replicate_succ] at hspaces
      exact atSeparator_of_head hspaces (by decide) (by decide)
    have hskip : c.skipWhile (fun ch => ch = ' ' || ch = '\t') = c.skip (m + 1) := by
      have h := Cursor.skipWhile_eq (p := fun ch => ch = ' ' || ch = '\t') hspaces
        (fun x hx => by simp [List.eq_of_mem_replicate hx]) fun x hx => by
          cases hx
          simp [hspace, htab]
      rwa [List.length_replicate] at h
    have hpeek : (c.skip (m + 1)).peek = ch := by
      have h := Cursor.rest_of_skip hspaces
      rw [List.length_replicate] at h
      exact Cursor.peek_of_rest h
    rw [quotedBreaks, hseparator, if_neg Bool.false_ne_true]
    simp only [hskip, hpeek, hbreak, Bool.false_eq_true, if_false, List.append_nil,
      List.length_nil, Nat.zero_add]
  | cons b brs ih =>
    obtain ⟨fuel, rfl⟩ := Nat.exists_eq_succ_of_ne_zero (Nat.ne_of_gt (Nat.zero_lt_of_lt hfuel))
    obtain ⟨hb, hbrs⟩ := List.forall_mem_cons.mp hbrs
    obtain ⟨hhyphen, hpoint, hspace', htab'⟩ := ne_of_isBreak (isBreak_of_kept hb)
    have hskip : c.skipWhile (fun ch => ch = ' ' || ch = '\t') = c := by
      rw [Cursor.skipWhile, Cursor.run_nil fun d hd => ?_]
      rw [hrest] at hd
      cases hd
      simp [hspace', htab']
    have hnext : c.next.rest = brs ++ (List.replicate n ' ' ++ ch :: r) := by
      rw [Cursor.rest_next, hrest]
      rfl
    rw [quotedBreaks, atSeparator_of_head hrest hhyphen hpoint, if_neg Bool.false_ne_true]
    simp only [hskip, Cursor.peek_of_rest hrest, isBreak_of_kept hb, lineBreak_kept hb hrest,
      if_true]
    rw [ih hbrs hnext (Nat.lt_of_succ_lt_succ hfuel), List.append_assoc, List.singleton_append,
      List.length_cons, Nat.add_right_comm brs.length 1 n, Cursor.skip]

/-- Breaks and the indentation of a line between quotes. -/
theorem Quotes.breaks {b : Char} {brs : List Char} {n : Nat} (hn : 0 < n)
    (hb : isKeptBreak b = true) (hbrs : ∀ b ∈ brs, isKeptBreak b = true)
    (hsolid : isSolid ch = true) :
    Quotes isDouble (b :: (brs ++ List.replicate n ' ')) (ch :: r) (foldBreaks [b] brs) := by
  intro ps c fuel hrest hfuel
  obtain ⟨fuel, rfl⟩ := Nat.exists_eq_succ_of_ne_zero (Nat.ne_of_gt (Nat.lt_of_lt_of_le
    (Nat.succ_pos _) hfuel))
  have hrest' : c.rest = b :: (brs ++ (List.replicate n ' ' ++ ch :: r)) := by
    rw [hrest, List.cons_append, List.append_assoc]
  have hnext : c.next.rest = brs ++ (List.replicate n ' ' ++ ch :: r) := by
    rw [Cursor.rest_next, hrest']
    rfl
  have hbreak := isBreak_of_kept hb
  obtain ⟨-, -, hspace, htab⟩ := ne_of_isBreak hbreak
  have hgap : isGapOrEnd b = true := by
    simp [isGapOrEnd, isSpaceOrEnd, isLineEnd, hbreak]
  have hend : b ≠ endMark := by
    rintro rfl
    cases hbreak
  have hblanks : c.run (fun ch => ch = ' ' || ch = '\t') = ([], c) :=
    Cursor.run_nil fun d hd => by
      rw [hrest'] at hd
      cases hd
      simp [hspace, htab]
  have hlength : brs.length < c.next.rest.length + 1 := by
    rw [hnext, List.length_append]
    omega
  refine ⟨fuel, ?_, ?_⟩
  · rw [List.cons_append, List.length_cons, List.length_append] at hfuel
    omega
  · rw [quotedFrom_gap hrest' hgap, quotedGap, hblanks]
    simp only [Cursor.peek_of_rest hrest', hend, hbreak, lineBreak_kept hb hrest', if_false, if_true,
      quotedBreaks_eq hn hbrs hnext hsolid hlength, List.nil_append, List.length_cons,
      List.length_append, List.length_replicate, Cursor.skip]
    rfl

/-- A line that is folded between quotes. -/
theorem Quotes.fold {n : Nat} (hn : 0 < n) (hsolid : isSolid ch = true) :
    Quotes isDouble ('\n' :: List.replicate n ' ') (ch :: r) [' '] :=
  have h : Quotes isDouble ('\n' :: ([] ++ List.replicate n ' ')) (ch :: r) [' '] :=
    Quotes.breaks hn rfl (List.forall_mem_nil _) hsolid
  h

/-! ## Escapes -/

/-- An escape is read as what the letters after the backslash stand for. -/
theorem Quotes.escape (h : ∀ c : Cursor, c.rest = w ++ r →
    Lexer.escape c = .ok (cs.map .char, c.skip w.length)) : Quotes true ('\\' :: w) r cs := by
  intro ps c fuel hrest hfuel
  obtain ⟨fuel, rfl⟩ := Nat.exists_eq_succ_of_ne_zero (Nat.ne_of_gt (Nat.lt_of_lt_of_le
    (Nat.succ_pos _) hfuel))
  have hnext : c.next.rest = w ++ r := by
    rw [Cursor.rest_next, hrest]
    rfl
  refine ⟨fuel, ?_, ?_⟩
  · rw [List.cons_append, List.length_cons, List.length_append] at hfuel
    omega
  · rw [quotedFrom_stop hrest rfl, h _ hnext]
    rfl

theorem Quotes.letter {letter : Char} (h : escaped? letter = some ch) :
    Quotes true ['\\', letter] r [ch] :=
  .escape fun c hrest => by
    simp only [Lexer.escape, Cursor.peek_of_rest hrest, h]
    rfl

theorem Quotes.number {letter : Char} {digits : List Char} (hletter : escaped? letter = none)
    (hwidth : escapeWidth? letter = some digits.length) (hdigits : digits.all isHexDigit = true)
    (hcode : pointOfCode (hexValue digits) = .ok (.char ch)) :
    Quotes true ('\\' :: letter :: digits) r [ch] :=
  .escape fun c hrest => by
    have hnext : c.next.rest.take digits.length = digits := by
      rw [Cursor.rest_next, hrest]
      exact List.take_left
    simp only [Lexer.escape, Cursor.peek_of_rest hrest, hletter, hwidth, hnext, hdigits, hcode,
      decide_true, Bool.and_self, if_true]
    rfl

/-- A fold between double quotes adds nothing. -/
theorem Quotes.escapedFold {n : Nat} (hn : 0 < n) (hsolid : isSolid ch = true) :
    Quotes true ('\\' :: '\n' :: List.replicate n ' ') (ch :: r) [] :=
  .escape fun c hrest => by
    have hnext : c.next.rest = [] ++ (List.replicate n ' ' ++ ch :: r) := by
      rw [Cursor.rest_next, hrest]
      rfl
    have hbreaks : quotedBreaks [] c.next (c.next.rest.length + 1) =
        .ok ([] ++ [], c.next.skip (0 + n)) :=
      quotedBreaks_eq hn (List.forall_mem_nil _) hnext hsolid (Nat.succ_pos _)
    rw [Lexer.escape]
    simp only [Cursor.peek_of_rest hrest, Cursor.lineBreak_newline hrest, hbreaks]
    simp only [escaped?, escapeWidth?, List.length_cons, List.length_replicate, Cursor.skip,
      Nat.zero_add, List.append_nil]
    rfl

/-! ## Whole scalars -/

/-- The quote that opens and closes a scalar. -/
def quoteMark (isDouble : Bool) : Char := if isDouble then '"' else '\''

theorem isQuotedChar_quoteMark : isQuotedChar isDouble (quoteMark isDouble) = false := by
  cases isDouble <;> rfl

/-- A scalar ends at the quote that opened it, unless that is an apostrophe and one more follows. -/
theorem quotedScalar_eq (hrest : c.rest = quoteMark isDouble :: (w ++ quoteMark isDouble :: r))
    (h : Quotes isDouble w (quoteMark isDouble :: r) cs)
    (hr : isDouble = false → r.headD endMark ≠ '\'') :
    quotedScalar isDouble c = .ok (cs.map .char, c.skip (w.length + 2)) := by
  have hnext : c.next.rest = w ++ quoteMark isDouble :: r := by
    rw [Cursor.rest_next, hrest]
    rfl
  obtain ⟨fuel, hfuel, heq⟩ := h [] c.next (c.rest.length + 1) hnext (by
    rw [hrest, List.length_cons]
    omega)
  obtain ⟨fuel, rfl⟩ := Nat.exists_eq_succ_of_ne_zero (Nat.ne_of_gt (Nat.lt_of_lt_of_le
    (Nat.succ_pos _) hfuel))
  have hend := Cursor.rest_of_skip hnext
  have hlast : c.skip (w.length + 2) = (c.next.skip w.length).next := by
    rw [show w.length + 2 = 1 + (w.length + 1) by omega, Cursor.skip_add, Cursor.skip_add]
    rfl
  rw [quotedScalar, heq, quotedFrom_stop hend isQuotedChar_quoteMark, hlast, List.nil_append]
  cases isDouble with
  | true => rfl
  | false =>
    rw [decide_eq_false (hr rfl)]
    rfl

end OpeningHand.Yaml.Lexer
