import OpeningHand.Proofs.Yaml.Written.Runs

/-!
# Plain scalars read back

A text that is written plain is words with spaces between them (`Words`): no word starts as a
comment or ends as a key would, so the reading of the scalar goes from word to word, over the spaces
or over a fold in their place. It ends at a colon before a blank or at a line that is indented too
little (`PlainEnds`).
-/

namespace OpeningHand.Yaml

open Writer

variable {ch : Char} {w s r cs : List Char} {c : Cursor} {ind : Int} {n : Nat}

namespace Lexer

/-! ## Chunks and gaps -/

/-- A word of a plain scalar. -/
structure IsWord (w : List Char) : Prop where
  nonempty : w ≠ []
  solid : ∀ ch ∈ w, isSolid ch = true
  inline : ∀ ch ∈ w, isInline ch = true
  head : w.head? ≠ some '#'
  last : w.getLast? ≠ some ':'

/-- A chunk is a word, if what follows the word is in no chunk. -/
theorem plainChunk_word (hw : ∀ ch ∈ w, isSolid ch = true) (hlast : w.getLast? ≠ some ':')
    (hr : plainChunk false r = []) : plainChunk false (w ++ r) = w := by
  induction w with
  | nil => exact hr
  | cons ch w ih =>
    obtain ⟨hch, hw⟩ := List.forall_mem_cons.mp hw
    rw [isSolid, Bool.not_eq_true'] at hch
    have hcolon : (ch = ':' && endsAfterColon false ((w ++ r).headD endMark)) = false := by
      cases w with
      | nil =>
        have hne : ch ≠ ':' := fun heq => hlast (congrArg some heq)
        rw [decide_eq_false hne, Bool.false_and]
      | cons d w =>
        have hd : isGapOrEnd d = false := by
          have hsolid := hw d List.mem_cons_self
          rwa [isSolid, Bool.not_eq_true'] at hsolid
        rw [List.cons_append, List.headD_cons, endsAfterColon, hd, Bool.false_and, Bool.or_self,
          Bool.and_false]
    have hrest : plainChunk false (w ++ r) = w := by
      cases w with
      | nil => exact hr
      | cons d w => exact ih hw (by rwa [List.getLast?_cons_cons] at hlast)
    rw [List.cons_append, plainChunk, hch, hcolon, hrest]
    rfl

theorem plainChunk_gap (h : isGapOrEnd ch = true) : plainChunk false (ch :: r) = [] := by
  rw [plainChunk, h]
  rfl

/-- Spaces within a line. -/
theorem plainGap_spaces (hrest : c.rest = s ++ r) (hs : ∀ x ∈ s, x = ' ')
    (hr : ∀ x ∈ r.head?, isSolid x = true) : plainGap c = (s, false, c.skip s.length) := by
  have hrun : c.run (· = ' ') = (s, c.skip s.length) := by
    refine Cursor.run_eq hrest (fun x hx => decide_eq_true (hs x hx)) fun x hx => ?_
    exact decide_eq_false (isSolid_iff.mp (hr x hx)).2.1
  have hbreak : isBreak (c.skip s.length).peek = false := by
    have hrest := Cursor.rest_of_skip hrest
    cases r with
    | nil =>
      rw [Cursor.peek_of_end hrest]
      rfl
    | cons x r =>
      rw [Cursor.peek_of_rest hrest]
      exact (isSolid_iff.mp (hr x rfl)).2.2.2
  rw [plainGap, hrun]
  simp only [hbreak, Bool.false_eq_true, if_false]

theorem plainBreaks_spaces {fuel : Nat} (hrest : c.rest = List.replicate n ' ' ++ r)
    (hr : Starts r) (hfuel : n < fuel) : plainBreaks [] c fuel = (some [], c.skip n) := by
  induction n generalizing c fuel with
  | zero =>
    obtain ⟨fuel, rfl⟩ := Nat.exists_eq_succ_of_ne_zero (Nat.ne_of_gt hfuel)
    have hpeek : c.peek ≠ ' ' ∧ isBreak c.peek = false := by
      replace hrest : c.rest = r := hrest
      cases r with
      | nil =>
        rw [Cursor.peek_of_end hrest]
        exact ⟨by decide, rfl⟩
      | cons x r =>
        rw [Cursor.peek_of_rest hrest]
        have hx : isSolid x = true := by rw [isSolid, (starts_cons.mp hr).1]; rfl
        exact ⟨(isSolid_iff.mp hx).2.1, (isSolid_iff.mp hx).2.2.2⟩
    rw [plainBreaks, if_neg hpeek.1, hpeek.2]
    rfl
  | succ n ih =>
    obtain ⟨fuel, rfl⟩ := Nat.exists_eq_succ_of_ne_zero (Nat.ne_of_gt (Nat.zero_lt_of_lt hfuel))
    rw [List.replicate_succ, List.cons_append] at hrest
    have hnext : c.next.rest = List.replicate n ' ' ++ r := by
      rw [Cursor.rest_next, hrest]
      rfl
    rw [plainBreaks, if_pos (Cursor.peek_of_rest hrest), ih hnext (Nat.lt_of_succ_lt_succ hfuel)]
    rfl

/-- A newline and the spaces of the next line. -/
theorem plainGap_newline (hrest : c.rest = '\n' :: (List.replicate n ' ' ++ r)) (hr : Starts r) :
    plainGap c = (if c.next.atSeparator then [] else [' '], true, c.skip (n + 1)) := by
  have hrun : c.run (· = ' ') = ([], c) := Cursor.run_nil fun x hx => by
    rw [hrest] at hx
    cases hx
    rfl
  have hnext : c.next.rest = List.replicate n ' ' ++ r := by
    rw [Cursor.rest_next, hrest]
    rfl
  have hlength : n < c.next.rest.length + 1 := by
    rw [hnext, List.length_append, List.length_replicate]
    omega
  have hbreaks := plainBreaks_spaces hnext hr hlength
  have hbreak : isBreak '\n' = true := rfl
  rw [plainGap, hrun]
  simp only [Cursor.peek_of_rest hrest, hbreak, if_true, Cursor.lineBreak_newline hrest, hbreaks]
  split
  next hseparator =>
    cases n with
    | zero => rfl
    | succ n =>
      rw [List.replicate_succ, List.cons_append] at hnext
      rw [atSeparator_of_head hnext (by decide) (by decide)] at hseparator
      cases hseparator
  next => rfl

/-! ## Words -/

/-- A plain scalar may end before `r`, `n` characters of which are passed with it, crossing a line
or not. -/
structure PlainEnds (ind : Int) (r : List Char) (crossed : Bool) (n : Nat) : Prop where
  chunk : plainChunk false r = []
  gap (c : Cursor) (hrest : c.rest = r) : ∃ gap, plainGap c = (gap, crossed, c.skip n) ∧
    (gap = [] ∨ (c.skip n).column < ind)

/-- A plain key ends at its colon. -/
theorem plainEnds_colon (hr : isGapOrEnd (r.headD endMark) = true) :
    PlainEnds ind (':' :: r) false 0 where
  chunk := by
    rw [plainChunk, endsAfterColon, hr]
    rfl
  gap c hrest := by
    refine ⟨[], ?_, .inl rfl⟩
    exact plainGap_spaces (s := []) hrest (List.forall_mem_nil _) fun x hx => by
      cases hx
      rfl

/-- A plain value ends at a line that is indented too little. -/
theorem plainEnds_newline (hr : Starts r) (hn : n < ind) :
    PlainEnds ind ('\n' :: (List.replicate n ' ' ++ r)) true (n + 1) where
  chunk := rfl
  gap c hrest := by
    refine ⟨_, plainGap_newline hrest hr, .inr ?_⟩
    rw [Cursor.skip_newline hrest]
    exact hn

/-- Words with spaces between them. -/
inductive Words : List (RunKind × List Char) → Prop
  | last {w : List Char} (word : IsWord w) : Words [(.other, w)]
  | cons {w s : List Char} {rs : List (RunKind × List Char)} (word : IsWord w) (gap : s ≠ [])
      (spaces : ∀ ch ∈ s, ch = ' ') (rest : Words rs) : Words ((.other, w) :: (.spaces, s) :: rs)

theorem Words.exists_head {l : Layout} {rs : List (RunKind × List Char)} (h : Words rs)
    (column : Nat) (isFirst : Bool) : ∃ first more,
      writeRuns l column isFirst rs = first :: more ∧ isSolid first = true ∧ first ≠ '#' ∧
        first ≠ '\ufeff' := by
  have key {w : List Char} (hw : IsWord w) (x : List Char) : ∃ first more,
      w ++ x = first :: more ∧ isSolid first = true ∧ first ≠ '#' ∧ first ≠ '\ufeff' := by
    obtain ⟨first, more, rfl⟩ := List.exists_cons_of_ne_nil hw.nonempty
    have hinline := hw.inline first List.mem_cons_self
    rw [isInline, Bool.and_eq_true, decide_eq_true_eq] at hinline
    exact ⟨first, more ++ x, rfl, hw.solid first List.mem_cons_self,
      fun heq => hw.head (congrArg some heq), hinline.2⟩
  cases h with
  | last word =>
    rw [writeRuns]
    exact key word _
  | cons word =>
    rw [writeRuns]
    exact key word _

/-- One word and the gap after it. -/
theorem plainFrom_word {x : List Char} {chars gap gap' : List Char} {crossed crossed' : Bool}
    (hw : IsWord w) (hrest : c.rest = w ++ x) (hx : plainChunk false x = [])
    (hgap : plainGap (c.skip w.length) = (gap', crossed', (c.skip w.length).skip n)) (fuel : Nat) :
    plainFrom false ind chars gap crossed c (fuel + 1) =
      if gap'.isEmpty || ((c.skip w.length).skip n).peek = '#' ||
          ((c.skip w.length).skip n).column < ind then
        (chars ++ gap ++ w, crossed', (c.skip w.length).skip n)
      else plainFrom false ind (chars ++ gap ++ w) gap' crossed' ((c.skip w.length).skip n) fuel := by
  have hpeek : c.peek ≠ '#' := Cursor.peek_ne (by decide) fun d hd heq => by
    obtain ⟨first, more, rfl⟩ := List.exists_cons_of_ne_nil hw.nonempty
    rw [hrest] at hd
    cases hd
    exact hw.head (congrArg some heq)
  have hchunk : (if c.peek = '#' then [] else plainChunk false c.rest) = w := by
    rw [if_neg hpeek, hrest, plainChunk_word hw.solid hw.last hx]
  have hnonempty : w.isEmpty = false := List.isEmpty_eq_false_iff.mpr hw.nonempty
  rw [plainFrom]
  simp only [hchunk, hnonempty, hgap, Bool.false_eq_true, if_false, Bool.not_false, Bool.true_and]

/-- Spaces between words, or the fold in their place, are read as the spaces. -/
theorem exists_gap {l : Layout} {rs : List (RunKind × List Char)} (rest : Words rs)
    (hl : l.folds = true → 0 < l.indent ∧ ind ≤ l.indent) (hs : s ≠ []) (spaces : ∀ ch ∈ s, ch = ' ')
    (column : Nat) : ∃ t column', writeRuns l column false ((.spaces, s) :: rs) =
      t ++ writeRuns l column' false rs ∧
      (∀ x, plainChunk false (t ++ x) = []) ∧
      ∀ c x, c.rest = t ++ (writeRuns l column' false rs ++ x) → ind ≤ c.column →
        ∃ crossed, plainGap c = (s, crossed, c.skip t.length) ∧ ind ≤ (c.skip t.length).column := by
  by_cases hfold : (l.folds && s.length = 1 && maxWidth < column && !false && !rs.isEmpty) = true
  · have hwritten : writeRuns l column false ((.spaces, s) :: rs) =
        newLine l.indent ++ writeRuns l l.indent false rs := by rw [writeRuns, if_pos hfold]
    simp only [Bool.and_eq_true, decide_eq_true_eq] at hfold
    obtain ⟨hpos, hind⟩ := hl hfold.1.1.1.1
    obtain ⟨ch, rfl⟩ := List.length_eq_one_iff.mp hfold.1.1.1.2
    obtain rfl := spaces ch List.mem_cons_self
    obtain ⟨first, more, heq, hsolid, hstart⟩ := rest.exists_head (l := l) l.indent false
    refine ⟨newLine l.indent, l.indent, hwritten, fun x => plainChunk_gap rfl, fun c x hrest _ => ?_⟩
    have hstarts : Starts (writeRuns l l.indent false rs ++ x) := by
      rw [heq]
      rw [isSolid, Bool.not_eq_true'] at hsolid
      exact starts_cons.mpr ⟨hsolid, hstart⟩
    have hnext : c.next.rest = List.replicate l.indent ' ' ++ (writeRuns l l.indent false rs ++ x) := by
      rw [Cursor.rest_next, hrest]
      rfl
    have hseparator : c.next.atSeparator = false := by
      obtain ⟨m, hm⟩ := Nat.exists_eq_succ_of_ne_zero (Nat.ne_of_gt hpos)
      rw [hm, List.replicate_succ, List.cons_append] at hnext
      exact atSeparator_of_head hnext (by decide) (by decide)
    have hgap := plainGap_newline hrest hstarts
    rw [hseparator, if_neg Bool.false_ne_true] at hgap
    rw [newLine, List.length_cons, List.length_replicate]
    refine ⟨true, hgap, ?_⟩
    rw [Cursor.skip_newline hrest]
    exact hind
  · have hwritten : writeRuns l column false ((.spaces, s) :: rs) =
        s ++ writeRuns l (column + s.length) false rs := by rw [writeRuns, if_neg hfold]
    refine ⟨s, column + s.length, hwritten, fun x => ?_, fun c x hrest hcolumn => ?_⟩
    · obtain ⟨ch, s, rfl⟩ := List.exists_cons_of_ne_nil hs
      obtain rfl := spaces ch List.mem_cons_self
      exact plainChunk_gap rfl
    · obtain ⟨first, more, heq, hsolid, -⟩ := rest.exists_head (l := l) (column + s.length) false
      have hgap := plainGap_spaces hrest spaces fun y hy => by
        rw [heq] at hy
        cases hy
        exact hsolid
      have hskip := Cursor.skip_inline hrest fun y hy => by
        rw [spaces y hy]
        rfl
      refine ⟨false, hgap, ?_⟩
      rw [hskip]
      exact Int.le_trans hcolumn (Int.ofNat_le.mpr (Nat.le_add_right _ _))

/-- A plain scalar is read word by word. -/
theorem plainFrom_words {l : Layout} {rs : List (RunKind × List Char)} {crossed' : Bool}
    (h : Words rs) (hl : l.folds = true → 0 < l.indent ∧ ind ≤ l.indent)
    (hr : PlainEnds ind r crossed' n) (column : Nat) (isFirst : Bool) (chars gap : List Char)
    (crossed : Bool) (c : Cursor) (fuel : Nat)
    (hrest : c.rest = writeRuns l column isFirst rs ++ r) (hcolumn : ind ≤ c.column + 1)
    (hfuel : (writeRuns l column isFirst rs).length < fuel) :
    plainFrom false ind chars gap crossed c fuel =
      (chars ++ gap ++ flat rs, crossed', c.skip ((writeRuns l column isFirst rs).length + n)) := by
  induction h generalizing column isFirst chars gap crossed c fuel with
  | @last w word =>
    obtain ⟨fuel, rfl⟩ := Nat.exists_eq_succ_of_ne_zero (Nat.ne_of_gt (Nat.zero_lt_of_lt hfuel))
    rw [writeRuns, writeRuns, List.append_nil] at hrest ⊢
    obtain ⟨gap', hgap, hend⟩ := hr.gap _ (Cursor.rest_of_skip hrest)
    have hstop : (gap'.isEmpty || ((c.skip w.length).skip n).peek = '#' ||
        ((c.skip w.length).skip n).column < ind) = true := by
      rcases hend with rfl | hend
      · rfl
      · rw [decide_eq_true hend, Bool.or_true]
    rw [plainFrom_word word hrest hr.chunk hgap, if_pos hstop, Cursor.skip_add]
    simp [flat]
  | @cons w s rs word hgap spaces rest ih =>
    obtain ⟨fuel, rfl⟩ := Nat.exists_eq_succ_of_ne_zero (Nat.ne_of_gt (Nat.zero_lt_of_lt hfuel))
    obtain ⟨t, column', hwritten, hchunk, hread⟩ :=
      exists_gap rest hl hgap spaces (column + w.length)
    have hpos : 0 < w.length := List.length_pos_iff.mpr word.nonempty
    rw [writeRuns, hwritten] at hrest hfuel ⊢
    rw [List.append_assoc, List.append_assoc] at hrest
    have hword := Cursor.skip_inline hrest word.inline
    obtain ⟨crossed'', hgap', hcolumn'⟩ := hread (c.skip w.length) r (Cursor.rest_of_skip hrest) (by
      rw [hword]
      show ind ≤ ((c.column + w.length : Nat) : Int)
      omega)
    have hrest' := Cursor.rest_of_skip (Cursor.rest_of_skip hrest)
    obtain ⟨first, more, heq, -, hcomment, -⟩ := rest.exists_head (l := l) column' false
    have hpeek : ((c.skip w.length).skip t.length).peek ≠ '#' := by
      rw [heq] at hrest'
      rw [Cursor.peek_of_rest hrest']
      exact hcomment
    have hgo : (s.isEmpty || ((c.skip w.length).skip t.length).peek = '#' ||
        ((c.skip w.length).skip t.length).column < ind) = false := by
      rw [List.isEmpty_eq_false_iff.mpr hgap, decide_eq_false hpeek,
        decide_eq_false (Int.not_lt.mpr hcolumn')]
      rfl
    rw [List.length_append, List.length_append] at hfuel
    rw [plainFrom_word word hrest (hchunk _) hgap', if_neg (Bool.eq_false_iff.mp hgo),
      ih column' false _ _ _ _ _ hrest' (Int.le_trans hcolumn' (by omega)) (by omega),
      ← Cursor.skip_add, ← Cursor.skip_add, List.length_append, List.length_append]
    simp only [flat_cons, List.append_assoc, Nat.add_assoc]

/-- Words are read as a plain scalar. -/
theorem plainScalar_words {l : Layout} {indent : Int} {rs : List (RunKind × List Char)}
    {crossed : Bool} {column : Nat} (h : Words rs)
    (hl : l.folds = true → 0 < l.indent ∧ indent < l.indent)
    (hr : PlainEnds (indent + 1) r crossed n) (hrest : c.rest = writeRuns l column true rs ++ r)
    (hcolumn : indent ≤ c.column) :
    plainScalar false indent c =
      (flat rs, crossed, c.skip ((writeRuns l column true rs).length + n)) := by
  have hfuel : (writeRuns l column true rs).length < c.rest.length + 1 := by
    rw [hrest, List.length_append]
    omega
  rw [plainScalar, plainFrom_words h hl hr column true [] [] false c _ hrest (by omega) hfuel]
  rfl

/-! ## Texts that are written plain -/

/-- What a plain text asks of the runs that are left of it. -/
structure PlainRuns (rs : List (RunKind × List Char)) : Prop where
  beside : hasBreakBesideSpace (flat rs) = false
  chars : ∀ ch ∈ flat rs, needsEscape ch = false
  line : ∀ ch ∈ flat rs, isWrittenBreak ch = false
  colon : somePair (fun c next => c = ':' && isGapOrEnd next) (flat rs) = false
  comment : somePair (fun c next => isGapOrEnd c && next = '#') (flat rs) = false
  last : ∀ ch ∈ (flat rs).getLast?, isEdge ch = false

theorem PlainRuns.rest {kind : RunKind} {run : List Char} {more : List (RunKind × List Char)}
    (h : PlainRuns ((kind, run) :: more)) : PlainRuns more where
  beside := somePair_append_right h.beside
  chars ch hch := h.chars ch (List.mem_append_right run hch)
  line ch hch := h.line ch (List.mem_append_right run hch)
  colon := somePair_append_right h.colon
  comment := somePair_append_right h.comment
  last ch hch := h.last ch (by
    rw [flat_cons, List.getLast?_append, Option.mem_def.mp hch]
    rfl)

theorem PlainRuns.isWord {run : List Char} {more : List (RunKind × List Char)}
    (h : PlainRuns ((.other, run) :: more)) (nonempty : run ≠ [])
    (kinds : ∀ ch ∈ run, RunKind.of ch = .other) (hhead : run.head? ≠ some '#')
    (hmore : ∀ next ∈ more.head?, next.1 = .spaces ∧ next.2.head? = some ' ') : IsWord run where
  nonempty := nonempty
  solid ch hch := isSolid_of_other (kinds ch hch) (h.chars ch (List.mem_append_left _ hch))
  inline ch hch := isInline_of_other (kinds ch hch) (h.chars ch (List.mem_append_left _ hch))
  head := hhead
  last hlast := by
    have hcolon := somePair_last h.colon hlast
    have hgap : isGapOrEnd ((flat more).headD endMark) = true := by
      cases more with
      | nil => rfl
      | cons next more =>
        obtain ⟨-, hspace⟩ := hmore next rfl
        obtain ⟨spaces, hspaces⟩ := List.head?_eq_some_iff.mp hspace
        rw [flat, List.flatMap_cons, hspaces]
        rfl
    change (true && isGapOrEnd ((flat more).headD endMark)) = false at hcolon
    rw [hgap] at hcolon
    cases hcolon

/-- Runs that a plain text asks for are words, if the first is one. -/
theorem PlainRuns.words : ∀ {rs : List (RunKind × List Char)}, AreRuns rs → PlainRuns rs →
    (∃ run more, rs = (.other, run) :: more ∧ run.head? ≠ some '#') → Words rs
  | [], _, _, ⟨_, _, hrs, _⟩ => nomatch hrs
  | [(kind, run)], .cons nonempty kinds _ _, h, ⟨_, _, heq, hhead⟩ => by
    cases heq
    exact .last (h.isWord nonempty kinds hhead nofun)
  | (kind, run) :: (kind', s) :: more, .cons nonempty kinds apart rest, h, ⟨_, _, heq, hhead⟩ => by
    cases heq
    have hapart := apart _ rfl
    have hnext := rest.next_other
    have hs := h.rest
    cases rest with
    | cons snonempty skinds sapart srest =>
      have hspaces : kind' = .spaces := by
        obtain ⟨ch, s, rfl⟩ := List.exists_cons_of_ne_nil snonempty
        cases kind' with
        | spaces => rfl
        | other => exact absurd rfl hapart
        | breaks =>
          have hbreak := kind_breaks_iff.mp (skinds ch List.mem_cons_self)
          rw [hs.line ch (by rw [flat_cons]; exact List.mem_append_left _ List.mem_cons_self)]
            at hbreak
          cases hbreak
      subst hspaces
      have hall : ∀ ch ∈ s, ch = ' ' := fun ch hch => kind_spaces_iff.mp (skinds ch hch)
      have hlast : s.getLast? = some ' ' := by
        have hmem := List.getLast_mem snonempty
        rw [List.getLast?_eq_some_getLast snonempty, hall _ hmem]
      have hword : IsWord run := h.isWord nonempty kinds hhead fun next hnext => by
        cases hnext
        obtain ⟨ch, s, rfl⟩ := List.exists_cons_of_ne_nil snonempty
        exact ⟨rfl, congrArg some (hall ch List.mem_cons_self)⟩
      refine .cons hword snonempty hall (PlainRuns.words srest hs.rest ?_)
      cases srest with
      | nil =>
        have hedge := hs.last ' ' (by rw [flat_cons, List.getLast?_append, hlast]; rfl)
        cases hedge
      | @cons kind'' w more wnonempty wkinds wapart wrest =>
        obtain rfl : kind'' = .other := hnext nofun hs.beside _ rfl
        refine ⟨w, more, rfl, fun hcomment => ?_⟩
        have hpair := somePair_last hs.comment hlast
        obtain ⟨w, rfl⟩ := List.head?_eq_some_iff.mp hcomment
        cases hpair

/-- A text that is written plain is words. -/
theorem words_of_allowsPlain (h : allowsPlain cs = true) : Words (runs cs) := by
  simp only [allowsPlain, Bool.and_eq_true, Bool.not_eq_true', List.isEmpty_eq_false_iff,
    allowsSingle, Bool.or_eq_false_iff, holdsMark] at h
  obtain ⟨⟨⟨⟨⟨⟨⟨hne, -⟩, hbeside, hchars⟩, hline⟩, hmark⟩, hcolon, hcomment⟩, hfirst⟩, hlast⟩ := h
  obtain ⟨ch, cs, rfl⟩ := List.exists_cons_of_ne_nil hne
  simp only [startsWithMark, Bool.or_eq_false_iff] at hmark
  have hcolonFirst : (ch = ':' && isGapOrEnd (cs.headD endMark)) = false := by
    by_cases hch : ch = ':'
    · have hgap := hmark.1.1.2
      simp only [hch, decide_true, Bool.or_true, Bool.true_or, Bool.true_and] at hgap
      rw [hgap, Bool.and_false]
    · rw [decide_eq_false hch, Bool.false_and]
  have hflat := flat_runs (ch :: cs)
  have hall : PlainRuns (runs (ch :: cs)) := by
    constructor <;> rw [hflat]
    · exact hbeside
    · exact fun d hd => Bool.eq_false_iff.mpr (List.any_eq_false.mp hchars d hd)
    · exact fun d hd => Bool.eq_false_iff.mpr (List.any_eq_false.mp hline d hd)
    · rw [somePair, hcolonFirst]
      exact hcolon
    · exact hcomment
    · exact fun d hd => by
        rw [Option.mem_def.mp hd] at hlast
        exact hlast
  obtain ⟨run, more, hruns⟩ := exists_runs_cons ch cs
  have hkind : RunKind.of ch = .other := by
    have hedge : isEdge ch = false := hfirst
    rw [isEdge, Bool.or_eq_false_iff, decide_eq_false_iff_not] at hedge
    rw [RunKind.of, if_neg hedge.1, if_neg (Bool.eq_false_iff.mp hedge.2)]
  refine hall.words (areRuns_runs _) ⟨ch :: run, more, hkind ▸ hruns, fun hhead => ?_⟩
  cases hhead
  cases hmark.1.1.1

end Lexer

end OpeningHand.Yaml
