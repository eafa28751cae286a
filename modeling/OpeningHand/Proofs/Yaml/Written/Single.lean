import OpeningHand.Proofs.Yaml.Written.Runs

/-!
# Single-quoted scalars read back

Between apostrophes an apostrophe is written twice, spaces may be folded, and breaks are written as
lines. All of it is undone run by run, since spaces and breaks always stand before something solid.
The one character that is lost is U+0085: it is a break that may stand between apostrophes, but a
break there is read as a newline.
-/

namespace OpeningHand.Yaml

open Writer Lexer

variable {l : Layout} {cs run r : List Char} {rs more : List (RunKind × List Char)} {ch : Char}

namespace Writer

/-- Runs with apostrophes written twice. -/
def quotedRuns (rs : List (RunKind × List Char)) : List (RunKind × List Char) :=
  rs.map fun r => (r.1, doubled r.2)

theorem doubled_cons (ch : Char) (cs : List Char) :
    doubled (ch :: cs) = (if ch = '\'' then [ch, ch] else [ch]) ++ doubled cs := rfl

theorem doubled_eq_self (h : ∀ ch ∈ cs, ch ≠ '\'') : doubled cs = cs := by
  induction cs with
  | nil => rfl
  | cons ch cs ih =>
    obtain ⟨hch, hcs⟩ := List.forall_mem_cons.mp h
    rw [doubled_cons, if_neg hch, ih hcs]
    rfl

/-- Apostrophes are written twice in their runs. -/
theorem runs_doubled (cs : List Char) : runs (doubled cs) = quotedRuns (runs cs) := by
  induction cs with
  | nil => rfl
  | cons ch cs ih =>
    by_cases hch : ch = '\''
    · subst hch
      rw [doubled_cons, if_pos rfl, List.cons_append, List.singleton_append]
      rw [runs, runs, runs, ih]
      cases runs cs with
      | nil => rfl
      | cons first more =>
        obtain ⟨kind, run⟩ := first
        by_cases hkind : kind = .other
        · subst hkind
          rfl
        · simp only [quotedRuns, List.map_cons, show RunKind.of '\'' = .other from rfl, hkind,
            if_true, if_false]
          rfl
    · rw [doubled_cons, if_neg hch, List.singleton_append, runs, runs, ih]
      cases runs cs with
      | nil =>
        simp only [quotedRuns, List.map_nil, List.map_cons, doubled_cons, if_neg hch]
        rfl
      | cons first more =>
        obtain ⟨kind, run⟩ := first
        by_cases hkind : kind = .of ch
        · simp only [quotedRuns, List.map_cons, if_pos hkind, doubled_cons, if_neg hch,
            List.singleton_append]
        · simp only [quotedRuns, List.map_cons, if_neg hkind, doubled_cons, if_neg hch]
          rfl

end Writer

namespace Lexer

/-- An apostrophe that is written twice. -/
theorem Quotes.apostrophe : Quotes false ['\'', '\''] r ['\''] := by
  intro chars c fuel hrest hfuel
  obtain ⟨fuel, rfl⟩ := Nat.exists_eq_succ_of_ne_zero (Nat.ne_of_gt (Nat.lt_of_lt_of_le
    (Nat.succ_pos _) hfuel))
  refine ⟨fuel, ?_, ?_⟩
  · rw [List.length_append, List.length_cons, List.length_singleton] at hfuel
    omega
  · rw [quotedFrom_stop hrest rfl]
    rfl

theorem Quotes.doubled (h : ∀ ch ∈ run, isSolid ch = true) :
    Quotes false (Writer.doubled run) r run := by
  induction run with
  | nil => exact .nil
  | cons ch run ih =>
    obtain ⟨hch, hrun⟩ := List.forall_mem_cons.mp h
    by_cases hquote : ch = '\''
    · subst hquote
      exact Quotes.apostrophe.append (ih hrun)
    · rw [doubled_cons, if_neg hquote]
      have hchar : isQuotedChar false ch = true := by
        rw [isSolid] at hch
        simp [isQuotedChar, hch, hquote]
      exact (Quotes.char hchar).cons (ih hrun)

/-- Spaces before a solid character. -/
theorem Quotes.spaces (hrun : ∀ ch ∈ run, ch = ' ') (h : Firm r) :
    Quotes false run r run := by
  induction run with
  | nil => exact .nil
  | cons ch run ih =>
    obtain ⟨hch, hmore⟩ := List.forall_mem_cons.mp hrun
    rw [hch]
    exact (Quotes.space (h.after_spaces hmore)).cons (ih hmore)

/-- Breaks written as lines, where a newline takes one more. -/
theorem Quotes.writtenBreaks {n : Nat} (hn : 0 < n) (nonempty : run ≠ [])
    (hrun : ∀ ch ∈ run, isKeptBreak ch = true) (hsolid : isSolid ch = true) :
    Quotes false (Writer.writtenBreaks n run) (ch :: r) run := by
  obtain ⟨b, brs, rfl⟩ := List.exists_cons_of_ne_nil nonempty
  obtain ⟨hb, hbrs⟩ := List.forall_mem_cons.mp hrun
  rw [Writer.writtenBreaks, List.head?_cons]
  by_cases hnewline : b = '\n'
  · subst hnewline
    have h : Quotes false ('\n' :: (('\n' :: brs) ++ List.replicate n ' ')) (ch :: r)
        (foldBreaks ['\n'] ('\n' :: brs)) := .breaks hn rfl hrun hsolid
    rw [if_pos rfl]
    exact h
  · have h : Quotes false (b :: (brs ++ List.replicate n ' ')) (ch :: r) (foldBreaks [b] brs) :=
      .breaks hn hb hbrs hsolid
    have hfold : foldBreaks [b] brs = b :: brs := by
      rw [foldBreaks, if_pos fun heq => hnewline (List.singleton_inj.mp heq)]
      rfl
    rw [if_neg fun heq => hnewline (Option.some.inj heq)]
    rwa [hfold] at h

/-! ## Runs -/

theorem isKeptBreak_of_written (h : isWrittenBreak ch = true) (hlost : ch ≠ '\x85') :
    isKeptBreak ch = true := by
  simp only [isWrittenBreak, Bool.or_eq_true, decide_eq_true_eq, isKeptBreak] at h ⊢
  rcases h with ((h | h) | h) | h
  · exact .inl (.inl h)
  · exact absurd h hlost
  · exact .inl (.inr h)
  · exact .inr h

/-- After spaces or breaks the scalar goes on with a solid character or ends. -/
theorem exists_solid_writeRuns (h : AreRuns rs) (hother : ∀ next ∈ rs.head?, next.1 = .other)
    (hchars : ∀ ch ∈ flat rs, needsEscape ch = false) (column : Nat) (isFirst : Bool) :
    ∃ first w, writeRuns l column isFirst (quotedRuns rs) ++ '\'' :: r = first :: w ∧
      isSolid first = true := by
  cases h with
  | nil => exact ⟨_, _, rfl, rfl⟩
  | @cons kind run more nonempty kinds =>
    obtain rfl : kind = .other := hother _ rfl
    obtain ⟨ch, run, rfl⟩ := List.exists_cons_of_ne_nil nonempty
    have hsolid := isSolid_of_other (kinds ch List.mem_cons_self) (hchars ch (by simp [flat_cons]))
    rw [quotedRuns, List.map_cons, writeRuns, doubled_cons]
    split <;> exact ⟨_, _, rfl, hsolid⟩

theorem quotes_writeRuns (hfolds : l.folds = true → 0 < l.indent) (h : AreRuns rs)
    (hbeside : hasBreakBesideSpace (flat rs) = false)
    (hbreaks : ∀ ch ∈ flat rs, isWrittenBreak ch = true → 0 < l.indent)
    (hchars : ∀ ch ∈ flat rs, needsEscape ch = false) (hlost : ∀ ch ∈ flat rs, ch ≠ '\x85')
    (column : Nat) (isFirst : Bool) :
    Quotes false (writeRuns l column isFirst (quotedRuns rs)) ('\'' :: r) (flat rs) := by
  induction h generalizing column isFirst with
  | nil => exact .nil
  | @cons kind run more nonempty kinds apart rest ih =>
    have hnext := (AreRuns.cons nonempty kinds apart rest).next_other
    rw [flat_cons] at hbreaks hchars hlost hbeside ⊢
    obtain ⟨hbreaksRun, hbreaks⟩ := List.forall_mem_append.mp hbreaks
    obtain ⟨hcharsRun, hchars⟩ := List.forall_mem_append.mp hchars
    obtain ⟨hlostRun, hlost⟩ := List.forall_mem_append.mp hlost
    have ih := ih (somePair_append_right hbeside) hbreaks hchars hlost
    rw [quotedRuns, List.map_cons]
    cases kind with
    | spaces =>
      have hspaces : ∀ ch ∈ run, ch = ' ' := fun ch hch => kind_spaces_iff.mp (kinds ch hch)
      have hsame : Writer.doubled run = run := doubled_eq_self fun ch hch => by
        rw [hspaces ch hch]
        decide
      have hsolid := exists_solid_writeRuns (l := l) (r := r) rest (hnext (by decide) hbeside) hchars
      rw [hsame, writeRuns]
      split
      next hfold =>
        simp only [Bool.and_eq_true, decide_eq_true_eq] at hfold
        obtain ⟨ch, rfl⟩ := List.length_eq_one_iff.mp hfold.1.1.1.2
        obtain rfl := hspaces ch List.mem_cons_self
        obtain ⟨first, w, heq, hfirst⟩ := hsolid l.indent false
        refine Quotes.append ?_ (ih _ _)
        rw [← quotedRuns, heq]
        exact .fold (hfolds hfold.1.1.1.1) hfirst
      next =>
        obtain ⟨first, w, heq, hfirst⟩ := hsolid (column + run.length) false
        refine Quotes.append ?_ (ih _ _)
        rw [← quotedRuns, heq]
        exact .spaces hspaces (firm_of_solid hfirst)
    | breaks =>
      have hbreak : ∀ ch ∈ run, isWrittenBreak ch = true :=
        fun ch hch => kind_breaks_iff.mp (kinds ch hch)
      have hsame : Writer.doubled run = run := doubled_eq_self fun ch hch => by
        rintro rfl
        cases hbreak _ hch
      obtain ⟨first, w, heq, hfirst⟩ : ∃ first w, writeRuns l l.indent false (quotedRuns more) ++
          '\'' :: r = first :: w ∧ isSolid first = true :=
        exists_solid_writeRuns rest (hnext (by decide) hbeside) hchars _ _
      have hfirstBreak := List.head_mem nonempty
      rw [hsame, writeRuns]
      refine Quotes.append ?_ (ih _ _)
      rw [← quotedRuns, heq]
      exact .writtenBreaks (hbreaksRun _ hfirstBreak (hbreak _ hfirstBreak)) nonempty
        (fun ch hch => isKeptBreak_of_written (hbreak ch hch) (hlostRun ch hch)) hfirst
    | other =>
      rw [writeRuns]
      exact (Quotes.doubled fun ch hch => isSolid_of_other (kinds ch hch) (hcharsRun ch hch)).append
        (ih _ _)

/-- A scalar between apostrophes is read as the text it was written for. -/
theorem quotedScalar_singleText {c : Cursor} {column : Nat} (hstyle : allowsSingle cs = true)
    (hlost : '\x85' ∉ cs) (hfolds : l.folds = true → 0 < l.indent)
    (hbreaks : isMultiline cs = true → 0 < l.indent)
    (hrest : c.rest = singleText l column cs ++ r) (hr : r.headD endMark ≠ '\'') :
    quotedScalar false c = .ok (cs.map .char, c.skip (singleText l column cs).length) := by
  rw [allowsSingle, Bool.not_eq_true', Bool.or_eq_false_iff] at hstyle
  obtain ⟨hbeside, hchars⟩ := hstyle
  have hflat := flat_runs cs
  have h : Quotes false (writeRuns l (column + 1) true (runs (doubled cs))) ('\'' :: r) cs := by
    have h := quotes_writeRuns (r := r) hfolds (areRuns_runs cs) (hflat.symm ▸ hbeside)
      (fun ch hch hbreak => hbreaks (List.any_eq_true.mpr ⟨ch, hflat ▸ hch, hbreak⟩))
      (fun ch hch => Bool.eq_false_iff.mpr (List.any_eq_false.mp hchars ch (hflat ▸ hch)))
      (fun ch hch heq => hlost (heq ▸ hflat ▸ hch)) (column + 1) true
    rwa [hflat, ← runs_doubled] at h
  have hrest' : c.rest = quoteMark false :: (writeRuns l (column + 1) true (runs (doubled cs)) ++
      quoteMark false :: r) := by
    rw [hrest, singleText, List.cons_append, List.append_assoc]
    rfl
  have hlength : (singleText l column cs).length =
      (writeRuns l (column + 1) true (runs (doubled cs))).length + 2 := by
    rw [singleText, List.length_cons, List.length_append, List.length_singleton]
  rw [quotedScalar_eq hrest' h fun _ => hr, hlength]

end Lexer

end OpeningHand.Yaml
