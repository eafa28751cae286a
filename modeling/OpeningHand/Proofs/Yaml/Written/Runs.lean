import OpeningHand.Proofs.Yaml.Written.Quoted

/-!
# Styles and runs of a text

Plain and single-quoted scalars are written run by run. The runs of a text make up the text, each
holds characters of one kind, and no two neighbours are of the same kind (`AreRuns`). What a style
asks of a text is asked of characters and their followers (`somePair`), so it carries over to the
text that is left after some runs.
-/

namespace OpeningHand.Yaml.Writer

variable {as bs cs : List Char} {ch : Char} {p : Char → Char → Bool}

/-! ## Styles -/

theorem styleOf_eq_plain (h : styleOf cs = .plain) : allowsPlain cs = true := by
  rw [styleOf] at h
  split at h
  next hplain => exact hplain
  next => split at h <;> cases h

theorem styleOf_eq_single (h : styleOf cs = .single) : allowsSingle cs = true := by
  rw [styleOf] at h
  split at h
  · cases h
  · split at h
    next hsingle => exact hsingle
    next => cases h

theorem allowsSingle_of_allowsPlain (h : allowsPlain cs = true) : allowsSingle cs = true := by
  simp only [allowsPlain, Bool.and_eq_true] at h
  exact h.1.1.1.1.1.2

/-! ## A character and the one after it -/

theorem somePair_append_right (h : somePair p (as ++ bs) = false) : somePair p bs = false := by
  induction as with
  | nil => exact h
  | cons a as ih =>
    rw [List.cons_append, somePair, Bool.or_eq_false_iff] at h
    exact ih h.2

/-- The pair of a character anywhere in the text. -/
theorem somePair_at (h : somePair p (as ++ ch :: bs) = false) : p ch (bs.headD endMark) = false := by
  have hright := somePair_append_right h
  rw [somePair, Bool.or_eq_false_iff] at hright
  exact hright.1

/-- The pair of the last character and what comes after it. -/
theorem somePair_last (h : somePair p (as ++ bs) = false) (hlast : as.getLast? = some ch) :
    p ch (bs.headD endMark) = false := by
  obtain ⟨as, rfl⟩ := List.getLast?_eq_some_iff.mp hlast
  rw [List.append_assoc] at h
  exact somePair_at h

/-! ## Runs -/

/-- Runs of characters of one kind each, with no neighbours of the same kind. -/
inductive AreRuns : List (RunKind × List Char) → Prop
  | nil : AreRuns []
  | cons {kind : RunKind} {run : List Char} {more : List (RunKind × List Char)}
      (nonempty : run ≠ []) (kinds : ∀ ch ∈ run, RunKind.of ch = kind)
      (apart : ∀ next ∈ more.head?, next.1 ≠ kind) (rest : AreRuns more) :
      AreRuns ((kind, run) :: more)

/-- The text of runs. -/
def flat (rs : List (RunKind × List Char)) : List Char := rs.flatMap Prod.snd

theorem flat_cons (kind : RunKind) (run : List Char) (more : List (RunKind × List Char)) :
    flat ((kind, run) :: more) = run ++ flat more := rfl

theorem flat_runs (cs : List Char) : flat (runs cs) = cs := by
  induction cs with
  | nil => rfl
  | cons c cs ih =>
    rw [runs]
    split
    next kind run more heq =>
      rw [heq, flat_cons] at ih
      split
      · rw [flat_cons, List.cons_append, ih]
      · rw [flat_cons, flat_cons, ih]
        rfl
    next heq =>
      rw [heq] at ih
      rw [← ih]
      rfl

theorem areRuns_runs (cs : List Char) : AreRuns (runs cs) := by
  have single (c : Char) : ∀ ch ∈ [c], RunKind.of ch = RunKind.of c :=
    fun ch hch => by rw [List.mem_singleton.mp hch]
  induction cs with
  | nil => exact .nil
  | cons c cs ih =>
    rw [runs]
    split
    next kind run more heq =>
      rw [heq] at ih
      cases ih with
      | cons nonempty kinds apart rest =>
        split
        next hkind =>
          exact .cons (List.cons_ne_nil _ _) (List.forall_mem_cons.mpr ⟨hkind.symm, kinds⟩) apart rest
        next hkind =>
          refine .cons (List.cons_ne_nil _ _) (single c) (fun next hnext => ?_)
            (.cons nonempty kinds apart rest)
          cases hnext
          exact hkind
    next => exact .cons (List.cons_ne_nil _ _) (single c) nofun .nil

theorem exists_runs_cons (ch : Char) (cs : List Char) :
    ∃ run more, runs (ch :: cs) = (.of ch, ch :: run) :: more := by
  rw [runs]
  split
  · split
    next hkind => exact ⟨_, _, by rw [hkind]⟩
    next => exact ⟨_, _, rfl⟩
  · exact ⟨_, _, rfl⟩

/-- Runs of one kind are nothing but their text. -/
theorem writeRuns_unfolded {l : Layout} (hl : l.folds = false) {rs : List (RunKind × List Char)}
    (hrs : ∀ r ∈ rs, r.1 ≠ .breaks) (column : Nat) (isFirst : Bool) :
    writeRuns l column isFirst rs = flat rs := by
  induction rs generalizing column isFirst with
  | nil => rfl
  | cons r more ih =>
    obtain ⟨kind, run⟩ := r
    obtain ⟨hkind, hmore⟩ := List.forall_mem_cons.mp hrs
    cases kind with
    | breaks => exact absurd rfl hkind
    | spaces =>
      rw [writeRuns]
      simp only [hl, Bool.false_and, Bool.false_eq_true, if_false]
      rw [ih hmore, flat_cons]
    | other => rw [writeRuns, ih hmore, flat_cons]

/-- Besides the text itself, new lines and spaces are written. -/
theorem mem_writeRuns {l : Layout} {rs : List (RunKind × List Char)} {column : Nat} {isFirst : Bool}
    (h : ch ∈ writeRuns l column isFirst rs) : ch ∈ flat rs ∨ ch = '\n' ∨ ch = ' ' := by
  have hline {n : Nat} (h : ch ∈ newLine n) : ch = '\n' ∨ ch = ' ' := by
    rcases List.mem_cons.mp h with h | h
    · exact .inl h
    · exact .inr (List.eq_of_mem_replicate h)
  induction rs generalizing column isFirst with
  | nil => cases h
  | cons r more ih =>
    obtain ⟨kind, run⟩ := r
    rw [flat_cons, List.mem_append]
    have hmore {column : Nat} {isFirst : Bool} (h : ch ∈ writeRuns l column isFirst more) :
        (ch ∈ run ∨ ch ∈ flat more) ∨ ch = '\n' ∨ ch = ' ' :=
      (ih h).imp_left .inr
    cases kind with
    | spaces =>
      rw [writeRuns] at h
      split at h
      · rcases List.mem_append.mp h with h | h
        · exact .inr (hline h)
        · exact hmore h
      · rcases List.mem_append.mp h with h | h
        · exact .inl (.inl h)
        · exact hmore h
    | breaks =>
      rw [writeRuns, writtenBreaks] at h
      rcases List.mem_append.mp h with h | h
      · rcases List.mem_append.mp h with h | h
        · rcases List.mem_append.mp h with h | h
          · split at h
            · exact .inr (.inl (List.mem_singleton.mp h))
            · cases h
          · exact .inl (.inl h)
        · exact .inr (.inr (List.eq_of_mem_replicate h))
      · exact hmore h
    | other =>
      rw [writeRuns] at h
      rcases List.mem_append.mp h with h | h
      · exact .inl (.inl h)
      · exact hmore h

/-! ## Kinds of characters -/

theorem kind_spaces_iff : RunKind.of ch = .spaces ↔ ch = ' ' := by
  rw [RunKind.of]
  by_cases hspace : ch = ' '
  · simp [hspace]
  · rw [if_neg hspace]
    split <;> simp [hspace]

theorem kind_breaks_iff : RunKind.of ch = .breaks ↔ isWrittenBreak ch = true := by
  rw [RunKind.of]
  by_cases hspace : ch = ' '
  · subst hspace
    decide
  · rw [if_neg hspace]
    split <;> simp_all

/-- A text of one line has no runs of breaks. -/
theorem AreRuns.ne_breaks {rs : List (RunKind × List Char)} (h : AreRuns rs)
    (hline : ∀ ch ∈ flat rs, isWrittenBreak ch = false) : ∀ r ∈ rs, r.1 ≠ .breaks := by
  induction h with
  | nil => nofun
  | @cons kind run more nonempty kinds apart rest ih =>
    rw [flat_cons] at hline
    obtain ⟨hrun, hmore⟩ := List.forall_mem_append.mp hline
    refine List.forall_mem_cons.mpr ⟨fun hkind => ?_, ih hmore⟩
    have hmem := List.head_mem nonempty
    have hbreak := kind_breaks_iff.mp ((kinds _ hmem).trans hkind)
    rw [hrun _ hmem] at hbreak
    cases hbreak

/-- A text of one line is written as it is if it may not be folded. -/
theorem writeRuns_line {l : Layout} (hl : l.folds = false)
    (hcs : ∀ ch ∈ cs, isWrittenBreak ch = false) (column : Nat) (isFirst : Bool) :
    writeRuns l column isFirst (runs cs) = cs := by
  have hflat := flat_runs cs
  rw [writeRuns_unfolded hl ((areRuns_runs cs).ne_breaks (hflat.symm ▸ hcs)), hflat]

/-- A character that is neither space nor break and needs no escape is no blank at all. -/
theorem isSolid_of_other (hkind : RunKind.of ch = .other) (h : needsEscape ch = false) :
    Lexer.isSolid ch = true := by
  refine Lexer.isSolid_iff.mpr ⟨?_, ?_, ?_, Bool.eq_false_iff.mpr fun hbreak => ?_⟩
  · rintro rfl
    cases h
  · rintro rfl
    cases hkind
  · rintro rfl
    cases h
  · simp only [isBreak, Bool.or_eq_true, decide_eq_true_eq] at hbreak
    rcases hbreak with (((rfl | rfl) | rfl) | rfl) | rfl
    · cases h
    all_goals cases hkind

theorem isInline_of_other (hkind : RunKind.of ch = .other) (h : needsEscape ch = false) :
    isInline ch = true := by
  have hbreak := (Lexer.isSolid_iff.mp (isSolid_of_other hkind h)).2.2.2
  have hmark : ch ≠ '\ufeff' := by
    rintro rfl
    cases h
  rw [isInline, hbreak, decide_eq_true hmark]
  rfl

/-- Next to spaces or breaks stands a run of the third kind, if any. -/
theorem AreRuns.next_other {kind : RunKind} {run : List Char} {more : List (RunKind × List Char)}
    (h : AreRuns ((kind, run) :: more)) (hkind : kind ≠ .other)
    (hbeside : hasBreakBesideSpace (flat ((kind, run) :: more)) = false) :
    ∀ next ∈ more.head?, next.1 = .other := by
  cases h with
  | cons nonempty kinds apart rest =>
    cases rest with
    | nil => nofun
    | @cons kind' run' more nonempty' kinds' apart' rest =>
      intro next hnext
      cases hnext
      obtain ⟨ch', run', rfl⟩ := List.exists_cons_of_ne_nil nonempty'
      have hne : kind' ≠ kind := apart _ rfl
      have hlast := List.getLast?_eq_some_getLast nonempty
      have hch := kinds _ (List.getLast_mem nonempty)
      have hch' := kinds' ch' List.mem_cons_self
      rw [hasBreakBesideSpace, flat_cons] at hbeside
      have hpair := somePair_last hbeside hlast
      rw [flat_cons, List.cons_append, List.headD_cons, Bool.or_eq_false_iff] at hpair
      cases kind' with
      | other => rfl
      | spaces =>
        cases kind with
        | other => exact absurd rfl hkind
        | spaces => exact absurd rfl hne
        | breaks => simp [kind_breaks_iff.mp hch, kind_spaces_iff.mp hch'] at hpair
      | breaks =>
        cases kind with
        | other => exact absurd rfl hkind
        | spaces => simp [kind_spaces_iff.mp hch, kind_breaks_iff.mp hch'] at hpair
        | breaks => exact absurd rfl hne

end OpeningHand.Yaml.Writer
