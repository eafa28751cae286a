import OpeningHand.Proofs.PasscodeList.Reading

/-!
# The main section of a passcode list

A list has its content in lines; blanks at their ends and blank lines do not count. The main section
lies between the first main header and the first line after it that starts the extra or side deck
(`mainLines_eq_some_iff`). What is read of a list depends on these lines alone, and when a list is
read, all of them have been (`read_of_ok`).
-/

namespace OpeningHand.PasscodeList

/-! ## Section ends -/

theorem after?_isSome_iff {lead cs : List Char} :
    (Text.after? lead cs).isSome = true ↔ lead <+: cs := by
  induction lead generalizing cs with
  | nil => exact iff_of_true rfl List.nil_prefix
  | cons l lead ih =>
    cases cs with
    | nil => exact iff_of_false Bool.false_ne_true (by simp)
    | cons c cs =>
      rw [Text.after?, List.cons_prefix_cons]
      split
      next h => exact ih.trans (and_iff_right h).symm
      next h => exact iff_of_false Bool.false_ne_true fun hstart => h hstart.1

/-- A line that starts the extra deck or the side deck. -/
def StartsOther (line : List Char) : Prop :=
  "#extra".toList <+: line ∨ "!side".toList <+: line

theorem endsSection_iff {line : List Char} : endsSection line = true ↔ StartsOther line := by
  rw [endsSection, sectionEnds, List.any_cons, List.any_cons, List.any_nil, Bool.or_false,
    Bool.or_eq_true, after?_isSome_iff, after?_isSome_iff, StartsOther]

/-! ## The section -/

/-- The lines of the main section among the content lines of a list: those after the first header
and before the first line after it that starts another deck. -/
structure IsMain (content lines : List (List Char)) : Prop where
  around : ∃ intro outro, content = intro ++ mainHeader :: (lines ++ outro) ∧
    mainHeader ∉ intro ∧ ∀ line ∈ outro.head?, StartsOther line
  inside : ∀ line ∈ lines, ¬ StartsOther line

theorem afterHeader_eq_some_iff {lines rest : List (List Char)} :
    afterHeader lines = some rest ↔
      ∃ intro, lines = intro ++ mainHeader :: rest ∧ mainHeader ∉ intro := by
  induction lines with
  | nil =>
    refine iff_of_false (nomatch ·) ?_
    rintro ⟨intro, h, -⟩
    exact absurd h.symm (List.append_ne_nil_of_right_ne_nil _ (List.cons_ne_nil _ _))
  | cons line lines ih =>
    rw [afterHeader]
    split
    next hline =>
      constructor
      · intro h
        cases h
        exact ⟨[], congrArg (· :: rest) hline, List.not_mem_nil⟩
      · rintro ⟨intro, h, fresh⟩
        cases intro with
        | nil =>
          cases h
          rfl
        | cons l intro =>
          obtain ⟨rfl, -⟩ := List.cons.inj h
          exact absurd (hline ▸ List.mem_cons_self) fresh
    next hline =>
      rw [ih]
      constructor
      · rintro ⟨intro, rfl, fresh⟩
        exact ⟨line :: intro, rfl, List.not_mem_cons_of_ne_of_not_mem (Ne.symm hline) fresh⟩
      · rintro ⟨intro, h, fresh⟩
        cases intro with
        | nil => exact absurd (List.cons.inj h).1 hline
        | cons l intro =>
          obtain ⟨rfl, hlines⟩ := List.cons.inj h
          exact ⟨intro, hlines, (List.ne_and_not_mem_of_not_mem_cons fresh).2⟩

/-- The lines up to the first that fails a test. -/
theorem takeWhile_eq_iff {α : Type} {p : α → Bool} {xs run : List α} :
    xs.takeWhile p = run ↔
      (∃ rest, xs = run ++ rest ∧ ∀ x ∈ rest.head?, p x = false) ∧ ∀ x ∈ run, p x = true := by
  constructor
  · rintro rfl
    refine ⟨⟨xs.dropWhile p, List.takeWhile_append_dropWhile.symm, fun x hx => ?_⟩, fun x hx => ?_⟩
    · have hnot := List.head?_dropWhile_not p xs
      rwa [Option.mem_def.mp hx] at hnot
    · exact List.mem_takeWhile_imp hx
  · rintro ⟨⟨rest, rfl, hrest⟩, hrun⟩
    rw [List.takeWhile_append_of_pos hrun]
    cases rest with
    | nil => rw [List.takeWhile_nil, List.append_nil]
    | cons x rest =>
      rw [List.takeWhile_cons_of_neg (by simp [hrest x rfl]), List.append_nil]

theorem mainLines_eq_some_iff {text : List Char} {lines : List (List Char)} :
    mainLines text = some lines ↔ IsMain (contentLines text) lines := by
  have hends (line : List Char) : (!endsSection line) = true ↔ ¬ StartsOther line := by
    rw [Bool.not_eq_true', Bool.eq_false_iff, ne_eq, endsSection_iff]
  have hnotEnds (line : List Char) : (!endsSection line) = false ↔ StartsOther line := by
    rw [Bool.not_eq_false', endsSection_iff]
  rw [mainLines, Option.map_eq_some_iff]
  simp only [afterHeader_eq_some_iff, takeWhile_eq_iff, hends, hnotEnds]
  constructor
  · rintro ⟨_, ⟨intro, hcontent, fresh⟩, ⟨outro, rfl, houtro⟩, inside⟩
    exact ⟨⟨intro, outro, hcontent, fresh, houtro⟩, inside⟩
  · rintro ⟨⟨intro, outro, hcontent, fresh, houtro⟩, inside⟩
    exact ⟨_, ⟨intro, hcontent, fresh⟩, ⟨outro, rfl, houtro⟩, inside⟩

/-! ## Reading -/

variable {text : String} {lines : List (List Char)} {counts : List (String × Nat)}

theorem read_of_mainLines (h : mainLines text.toList = some lines) :
    read text = ⟨(passcodes lines).records,
      (passcodes lines).result.map fun codes => sumCounts (codes.map fun code => (code, 1))⟩ := by
  rw [read, h]
  exact Recorded.bind_pure (passcodes lines) fun codes => sumCounts (codes.map fun code => (code, 1))

/-- A list that is read has a main section, of which every line of digit signs is a passcode; they
are counted one by one, and the other lines that are no comments are warned of. -/
theorem read_of_ok (h : (read text).result = .ok counts) :
    ∃ lines, mainLines text.toList = some lines ∧ (∀ line ∈ passcodeLines lines, IsPasscode line) ∧
      (read text).records = warnings lines ∧
      counts = sumCounts ((passcodeLines lines).map fun line => (passcode line, 1)) := by
  cases hmain : mainLines text.toList with
  | none =>
    rw [read, hmain] at h
    cases h
  | some lines =>
    rw [read_of_mainLines hmain] at h ⊢
    rcases passcodes_ends (ne_nil_of_mem_mainLines hmain) with ⟨numbers, hread⟩ |
      ⟨_, _, _, -, -, -, -, hread⟩
    · rw [hread] at h ⊢
      cases h
      refine ⟨lines, rfl, numbers, rfl, ?_⟩
      show sumCounts (((passcodeLines lines).map passcode).map fun code => (code, 1)) = _
      rw [List.map_map]
      rfl
    · rw [hread] at h
      cases h

end OpeningHand.PasscodeList
