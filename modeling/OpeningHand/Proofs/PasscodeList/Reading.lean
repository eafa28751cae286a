import OpeningHand.Proofs.Number.Whole
import OpeningHand.Proofs.PasscodeList.Conversion

/-!
# How the reading of a passcode list ends

A list without a main header is refused. One with a header is read line by line; comments are passed
over, and so is, with a warning, every line that holds anything but digit signs. What is left should
be passcodes, but the class of digit signs is wider than that of numerals: a superscript, a circled
digit or too many digits stop the reading at that line (`read_ends`).
-/

namespace OpeningHand.PasscodeList

/-! ## The main section -/

theorem afterHeader_eq_none_iff {lines : List (List Char)} :
    afterHeader lines = none ↔ mainHeader ∉ lines := by
  induction lines with
  | nil => exact iff_of_true rfl List.not_mem_nil
  | cons line lines ih =>
    rw [afterHeader, List.mem_cons, not_or, eq_comm (a := mainHeader)]
    split
    next h => exact iff_of_false (nomatch ·) fun hne => hne.1 h
    next h => exact ih.trans (and_iff_right h).symm

theorem mem_of_afterHeader {lines rest : List (List Char)} (h : afterHeader lines = some rest) :
    ∀ line ∈ rest, line ∈ lines := by
  induction lines with
  | nil => cases h
  | cons line lines ih =>
    rw [afterHeader] at h
    split at h
    next =>
      cases h
      exact fun _ => List.mem_cons_of_mem _
    next => exact fun l hl => List.mem_cons_of_mem _ (ih h l hl)

theorem mem_contentLines_iff {text line : List Char} :
    line ∈ contentLines text ↔ (∃ l ∈ Text.lines text, Text.trim l = line) ∧ line ≠ [] := by
  rw [contentLines, List.mem_filter, List.mem_map]
  simp

/-- There is a main section if some line, without blanks at its ends, is the header. -/
theorem mainLines_eq_none_iff {text : List Char} :
    mainLines text = none ↔ ∀ line ∈ Text.lines text, Text.trim line ≠ mainHeader := by
  have header : mainHeader ≠ [] := by decide
  rw [mainLines, Option.map_eq_none_iff, afterHeader_eq_none_iff, mem_contentLines_iff,
    and_iff_left header]
  simp only [not_exists, not_and, ne_eq]

theorem ne_nil_of_mem_mainLines {text : List Char} {lines : List (List Char)}
    (h : mainLines text = some lines) : ∀ line ∈ lines, line ≠ [] := by
  obtain ⟨rest, hrest, rfl⟩ := Option.map_eq_some_iff.mp h
  intro line hline
  have hmem := mem_of_afterHeader hrest line (List.takeWhile_sublist _ |>.mem hline)
  exact (mem_contentLines_iff.mp hmem).2

/-! ## Passcodes -/

/-- A line of digit signs that is a passcode: decimal digits alone, no more than a numeral may
have. -/
def IsPasscode (line : List Char) : Prop :=
  (∀ c ∈ line, Text.isDecimal c = true) ∧ line.length ≤ Number.maxDigits

instance (line : List Char) : Decidable (IsPasscode line) :=
  inferInstanceAs (Decidable (_ ∧ _))

/-- The passcode of a line: its number, without leading zeros. -/
def passcode (line : List Char) : String :=
  String.ofList (Text.decimalDigits (Text.decimalValue line))

/-- Why a line of digit signs is no passcode. -/
def passcodeFault (line : List Char) : Number.WholeFault :=
  let digits := line.takeWhile Text.isDecimal
  if Number.maxDigits < digits.length then .tooManyDigits digits.length
  else .notANumeral .ten line

variable {line : List Char} {lines : List (List Char)}

theorem passcodeOf_eq_ok (ne : line ≠ []) (h : IsPasscode line) :
    passcodeOf line = .ok (passcode line) := by
  have signs : ∀ c ∈ line, Text.isDigitSign c = true :=
    fun c hc => Text.isDigitSign_of_isDecimal (h.1 c hc)
  rw [passcodeOf, Number.readWhole_digitSigns signs, List.takeWhile_eq_self_iff.mpr h.1,
    if_neg (Nat.not_lt.mpr h.2), if_pos (by simpa [ne] using h.1)]
  rfl

theorem passcodeOf_eq_error (signs : line.all Text.isDigitSign = true) (h : ¬ IsPasscode line) :
    passcodeOf line = .error (.value (.whole (passcodeFault line))) := by
  rw [passcodeOf, Number.readWhole_digitSigns (List.all_eq_true.mp signs), passcodeFault]
  by_cases hlong : Number.maxDigits < (line.takeWhile Text.isDecimal).length
  · rw [if_pos hlong, if_pos hlong]
  · have hnot : ¬ (!line.isEmpty && line.all Text.isDecimal) = true := fun hline => by
      have decimal := List.all_eq_true.mp (Bool.and_eq_true_iff.mp hline).2
      rw [List.takeWhile_eq_self_iff.mpr decimal] at hlong
      exact h ⟨decimal, Nat.not_lt.mp hlong⟩
    rw [if_neg hlong, if_neg hlong, if_neg hnot]

/-! ## Lines -/

/-- A line that is passed over with a warning: no comment, and not digit signs alone. -/
def isSkipped (line : List Char) : Bool :=
  line.head? ≠ some '#' && !line.all Text.isDigitSign

/-- The warning for a line that is passed over. -/
def warning (line : List Char) : Record :=
  ⟨.passcodes, .warning,
    "Skipping non-numeric line in YDK main deck: " ++ String.ofList (Text.quoted line)⟩

/-- The warnings for the lines that are passed over, in order. -/
def warnings (lines : List (List Char)) : List Record :=
  (lines.filter isSkipped).map warning

theorem warnings_cons (line : List Char) (lines : List (List Char)) :
    warnings (line :: lines) =
      if isSkipped line then warning line :: warnings lines else warnings lines := by
  rw [warnings, List.filter_cons]
  split <;> rfl

/-- A line of digit signs stops the reading if it is no passcode. -/
theorem passcodes_of_error (signs : line.all Text.isDigitSign = true) {e : Failure}
    (h : passcodeOf line = .error e) (after : List (List Char)) :
    passcodes (line :: after) = ⟨[], .error e⟩ := by
  rw [passcodes, if_neg (head?_ne_of_signs signs), if_neg (by simp [signs]), h]
  rfl

/-- A passcode comes before those of the lines after it. -/
theorem passcodes_of_ok (signs : line.all Text.isDigitSign = true) {code : String}
    (h : passcodeOf line = .ok code) (after : List (List Char)) :
    passcodes (line :: after) =
      ⟨(passcodes after).records, (passcodes after).result.map (code :: ·)⟩ := by
  rw [passcodes, if_neg (head?_ne_of_signs signs), if_neg (by simp [signs]), h]
  exact Recorded.bind_pure (passcodes after) (code :: ·)

/-- Lines up to some place are read, if those that should be passcodes are; what comes after them
is read next. The induction is on the lines: each adds a passcode, a warning or nothing. -/
theorem passcodes_append (nonempty : ∀ line ∈ lines, line ≠ [])
    (numbers : ∀ line ∈ passcodeLines lines, IsPasscode line) (after : List (List Char)) :
    passcodes (lines ++ after) = ⟨warnings lines ++ (passcodes after).records,
      (passcodes after).result.map ((passcodeLines lines).map passcode ++ ·)⟩ := by
  induction lines with
  | nil =>
    show passcodes after = ⟨(passcodes after).records, (passcodes after).result.map id⟩
    rw [Except.map_id]
    rfl
  | cons line lines ih =>
    obtain ⟨ne, nonempty⟩ := List.forall_mem_cons.mp nonempty
    rw [List.cons_append]
    cases hsigns : line.all Text.isDigitSign with
    | true =>
      have hlines : passcodeLines (line :: lines) = line :: passcodeLines lines :=
        List.filter_cons_of_pos hsigns
      rw [hlines] at numbers ⊢
      obtain ⟨number, numbers⟩ := List.forall_mem_cons.mp numbers
      rw [passcodes_of_ok hsigns (passcodeOf_eq_ok ne number), ih nonempty numbers, warnings_cons,
        if_neg (by simp [isSkipped, hsigns])]
      cases (passcodes after).result <;> rfl
    | false =>
      have hlines : passcodeLines (line :: lines) = passcodeLines lines :=
        List.filter_cons_of_neg (by simp [hsigns])
      rw [hlines] at numbers ⊢
      rw [passcodes, ih nonempty numbers, warnings_cons]
      by_cases hcomment : line.head? = some '#'
      · rw [if_pos hcomment, if_neg (by simp [isSkipped, hcomment])]
      · rw [if_neg hcomment, if_pos (by simp [hsigns]),
          if_pos (by simp [isSkipped, hcomment, hsigns])]
        rfl

/-- Lines are read to their end, or up to the first that should be a passcode and is none. -/
theorem passcodes_ends (nonempty : ∀ line ∈ lines, line ≠ []) :
    (∀ line ∈ passcodeLines lines, IsPasscode line) ∧
        passcodes lines = ⟨warnings lines, .ok ((passcodeLines lines).map passcode)⟩ ∨
      ∃ before line after, lines = before ++ line :: after ∧
        (∀ l ∈ passcodeLines before, IsPasscode l) ∧
        line.all Text.isDigitSign = true ∧ ¬ IsPasscode line ∧
        passcodes lines = ⟨warnings before, .error (.value (.whole (passcodeFault line)))⟩ := by
  have passcode_of {l : List Char} (h : (l.all Text.isDigitSign && !decide (IsPasscode l)) = false)
      (signs : l.all Text.isDigitSign = true) : IsPasscode l := by
    simpa [signs] using h
  cases hfind : lines.find? fun line => line.all Text.isDigitSign && !decide (IsPasscode line) with
  | none =>
    have numbers : ∀ line ∈ passcodeLines lines, IsPasscode line := fun line hline => by
      obtain ⟨hmem, signs⟩ := List.mem_filter.mp hline
      exact passcode_of (Bool.eq_false_iff.mpr (List.find?_eq_none.mp hfind line hmem)) signs
    refine .inl ⟨numbers, ?_⟩
    have hall := passcodes_append nonempty numbers []
    rw [List.append_nil] at hall
    rw [hall, passcodes]
    show Recorded.mk (warnings lines ++ []) (.ok ((passcodeLines lines).map passcode ++ [])) = _
    rw [List.append_nil, List.append_nil]
  | some line =>
    obtain ⟨hline, before, after, rfl, hbefore⟩ := List.find?_eq_some_iff_append.mp hfind
    simp only [Bool.and_eq_true, Bool.not_eq_true', decide_eq_false_iff_not] at hline
    obtain ⟨signs, hline⟩ := hline
    have numbers : ∀ l ∈ passcodeLines before, IsPasscode l := fun l hl => by
      obtain ⟨hmem, signs⟩ := List.mem_filter.mp hl
      exact passcode_of (Bool.not_eq_eq_eq_not.mp (hbefore l hmem)) signs
    refine .inr ⟨before, line, after, rfl, numbers, signs, hline, ?_⟩
    rw [passcodes_append (List.forall_mem_append.mp nonempty).1 numbers,
      passcodes_of_error signs (passcodeOf_eq_error signs hline)]
    show Recorded.mk (warnings before ++ []) _ = _
    rw [List.append_nil]
    rfl

/-! ## Lists -/

/-- A list without a main header is refused. Any other is read up to the first line of its main
section that has digit signs alone and is no passcode; such a line stops the reading. Without one
the passcodes are counted. Every line before the end that is neither a comment nor digit signs alone
is passed over with a warning. -/
theorem read_ends (text : String) :
    ((∀ line ∈ Text.lines text.toList, Text.trim line ≠ mainHeader) ∧
      read text = ⟨[], .error .noMainSection⟩) ∨
    (∃ line ∈ Text.lines text.toList, Text.trim line = mainHeader) ∧
      ∃ lines, mainLines text.toList = some lines ∧
        ((∀ line ∈ passcodeLines lines, IsPasscode line) ∧
          read text = ⟨warnings lines,
            .ok (sumCounts ((passcodeLines lines).map fun line => (passcode line, 1)))⟩ ∨
        ∃ before line after, lines = before ++ line :: after ∧
          (∀ l ∈ passcodeLines before, IsPasscode l) ∧
          line.all Text.isDigitSign = true ∧ ¬ IsPasscode line ∧
          read text = ⟨warnings before, .error (.value (.whole (passcodeFault line)))⟩) := by
  cases hmain : mainLines text.toList with
  | none =>
    refine .inl ⟨mainLines_eq_none_iff.mp hmain, ?_⟩
    rw [read, hmain]
    rfl
  | some lines =>
    have header : ∃ line ∈ Text.lines text.toList, Text.trim line = mainHeader := by
      by_contra hnone
      have := mainLines_eq_none_iff.mpr fun line hline h => hnone ⟨line, hline, h⟩
      rw [hmain] at this
      cases this
    refine .inr ⟨header, lines, rfl, ?_⟩
    have hread : read text =
        (do return sumCounts ((← passcodes lines).map fun code => (code, 1))) := by
      rw [read, hmain]
    rw [hread, Recorded.bind_pure (passcodes lines) fun codes =>
      sumCounts (codes.map fun code => (code, 1))]
    rcases passcodes_ends (ne_nil_of_mem_mainLines hmain) with ⟨numbers, h⟩ |
      ⟨before, line, after, hlines, numbers, signs, hline, h⟩
    · refine .inl ⟨numbers, ?_⟩
      rw [h, Except.map, List.map_map]
      rfl
    · refine .inr ⟨before, line, after, hlines, numbers, signs, hline, ?_⟩
      rw [h]
      rfl

/-- A superscript is a digit sign, so the line is not passed over; and it is no number, so a list
with a main section is not read. -/
theorem superscript_not_read :
    (∃ line ∈ Text.lines "#main\n²\n".toList, Text.trim line = mainHeader) ∧
      ∀ counts, (read "#main\n²\n").result ≠ .ok counts := by
  have hread : (read "#main\n²\n").result =
      .error (.value (.whole (.notANumeral .ten ['²']))) := rfl
  rw [hread]
  exact ⟨⟨mainHeader, by decide, by decide⟩, fun _ => nofun⟩

end OpeningHand.PasscodeList
