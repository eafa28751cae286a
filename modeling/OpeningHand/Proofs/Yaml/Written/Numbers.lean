import Mathlib.Data.List.TakeWhile
import OpeningHand.Proofs.Number.Whole
import OpeningHand.Yaml.Scalar

/-!
# Numbers and truth values as scalars

A number is written with its digits alone. Digits have no form but that of a whole number
(`ofPlain_decimalDigits`), and are read as the number that they were written for if it is within the
limit (`scalarValue_decimalDigits`). The two truth values are written as words of their own.
-/

namespace OpeningHand

variable {cs : List Char} {n : Nat}

/-! ## Forms of digits -/

namespace Yaml

/-- Digits are not cut at colons. -/
theorem splitOn_colon_digits (h : ∀ c ∈ cs, c.isDigit = true) : cs.splitOn ':' = [cs] :=
  List.splitOn_eq_singleton fun hmem => Text.ne_of_isDigit (h ':' hmem) rfl rfl

/-- Digits are no word that holds another character. -/
theorem contains_digits {words : List String} (h : ∀ c ∈ cs, c.isDigit = true)
    (hwords : ∀ w ∈ words, w.toList.all Char.isDigit = false) :
    words.contains (String.ofList cs) = false := by
  rw [List.contains_eq_mem, decide_eq_false_iff_not]
  intro hmem
  have hall := hwords _ hmem
  rw [String.toList_ofList, List.all_eq_true.mpr h] at hall
  cases hall

/-- A class that takes in all digits takes in such a text as a whole. -/
theorem span_digits {p : Char → Bool} (h : ∀ c ∈ cs, c.isDigit = true)
    (hp : ∀ c, c.isDigit = true → p c = true) : cs.takeWhile p = cs ∧ cs.dropWhile p = [] :=
  ⟨List.takeWhile_eq_self_iff.mpr fun c hc => hp c (h c hc),
    List.dropWhile_eq_nil_iff.mpr fun c hc => hp c (h c hc)⟩

theorem isDigitOrBar_digit {c : Char} (hc : c.isDigit = true) : Tag.isDigitOrBar c = true := by
  rw [Tag.isDigitOrBar, hc, Bool.true_or]

theorem dropSign_digits (h : ∀ c ∈ cs, c.isDigit = true) : Tag.dropSign cs = cs := by
  unfold Tag.dropSign
  split
  next => cases h _ List.mem_cons_self
  next => cases h _ List.mem_cons_self
  next => rfl

theorem dropNewline_digits (h : ∀ c ∈ cs, c.isDigit = true) : Tag.dropNewline cs = cs := by
  have hlast : cs.getLast? ≠ some '\n' := fun hlast => by
    cases h _ (List.mem_of_getLast? hlast)
  rw [Tag.dropNewline, if_neg hlast]

/-- Digits without a point are no floating-point number. -/
theorem isRealForm_digits (h : ∀ c ∈ cs, c.isDigit = true) : Tag.isRealForm cs = false := by
  have hpoint (c : Char) (hc : c.isDigit = true) : decide (c ≠ '.') = true :=
    decide_eq_true (Text.ne_of_isDigit hc rfl)
  obtain ⟨hwhole, hrest⟩ := span_digits h fun c => isDigitOrBar_digit
  obtain ⟨hbefore, hafter⟩ := span_digits h hpoint
  have hinf : [".inf", ".Inf", ".INF"].contains (String.ofList cs) = false :=
    contains_digits h (by decide)
  have hnan : [".nan", ".NaN", ".NAN"].contains (String.ofList cs) = false :=
    contains_digits h (by decide)
  unfold Tag.isRealForm
  simp only [dropSign_digits h, hwhole, hrest, hbefore, hafter, hinf, hnan, splitOn_colon_digits h,
    Bool.and_false, Bool.or_false]

theorem isWholeForm_digits (h : ∀ c ∈ cs, c.isDigit = true) (hne : cs ≠ [])
    (hhead : cs.head? ≠ some '0') : Tag.isWholeForm cs = true := by
  have hnumeral : Tag.isBarredNumeral cs = true := by
    obtain ⟨c, cs, rfl⟩ := List.exists_cons_of_ne_nil hne
    obtain ⟨hc, hcs⟩ := List.forall_mem_cons.mp h
    rw [Tag.isBarredNumeral, hc, Bool.true_and]
    exact List.all_eq_true.mpr fun d hd => isDigitOrBar_digit (hcs d hd)
  rw [Tag.isWholeForm, dropSign_digits h]
  split
  next => exact absurd rfl hhead
  next => exact absurd rfl hhead
  next => exact absurd rfl hhead
  next => exact absurd rfl hhead
  next =>
    rw [splitOn_colon_digits h]
    exact hnumeral

/-- The form of digits is found past that of truth values and floating-point numbers. -/
theorem ofPlain_digits (h : ∀ c ∈ cs, c.isDigit = true) :
    Tag.ofPlain cs = if Tag.isWholeForm cs then .whole
      else if cs = ['<', '<'] then .merge
      else if Tag.isNullForm cs then .null
      else if Tag.isTimeForm cs then .time
      else if cs = ['='] then .value
      else if cs = ['!'] || cs = ['&'] || cs = ['*'] then .other
      else .text := by
  have hnewline : cs ≠ ['\n'] := by
    rintro rfl
    cases h '\n' List.mem_cons_self
  have hflag : Tag.isFlagForm cs = false := contains_digits h (by decide)
  rw [Tag.ofPlain, if_neg hnewline, dropNewline_digits h, Tag.ofForm, hflag, isRealForm_digits h]
  rfl

/-- The digits of a number have the form of a whole number. -/
theorem ofPlain_decimalDigits (n : Nat) : Tag.ofPlain (Text.decimalDigits n) = .whole := by
  by_cases hzero : n = 0
  · subst hzero
    decide
  · have hdigits : ∀ c ∈ Text.decimalDigits n, c.isDigit = true :=
      fun c => Text.isDigit_of_mem_decimalDigits
    have hwhole : Tag.isWholeForm (Text.decimalDigits n) = true :=
      isWholeForm_digits hdigits (Text.decimalDigits_ne_nil n) (Text.head_decimalDigits hzero)
    rw [ofPlain_digits hdigits, hwhole]
    rfl

theorem ofPlain_flag (b : Bool) : Tag.ofPlain (if b then "true" else "false").toList = .flag := by
  cases b <;> decide

/-! ## Values -/

/-- Digits that do not start with a zero are read in base ten. -/
theorem unsignedWhole_digits (h : ∀ c ∈ cs, c.isDigit = true) (hne : cs ≠ [])
    (hhead : cs.head? ≠ some '0') (hlength : cs.length ≤ Number.maxDigits) :
    unsignedWhole cs = .ok (Text.decimalValue cs : Int) := by
  have hcolon : cs.contains ':' = false := by
    rw [List.contains_eq_mem, decide_eq_false_iff_not]
    intro hmem
    cases h _ hmem
  have hread : Number.readWhole .ten cs = .ok (Text.decimalValue cs : Int) :=
    Number.readWhole_digits (fun c hc => Text.isDecimal_of_isDigit (h c hc)) hne hlength
  unfold unsignedWhole
  split
  next => exact absurd rfl hne
  next => exact absurd rfl hhead
  next => exact absurd rfl hhead
  next => exact absurd rfl hhead
  next => exact absurd rfl hhead
  next =>
    rw [hcolon, if_neg Bool.false_ne_true, wholeIn, hread]
    rfl

/-- Digits have no sign. -/
theorem signThen_digits (h : ∀ c ∈ cs, c.isDigit = true) (hne : cs ≠ []) :
    signThen cs = .ok (false, cs) := by
  obtain ⟨c, cs, rfl⟩ := List.exists_cons_of_ne_nil hne
  have hc := h c List.mem_cons_self
  rw [signThen, decide_eq_false (Text.ne_of_isDigit hc rfl),
    decide_eq_false (Text.ne_of_isDigit hc rfl)]
  rfl

/-- Nothing stands before the base of digits, and there are no underscores in them. -/
theorem wholeValue_digits (h : ∀ c ∈ cs, c.isDigit = true) (hne : cs ≠ []) :
    wholeValue cs = unsignedWhole cs := by
  have hfilter : cs.filter (· ≠ '_') = cs :=
    List.filter_eq_self.mpr fun c hc => decide_eq_true (Text.ne_of_isDigit (h c hc) rfl)
  rw [wholeValue, hfilter, signThen_digits h hne]
  show (do let n ← unsignedWhole cs; return if false then -n else n) = _
  cases unsignedWhole cs <;> rfl

/-- The digits of a number within the limit stand for that number. -/
theorem scalarValue_decimalDigits (hn : n < 10 ^ Number.maxDigits) :
    scalarValue .whole (Text.decimalDigits n) = .ok (.whole n) := by
  by_cases hzero : n = 0
  · subst hzero
    rfl
  · have hdigits : ∀ c ∈ Text.decimalDigits n, c.isDigit = true :=
      fun c => Text.isDigit_of_mem_decimalDigits
    have hne := Text.decimalDigits_ne_nil n
    have hlength := (Text.length_decimalDigits_le_iff (by decide)).mpr hn
    rw [scalarValue, wholeValue_digits hdigits hne,
      unsignedWhole_digits hdigits hne (Text.head_decimalDigits hzero) hlength,
      Text.decimalValue_decimalDigits]
    rfl

theorem scalarValue_flag (b : Bool) :
    scalarValue .flag (if b then "true" else "false").toList = .ok (.flag b) := by
  cases b <;> decide +kernel

end Yaml

end OpeningHand
