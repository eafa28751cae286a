import Mathlib.Data.List.TakeWhile
import OpeningHand.Number.Whole
import OpeningHand.Proofs.Text.Numeral

/-!
# Digits as whole numbers

What reading a whole number in base ten makes of a text that is nothing but digit signs. Such a text
has no blanks, no sign and no underscore, so all depends on its leading decimal digits: they may be
too many, and they must be all there is (`readWhole_digitSigns`). A superscript or a circled digit is
a digit sign and no decimal digit, and no numeral holds it.
-/

namespace OpeningHand.Number

variable {cs : List Char}

/-- Nothing is cut off a text without blanks. -/
theorem trimBy_eq_self {p : Char → Bool} (h : ∀ c ∈ cs, p c = false) : Text.trimBy p cs = cs := by
  have hdrop {cs : List Char} (h : ∀ c ∈ cs, p c = false) : cs.dropWhile p = cs := by
    cases cs with
    | nil => rfl
    | cons c cs =>
      rw [List.dropWhile_cons, h c List.mem_cons_self]
      rfl
  rw [Text.trimBy, Text.dropEndWhile, hdrop h, hdrop fun c hc => h c (List.mem_reverse.mp hc),
    List.reverse_reverse]

/-- In base ten the decimal digits alone are digits: the letters stand for ten and more. -/
theorem digitIn?_ten (c : Char) : digitIn? .ten c = Text.decimal? c := by
  unfold digitIn? digitValue?
  cases hc : Text.decimal? c with
  | some d =>
    have := Text.decimal?_getD_lt c
    rw [hc] at this
    exact Option.filter_eq_some_iff.mpr ⟨rfl, decide_eq_true this⟩
  | none =>
    refine Option.filter_eq_none_iff.mpr fun d hd => ?_
    dsimp only at hd
    suffices h : ¬ d < 10 from fun hlt => h (of_decide_eq_true hlt)
    split at hd
    next h =>
      simp only [Bool.and_eq_true, decide_eq_true_eq] at h
      cases hd
      omega
    next =>
      split at hd
      next h =>
        simp only [Bool.and_eq_true, decide_eq_true_eq] at h
        cases hd
        omega
      next => cases hd

/-- A run of decimal digits is read to its end, if there is one or a digit stands before. -/
theorem readRun_ten (bar : '_' ∉ cs) (values : List Nat) (afterDigit : Bool) :
    readRun .ten values afterDigit cs =
      if afterDigit = true ∨ cs.takeWhile Text.isDecimal ≠ [] then
        .digits (((cs.takeWhile Text.isDecimal).map fun c => (Text.decimal? c).getD 0).reverse ++
          values) (cs.dropWhile Text.isDecimal)
      else .loose := by
  induction cs generalizing values afterDigit with
  | nil => cases afterDigit <;> rfl
  | cons c cs ih =>
    obtain ⟨hc, hcs⟩ := List.ne_and_not_mem_of_not_mem_cons bar
    rw [readRun, if_neg hc.symm, digitIn?_ten]
    cases hdecimal : Text.decimal? c with
    | none =>
      have hnot : ¬ Text.isDecimal c = true := by simp [Text.isDecimal, hdecimal]
      rw [List.takeWhile_cons_of_neg hnot, List.dropWhile_cons_of_neg hnot]
      cases afterDigit <;> rfl
    | some d =>
      have his : Text.isDecimal c = true := by simp [Text.isDecimal, hdecimal]
      rw [List.takeWhile_cons_of_pos his, List.dropWhile_cons_of_pos his]
      refine (ih hcs (d :: values) true).trans ?_
      rw [if_pos (.inl rfl), if_pos (.inr (List.cons_ne_nil _ _)), List.map_cons,
        List.reverse_cons, List.append_assoc, hdecimal]
      rfl

theorem valueOf_digits (cs : List Char) :
    valueOf .ten (cs.map fun c => (Text.decimal? c).getD 0) = Text.decimalValue cs := by
  have hfrom (n : Nat) : (cs.map fun c => (Text.decimal? c).getD 0).foldl
      (fun n d => n * Base.ten.value + d) n = Text.decimalFrom n cs := by
    induction cs generalizing n with
    | nil => rfl
    | cons c cs ih => exact ih _
  exact hfrom 0

/-- A text of digit signs is read if they are decimal digits, at least one, and no more than a
numeral may have. -/
theorem readWhole_digitSigns (signs : ∀ c ∈ cs, Text.isDigitSign c = true) :
    readWhole .ten cs =
      if maxDigits < (cs.takeWhile Text.isDecimal).length then
        .error (.tooManyDigits (cs.takeWhile Text.isDecimal).length)
      else if !cs.isEmpty && cs.all Text.isDecimal then .ok (Text.decimalValue cs)
      else .error (.notANumeral .ten cs) := by
  have free {c : Char} (hc : Text.isDigitSign c = false) : c ∉ cs := fun hmem => by
    rw [signs c hmem] at hc
    cases hc
  have hblank : ∀ c ∈ cs, isNumeralBlank c = false := fun c hc => by
    cases hb : Text.isBlank c with
    | false => rw [isNumeralBlank, hb, Bool.false_and]
    | true => exact absurd hc (free (Text.isDigitSign_of_blank hb))
  have hsign : splitSign cs = (false, cs) := by
    unfold splitSign
    split
    next => exact absurd List.mem_cons_self (free (c := '-') (by decide))
    next => exact absurd List.mem_cons_self (free (c := '+') (by decide))
    next => rfl
  have hmark : dropMark .ten cs = cs := by
    unfold dropMark
    split
    next => rfl
    next => rfl
  rw [readWhole, trimBy_eq_self hblank, hsign]
  simp only [hmark]
  rw [readRun_ten (free (by decide)), List.append_nil]
  have hall : cs.all Text.isDecimal = (cs.dropWhile Text.isDecimal).isEmpty := by
    rw [Bool.eq_iff_iff, List.all_eq_true, List.isEmpty_iff, List.dropWhile_eq_nil_iff]
  have hcs : cs.takeWhile Text.isDecimal ++ cs.dropWhile Text.isDecimal = cs :=
    List.takeWhile_append_dropWhile
  rw [hall]
  generalize cs.takeWhile Text.isDecimal = digits at hcs ⊢
  generalize cs.dropWhile Text.isDecimal = rest at hcs ⊢
  subst hcs
  cases digits with
  | nil => cases rest <;> rfl
  | cons d digits =>
    rw [if_pos (.inr (List.cons_ne_nil d digits))]
    simp only [List.length_reverse, List.length_map, List.reverse_reverse, valueOf_digits,
      decide_true, Bool.true_and, decide_eq_true_eq]
    cases rest with
    | nil => rw [List.append_nil]; rfl
    | cons c rest => rfl

/-- Decimal digits, no more than a numeral may have, are read as the number that they denote. -/
theorem readWhole_digits (decimal : ∀ c ∈ cs, Text.isDecimal c = true) (nonempty : cs ≠ [])
    (short : cs.length ≤ maxDigits) : readWhole .ten cs = .ok (Text.decimalValue cs : Int) := by
  rw [readWhole_digitSigns fun c hc => Text.isDigitSign_of_isDecimal (decimal c hc),
    List.takeWhile_eq_self_iff.mpr decimal, if_neg (Nat.not_lt.mpr short),
    if_pos (by simpa [nonempty] using decimal)]

/-- A number with few enough digits can be written. -/
theorem writeWhole?_of_lt {n : Int} (h : n.natAbs < 10 ^ maxDigits) :
    writeWhole? n = some (wholeDigits n) := by
  rw [writeWhole?, Nat.pow_eq, if_neg (Nat.not_le.mpr h)]

/-- A number that is written has few enough digits. -/
theorem lt_of_writeWhole? {n : Int} (h : writeWhole? n = some cs) :
    n.natAbs < 10 ^ maxDigits := by
  rw [writeWhole?, Nat.pow_eq] at h
  generalize 10 ^ maxDigits = bound at h ⊢
  split at h
  next => cases h
  next hlt => exact Nat.lt_of_not_le hlt

end OpeningHand.Number
