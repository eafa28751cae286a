import Mathlib.Algebra.Group.Nat.Defs
import OpeningHand.Text.Blank
import OpeningHand.Text.Digit

/-!
# Numerals and numbers

The digits that a number is written with read as that number, and digits in a row stay below the
power of ten that their count allows.
-/

namespace OpeningHand.Text

/-! ## Digits -/

theorem isDecimal_of_isDigit {c : Char} (h : c.isDigit = true) : isDecimal c = true := by
  simp only [Char.isDigit, Bool.and_eq_true, decide_eq_true_eq, ge_iff_le, UInt32.le_iff_toNat_le]
    at h
  have hlow : 0x30 ≤ c.toNat := h.1
  have hhigh : c.toNat ≤ 0x30 + 9 := h.2
  simp [isDecimal, decimal?, decimalZeros, digitIn, hlow, hhigh]

/-- What holds of the ten digits holds of every character that is one. -/
theorem forall_isDigit {P : Char → Prop} (h : ∀ d < 10, P (Nat.digitChar d)) {c : Char}
    (hc : c.isDigit = true) : P c := by
  have hcases : ∀ k < 58, 48 ≤ k → Char.ofNat k = Nat.digitChar (k - 48) := by decide
  simp only [Char.isDigit, Bool.and_eq_true, decide_eq_true_eq, ge_iff_le, UInt32.le_iff_toNat_le]
    at hc
  have hlow : 48 ≤ c.toNat := hc.1
  have hhigh : c.toNat ≤ 57 := hc.2
  rw [← Char.ofNat_toNat c, hcases c.toNat (by omega) hlow]
  exact h _ (by omega)

theorem ne_of_isDigit {c d : Char} (hc : c.isDigit = true) (hd : d.isDigit = false) : c ≠ d := by
  rintro rfl
  rw [hc] at hd
  cases hd

theorem decimal?_digitChar : ∀ d < 10, decimal? (Nat.digitChar d) = some d := by
  decide

theorem digitIn_le {n d : Nat} {zeros : List Nat} (h : digitIn n zeros = some d) : d ≤ 9 := by
  induction zeros with
  | nil => cases h
  | cons first zeros ih =>
    rw [digitIn] at h
    split at h
    next hrun =>
      simp only [Bool.and_eq_true, decide_eq_true_eq] at hrun
      cases h
      omega
    next => exact ih h

theorem decimal?_getD_lt (c : Char) : (decimal? c).getD 0 < 10 := by
  cases h : decimal? c with
  | none => decide
  | some d => exact Nat.lt_succ_of_le (digitIn_le h)

theorem isDigitSign_of_isDecimal {c : Char} (h : isDecimal c = true) : isDigitSign c = true := by
  rw [isDigitSign, h, Bool.true_or]

/-- The blanks are few enough to look each of them up. -/
theorem isDigitSign_of_blank {c : Char} (h : isBlank c = true) : isDigitSign c = false := by
  have hcode : c.toNat ∈ List.range' 9 5 ++ List.range' 28 5 ++ [0x85, 0xa0, 0x1680] ++
      List.range' 0x2000 11 ++ [0x2028, 0x2029, 0x202f, 0x205f, 0x3000] := by
    simp only [isBlank, Bool.or_eq_true, Bool.and_eq_true, decide_eq_true_eq, beq_iff_eq] at h
    simp only [List.mem_append, List.mem_range'_1, List.mem_cons, List.not_mem_nil, or_false]
    omega
  have hnone : ∀ n ∈ List.range' 9 5 ++ List.range' 28 5 ++ [0x85, 0xa0, 0x1680] ++
      List.range' 0x2000 11 ++ [0x2028, 0x2029, 0x202f, 0x205f, 0x3000],
      digitIn n decimalZeros = none ∧
        (digitSigns.any fun r => r.1 ≤ n && n ≤ r.2) = false := by decide
  obtain ⟨hdecimal, hsign⟩ := hnone _ hcode
  rw [isDigitSign, isDecimal, decimal?, hdecimal, hsign]
  rfl

theorem isDecimal_of_blank {c : Char} (h : isBlank c = true) : isDecimal c = false := by
  cases hc : isDecimal c with
  | false => rfl
  | true =>
    have hsign := isDigitSign_of_isDecimal hc
    rw [isDigitSign_of_blank h] at hsign
    cases hsign

/-! ## Numerals -/

theorem decimalFrom_append (n : Nat) (as bs : List Char) :
    decimalFrom n (as ++ bs) = decimalFrom (decimalFrom n as) bs := by
  induction as generalizing n with
  | nil => rfl
  | cons a as ih => exact ih _

/-- The digits of a number denote it. -/
theorem decimalValue_decimalDigits (n : Nat) : decimalValue (decimalDigits n) = n := by
  induction n using Nat.strongRecOn with
  | ind n ih =>
    rw [decimalDigits, Nat.toDigits_eq_if (by decide)]
    split
    next h => simp [decimalValue, decimalFrom, decimal?_digitChar n h]
    next h =>
      have hlast := decimal?_digitChar (n % 10) (Nat.mod_lt n (by decide))
      have hfront : decimalFrom 0 (Nat.toDigits 10 (n / 10)) = n / 10 := ih _ (by omega)
      simp only [decimalValue, decimalFrom_append, hfront, decimalFrom, hlast, Option.getD_some]
      omega

theorem isDigit_of_mem_decimalDigits {n : Nat} {c : Char} (h : c ∈ decimalDigits n) :
    c.isDigit = true :=
  Nat.isDigit_of_mem_toDigits (by decide) (by decide) h

theorem isDecimal_of_mem_decimalDigits {n : Nat} {c : Char} (h : c ∈ decimalDigits n) :
    isDecimal c = true :=
  isDecimal_of_isDigit (isDigit_of_mem_decimalDigits h)

theorem decimalDigits_ne_nil (n : Nat) : decimalDigits n ≠ [] :=
  Nat.toDigits_ne_nil

/-- The digits of a number other than zero do not start with a zero. -/
theorem head_decimalDigits {n : Nat} (h : n ≠ 0) : (decimalDigits n).head? ≠ some '0' := by
  induction n using Nat.strongRecOn with
  | ind n ih =>
    rw [decimalDigits, Nat.toDigits_eq_if (by decide)]
    split
    next hlt =>
      have hdigit : ∀ d < 10, d ≠ 0 → Nat.digitChar d ≠ '0' := by decide
      simpa using hdigit n hlt h
    next hlt =>
      have hfront : (decimalDigits (n / 10)).head? ≠ some '0' := ih _ (by omega) (by omega)
      obtain ⟨d, ds, heq⟩ := List.exists_cons_of_ne_nil (decimalDigits_ne_nil (n / 10))
      rw [heq] at hfront
      have happend : Nat.toDigits 10 (n / 10) = d :: ds := heq
      rw [happend]
      exact hfront

/-- A number below a power of ten has no more digits than its exponent. -/
theorem length_decimalDigits_le_iff {n k : Nat} (pos : 0 < k) :
    (decimalDigits n).length ≤ k ↔ n < 10 ^ k :=
  Nat.length_toDigits_le_iff (by decide) pos

theorem decimalFrom_lt {n k : Nat} (h : n < 10 ^ k) (cs : List Char) :
    decimalFrom n cs < 10 ^ (k + cs.length) := by
  induction cs generalizing n k with
  | nil => exact h
  | cons c cs ih =>
    have hc := decimal?_getD_lt c
    have hnext : n * 10 + (decimal? c).getD 0 < 10 ^ (k + 1) := by
      rw [Nat.pow_succ]
      omega
    have hall := ih hnext
    rwa [List.length_cons, ← Nat.add_assoc, Nat.add_right_comm]

/-- Digits denote a number below the power of ten that is their count. -/
theorem decimalValue_lt (cs : List Char) : decimalValue cs < 10 ^ cs.length := by
  have h := decimalFrom_lt (n := 0) (k := 0) (by decide) cs
  rwa [Nat.zero_add] at h

end OpeningHand.Text
