import Mathlib.Data.Nat.Digits.Defs
import OpeningHand.Proofs.Number.Whole

/-!
# One row of digits in two bases

What a row of digits denotes in a base, and when base eight and base ten agree on it: only the last
digit counts the same in both, so all others must be zero (`denoted_eight_eq_ten_iff`). A row of
octal digits is read in base eight as what it denotes there, with no limit on its length.
-/

namespace OpeningHand.Number

variable {c : Char} {cs : List Char} {base : Base}

/-- The number that a digit stands for. -/
def digitOf (c : Char) : Nat := c.toNat - '0'.toNat

/-- The number that a row of digits denotes in a base, the most significant digit first. -/
def denoted (base : Nat) (cs : List Char) : Nat := Nat.ofDigits base (cs.map digitOf).reverse

theorem decimal?_of_isDigit (h : c.isDigit = true) : Text.decimal? c = some (digitOf c) :=
  Text.forall_isDigit (P := fun c => Text.decimal? c = some (digitOf c)) (by decide) h

theorem digitOf_eq_zero_iff (h : c.isDigit = true) : digitOf c = 0 ↔ c = '0' :=
  Text.forall_isDigit (P := fun c => digitOf c = 0 ↔ c = '0') (by decide) h

/-- Digit values are put together as digits are, in the other order. -/
theorem valueOf_eq_ofDigits (base : Base) (values : List Nat) :
    valueOf base values = Nat.ofDigits base.value values.reverse := by
  rw [Nat.ofDigits_eq_foldr, List.foldr_reverse, valueOf]
  congr 1
  funext n d
  rw [Nat.mul_comm, Nat.add_comm]
  rfl

/-- In base ten digits denote what they do as a decimal. -/
theorem denoted_ten (digits : ∀ c ∈ cs, c.isDigit = true) :
    denoted 10 cs = Text.decimalValue cs := by
  have hvalues : cs.map digitOf = cs.map fun c => (Text.decimal? c).getD 0 := by
    apply List.map_congr_left
    intro c hc
    rw [decimal?_of_isDigit (digits c hc)]
    rfl
  rw [denoted, hvalues, ← valueOf_digits, valueOf_eq_ofDigits]
  rfl

/-- The digits of a number denote it. -/
theorem denoted_decimalDigits (n : Nat) : denoted 10 (Text.decimalDigits n) = n := by
  rw [denoted_ten fun c => Text.isDigit_of_mem_decimalDigits, Text.decimalValue_decimalDigits]

/-! ## Base eight -/

/-- A run of nothing but digits of the base is read to its end. The induction is on the run. -/
theorem readRun_digits (digits : ∀ c ∈ cs, c ≠ '_' ∧ digitIn? base c = some (digitOf c))
    (values : List Nat) (afterDigit : Bool) (start : afterDigit = true ∨ cs ≠ []) :
    readRun base values afterDigit cs = .digits ((cs.map digitOf).reverse ++ values) [] := by
  induction cs generalizing values afterDigit with
  | nil =>
    obtain rfl : afterDigit = true := start.resolve_right fun h => h rfl
    rfl
  | cons c cs ih =>
    obtain ⟨⟨hbar, hdigit⟩, hcs⟩ := List.forall_mem_cons.mp digits
    rw [readRun, if_neg hbar, hdigit, List.map_cons, List.reverse_cons, List.append_assoc]
    exact ih hcs (digitOf c :: values) true (.inl rfl)

theorem digitIn?_eight (h : c.isDigit = true) (hc : c ≤ '7') :
    digitIn? .eight c = some (digitOf c) :=
  Text.forall_isDigit (P := fun c => c ≤ '7' → digitIn? .eight c = some (digitOf c)) (by decide)
    h hc

/-- Octal digits are read as what they denote in base eight. -/
theorem readWhole_octal (digits : ∀ c ∈ cs, c.isDigit = true) (octal : ∀ c ∈ cs, c ≤ '7')
    (nonempty : cs ≠ []) : readWhole .eight cs = .ok (denoted 8 cs : Int) := by
  have hblank : ∀ c ∈ cs, isNumeralBlank c = false := by
    intro c hc
    exact Text.forall_isDigit (P := fun c => isNumeralBlank c = false) (by decide) (digits c hc)
  have hsign : splitSign cs = (false, cs) := by
    unfold splitSign
    split
    next => cases digits _ List.mem_cons_self
    next => cases digits _ List.mem_cons_self
    next => rfl
  have hmark : dropMark .eight cs = cs := by
    unfold dropMark
    split
    next c rest =>
      have hc : c.toLower ≠ 'o' := by
        apply Text.forall_isDigit (P := fun c => c.toLower ≠ 'o') (by decide)
        exact digits c (List.mem_cons_of_mem _ List.mem_cons_self)
      simp only [Base.letter?, if_neg hc]
    next => rfl
  have hdigits : ∀ c ∈ cs, c ≠ '_' ∧ digitIn? .eight c = some (digitOf c) := by
    intro c hc
    exact ⟨Text.ne_of_isDigit (digits c hc) rfl, digitIn?_eight (digits c hc) (octal c hc)⟩
  have hrun := readRun_digits hdigits [] false (.inr nonempty)
  rw [List.append_nil] at hrun
  rw [readWhole, trimBy_eq_self hblank, hsign]
  simp only [hmark, hrun, List.reverse_reverse, valueOf_eq_ofDigits]
  rfl

/-! ## Both bases -/

/-- Digits, least significant first, denote the same in base eight as in base ten if all but the
first are zero. -/
theorem ofDigits_eight_eq_ten_iff (ds : List Nat) :
    Nat.ofDigits 8 ds = Nat.ofDigits 10 ds ↔ ∀ d ∈ ds.tail, d = 0 := by
  cases ds with
  | nil => exact iff_of_true rfl (List.forall_mem_nil _)
  | cons d ds =>
    have hle : Nat.ofDigits 8 ds ≤ Nat.ofDigits 10 ds := Nat.ofDigits_monotone ds (by decide)
    rw [Nat.ofDigits_cons, Nat.ofDigits_cons, List.tail_cons]
    constructor
    · intro heq
      have hzero : Nat.ofDigits 10 ds = 0 := by
        omega
      intro d hd
      exact Nat.digits_zero_of_eq_zero (by decide) hzero d hd
    · intro hzero
      rw [List.eq_replicate_of_mem hzero, Nat.ofDigits_replicate_zero, Nat.ofDigits_replicate_zero]

/-- Base eight and base ten agree on a row of digits if all but the last are zero. -/
theorem denoted_eight_eq_ten_iff (digits : ∀ c ∈ cs, c.isDigit = true) :
    denoted 8 cs = denoted 10 cs ↔ ∀ c ∈ cs.dropLast, c = '0' := by
  rw [denoted, denoted, ofDigits_eight_eq_ten_iff, List.tail_reverse, ← List.map_dropLast]
  simp only [List.mem_reverse, List.forall_mem_map]
  apply forall₂_congr
  intro c hc
  exact digitOf_eq_zero_iff (digits c (List.dropLast_subset cs hc))

theorem denoted_eight_le (cs : List Char) : denoted 8 cs ≤ denoted 10 cs :=
  Nat.ofDigits_monotone _ (by decide)

/-- Digits denote less than the power of ten that is their count. -/
theorem denoted_ten_lt (digits : ∀ c ∈ cs, c.isDigit = true) : denoted 10 cs < 10 ^ cs.length := by
  rw [denoted_ten digits]
  exact Text.decimalValue_lt cs

end OpeningHand.Number
