import OpeningHand.Proofs.Number.Bases
import OpeningHand.Proofs.Yaml.Written.Numbers

/-!
# Digits without quotes

What a row of digits stands for as a plain scalar. Octal digits after a zero are a number in base
eight; digits that do not start with a zero are one in base ten; a zero before other digits, one of
them an eight or a nine, makes a text. Each of these has a name that is digits again, and the name
denotes in base ten what the row does in the base it is read in (`named_digits`).
-/

namespace OpeningHand.Yaml

open Number (denoted)

variable {cs : List Char}

/-- A row of digits is octal: it starts with a zero, and no digit is above seven. -/
def IsOctal (cs : List Char) : Prop := cs.head? = some '0' ∧ ∀ c ∈ cs, c ≤ '7'

theorem isOctal_iff : cs.head? = some '0' ∧ cs.all (· ≤ '7') = true ↔ IsOctal cs := by
  simp only [IsOctal, List.all_eq_true, decide_eq_true_eq]

instance (cs : List Char) : Decidable (IsOctal cs) :=
  decidable_of_iff _ isOctal_iff

/-! ## Forms -/

/-- After a zero the form of a whole number is that of octal digits. -/
theorem isWholeForm_zero (digits : ∀ c ∈ '0' :: cs, c.isDigit = true) :
    Tag.isWholeForm ('0' :: cs) = true ↔ IsOctal ('0' :: cs) := by
  obtain ⟨-, hcs⟩ := List.forall_mem_cons.mp digits
  have hall : (cs.all fun c => ('0' ≤ c && c ≤ '7') || c = '_') = true ↔
      IsOctal ('0' :: cs) := by
    rw [List.all_eq_true, IsOctal, List.forall_mem_cons]
    have hdigit (c : Char) (hc : c.isDigit = true) :
        ((('0' ≤ c && c ≤ '7') || c = '_') = true ↔ c ≤ '7') :=
      Text.forall_isDigit (P := fun c => (('0' ≤ c && c ≤ '7') || c = '_') = true ↔ c ≤ '7')
        (by decide) hc
    constructor
    · intro h
      exact ⟨rfl, by decide, fun c hc => (hdigit c (hcs c hc)).mp (h c hc)⟩
    · rintro ⟨-, -, h⟩ c hc
      exact (hdigit c (hcs c hc)).mpr (h c hc)
  rw [Tag.isWholeForm, dropSign_digits digits]
  split
  next heq =>
    cases heq
    exact iff_of_true rfl (isOctal_iff.mp (by decide))
  next heq =>
    cases heq
    cases hcs 'b' List.mem_cons_self
  next heq =>
    cases heq
    cases hcs 'x' List.mem_cons_self
  next hne _ _ heq =>
    cases heq
    have hnonempty : cs.isEmpty = false := by
      cases cs with
      | nil => exact absurd rfl hne
      | cons => rfl
    rw [Tag.isMarkedForm, hnonempty]
    exact hall
  next hne => exact absurd rfl (hne cs)

/-- Digits alone are no time: no hyphen follows a year. -/
theorem isTimeForm_digits (digits : ∀ c ∈ cs, c.isDigit = true) : Tag.isTimeForm cs = false := by
  have hyphen (n : Nat) : Tag.charThen '-' (cs.drop n) = none := by
    cases hdrop : cs.drop n with
    | nil => rfl
    | cons c rest =>
      have hmem : c ∈ cs := List.mem_of_mem_drop (hdrop ▸ List.mem_cons_self)
      rw [Tag.charThen, if_neg (Text.ne_of_isDigit (digits c hmem) rfl)]
  have hnone : Tag.readTime cs = none := by
    apply Option.bind_eq_none_iff.mpr
    rintro ⟨year, rest⟩ hyear
    obtain ⟨n, rfl⟩ : ∃ n, rest = cs.drop n := by
      rw [Tag.digitsThen] at hyear
      split at hyear
      · cases hyear
      · cases hyear
        exact ⟨_, rfl⟩
    apply Option.bind_eq_none_iff.mpr
    intro rest hrest
    cases (hyphen n).symm.trans hrest
  rw [Tag.isTimeForm, hnone]

/-- Digits with the form of no whole number are a text. -/
theorem ofPlain_text (digits : ∀ c ∈ cs, c.isDigit = true) (nonempty : cs ≠ [])
    (form : Tag.isWholeForm cs = false) : Tag.ofPlain cs = .text := by
  have hother (c : Char) (hc : c.isDigit = false) (rest : List Char) : cs ≠ c :: rest := by
    rintro rfl
    cases hc.symm.trans (digits c List.mem_cons_self)
  have hnull : Tag.isNullForm cs = false := by
    have hwords : ["~", "null", "Null", "NULL"].contains (String.ofList cs) = false :=
      contains_digits digits (by decide)
    have hempty : (String.ofList cs == "") = false := by
      apply beq_eq_false_iff_ne.mpr
      intro heq
      exact nonempty (String.ofList_injective heq)
    rw [Tag.isNullForm, List.contains_cons, hempty]
    exact hwords
  rw [ofPlain_digits digits, form, hnull, isTimeForm_digits digits,
    if_neg (hother '<' rfl _), if_neg (hother '=' rfl _), decide_eq_false (hother '!' rfl _),
    decide_eq_false (hother '&' rfl _), decide_eq_false (hother '*' rfl _)]
  rfl

/-! ## Values -/

/-- Octal digits are read in base eight. -/
theorem unsignedWhole_octal (digits : ∀ c ∈ cs, c.isDigit = true) (octal : IsOctal cs) :
    unsignedWhole cs = .ok (denoted 8 cs : Int) := by
  obtain ⟨hhead, hoctal⟩ := octal
  obtain ⟨rest, rfl⟩ := List.head?_eq_some_iff.mp hhead
  unfold unsignedWhole
  split
  next heq => cases heq
  next heq =>
    cases heq
    rfl
  next heq =>
    cases heq
    cases digits 'b' (List.mem_cons_of_mem _ List.mem_cons_self)
  next heq =>
    cases heq
    cases digits 'x' (List.mem_cons_of_mem _ List.mem_cons_self)
  next heq =>
    rw [wholeIn, Number.readWhole_octal digits hoctal (List.cons_ne_nil _ _)]
    rfl
  next hne => exact absurd rfl (hne rest)

/-- A row of digits stands for a scalar with a name of digits: the name denotes in base ten what the
row denotes in the base that it is read in. -/
structure Named (cs : List Char) (k : Scalar) (name : List Char) : Prop where
  tag : Tag.ofPlain cs = .whole ∨ Tag.ofPlain cs = .text
  value : scalarValue (Tag.ofPlain cs) cs = .ok k
  text : k.text? = some name
  nonempty : name ≠ []
  digits : ∀ c ∈ name, c.isDigit = true
  number : denoted 10 name = if IsOctal cs then denoted 8 cs else denoted 10 cs

/-- Digits that are read as a number within the limit are named by the digits of that number. -/
theorem named_whole {n : Nat} (digits : ∀ c ∈ cs, c.isDigit = true) (nonempty : cs ≠ [])
    (form : Tag.isWholeForm cs = true) (read : unsignedWhole cs = .ok (n : Int))
    (short : n < 10 ^ Number.maxDigits)
    (number : n = if IsOctal cs then denoted 8 cs else denoted 10 cs) :
    Named cs (.whole n) (Text.decimalDigits n) := by
  have htag : Tag.ofPlain cs = .whole := by
    rw [ofPlain_digits digits, form]
    rfl
  constructor
  · exact .inl htag
  · rw [htag, scalarValue, wholeValue_digits digits nonempty, read]
    rfl
  · exact Number.writeWhole?_of_lt (n := n) short
  · exact Text.decimalDigits_ne_nil n
  · exact fun c => Text.isDigit_of_mem_decimalDigits
  · rw [Number.denoted_decimalDigits]
    exact number

/-- A row of digits, no more than a numeral may have, has a name. -/
theorem named_digits (digits : ∀ c ∈ cs, c.isDigit = true) (nonempty : cs ≠ [])
    (short : cs.length ≤ Number.maxDigits) : ∃ k name, Named cs k name := by
  have hten : denoted 10 cs < 10 ^ Number.maxDigits :=
    Nat.lt_of_lt_of_le (Number.denoted_ten_lt digits) (Nat.pow_le_pow_right (by decide) short)
  by_cases hoctal : IsOctal cs
  · obtain ⟨rest, rfl⟩ := List.head?_eq_some_iff.mp hoctal.1
    have height := Nat.lt_of_le_of_lt (Number.denoted_eight_le _) hten
    exact ⟨_, _, named_whole digits nonempty ((isWholeForm_zero digits).mpr hoctal)
      (unsignedWhole_octal digits hoctal) height (if_pos hoctal).symm⟩
  by_cases hhead : cs.head? = some '0'
  · obtain ⟨rest, rfl⟩ := List.head?_eq_some_iff.mp hhead
    have hform := Bool.eq_false_iff.mpr (mt (isWholeForm_zero digits).mp hoctal)
    have htag := ofPlain_text digits nonempty hform
    refine ⟨.text (String.ofList ('0' :: rest)), '0' :: rest, .inr htag, ?_, ?_, nonempty, digits,
      (if_neg hoctal).symm⟩
    · rw [htag]
      rfl
    · rw [Scalar.text?, String.toList_ofList]
  · have hread := unsignedWhole_digits digits nonempty hhead short
    rw [← Number.denoted_ten digits] at hread
    exact ⟨_, _, named_whole digits nonempty (isWholeForm_digits digits nonempty hhead) hread hten
      (if_neg hoctal).symm⟩

end OpeningHand.Yaml
