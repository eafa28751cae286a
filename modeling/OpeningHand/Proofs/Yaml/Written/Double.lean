import Mathlib.Algebra.Group.Nat.Defs
import OpeningHand.Proofs.Yaml.Written.Quoted

/-!
# Double-quoted scalars read back

Between double quotes any text can be written, and any text is read back: an escape stands for the
character it was made from, and a fold, which ends with a backslash, stands for nothing.
-/

namespace OpeningHand.Yaml

open Writer Lexer

/-! ## Hexadecimal digits -/

/-- What one hexadecimal digit adds. -/
def hexStep (n : Nat) (ch : Char) : Nat :=
  n * 16 + (if ch.isDigit then ch.toNat - 48 else ch.toLower.toNat - 87)

theorem hexValue_eq_foldl (cs : List Char) : hexValue cs = cs.foldl hexStep 0 := rfl

/-- A digit in capitals has the value of the digit. -/
theorem hexStep_digitChar : ∀ d < 16, ∀ n, hexStep n (Nat.digitChar d).toUpper = n * 16 + d := by
  intro d hd n
  have hdigit : ∀ d < 16, (if (Nat.digitChar d).toUpper.isDigit then
      (Nat.digitChar d).toUpper.toNat - 48 else (Nat.digitChar d).toUpper.toLower.toNat - 87) = d := by
    decide
  rw [hexStep, hdigit d hd]

/-- Digits to the base sixteen have the value of the number. -/
theorem foldl_hexStep_toDigits (n : Nat) :
    ((Nat.toDigits 16 n).map Char.toUpper).foldl hexStep 0 = n := by
  induction n using Nat.strongRecOn with
  | ind n ih =>
    rw [Nat.toDigits_eq_if (by decide)]
    split
    next h => rw [List.map_singleton, List.foldl_cons, List.foldl_nil, hexStep_digitChar n h, Nat.zero_mul,
        Nat.zero_add]
    next h =>
      rw [List.map_append, List.foldl_append, ih (n / 16) (by omega), List.map_singleton,
        List.foldl_cons, List.foldl_nil, hexStep_digitChar _ (Nat.mod_lt n (by decide))]
      omega

/-- Numbers are written with zeros in front, up to a width. -/
theorem capitalHex_eq (width n : Nat) : capitalHex width n =
    List.replicate (width - (Nat.toDigits 16 n).length) '0' ++ (Nat.toDigits 16 n).map Char.toUpper := by
  rw [capitalHex, Text.hexDigits, List.map_append, List.map_replicate]
  rfl

/-- Zeros in front do not change the value. -/
theorem hexValue_capitalHex (width n : Nat) : hexValue (capitalHex width n) = n := by
  have hzeros (k : Nat) : (List.replicate k '0').foldl hexStep 0 = 0 := by
    induction k with
    | zero => rfl
    | succ k ih => rw [List.replicate_succ, List.foldl_cons]; exact ih
  rw [hexValue_eq_foldl, capitalHex_eq, List.foldl_append, hzeros, foldl_hexStep_toDigits]

theorem exists_digit_of_mem_capitalHex {width n : Nat} {ch : Char} (h : ch ∈ capitalHex width n) :
    ∃ d < 16, ch = (Nat.digitChar d).toUpper := by
  have hdigits : ∀ ch ∈ (Nat.toDigits 16 n).map Char.toUpper,
      ∃ d < 16, ch = (Nat.digitChar d).toUpper := by
    clear h
    induction n using Nat.strongRecOn with
    | ind n ih =>
      rw [Nat.toDigits_eq_if (by decide)]
      split
      next hlt => exact fun ch hch => ⟨n, hlt, by simpa using hch⟩
      next =>
        rw [List.map_append, List.forall_mem_append]
        refine ⟨ih (n / 16) (by omega), fun ch hch => ⟨n % 16, Nat.mod_lt n (by decide), ?_⟩⟩
        simpa using hch
  rw [capitalHex_eq, List.mem_append] at h
  rcases h with h | h
  · exact ⟨0, by decide, List.eq_of_mem_replicate h⟩
  · exact hdigits ch h

theorem isHexDigit_capitalHex (width n : Nat) : (capitalHex width n).all isHexDigit = true := by
  have hdigit : ∀ d < 16, isHexDigit (Nat.digitChar d).toUpper = true := by decide
  refine List.all_eq_true.mpr fun ch hch => ?_
  obtain ⟨d, hd, rfl⟩ := exists_digit_of_mem_capitalHex hch
  exact hdigit d hd

/-- A number below the power fits the width. -/
theorem length_capitalHex {width n : Nat} (pos : 0 < width) (h : n < 16 ^ width) :
    (capitalHex width n).length = width := by
  have hle := (Nat.length_toDigits_le_iff (by decide) pos).mpr h
  rw [capitalHex_eq, List.length_append, List.length_replicate, List.length_map]
  omega

/-! ## Escapes -/

/-- A character has no number of a surrogate, so its number stands for itself. -/
theorem pointOfCode_toNat (ch : Char) : pointOfCode ch.toNat = .ok (.char ch) := by
  have hvalid : ch.toNat < 0xd800 ∨ 0xdfff < ch.toNat ∧ ch.toNat < 0x110000 := ch.valid
  have hchar : ¬ (Text.Point.firstHalf ≤ ch.toNat ∧ ch.toNat - Text.Point.firstHalf < 0x800) := by
    rw [Text.Point.firstHalf]
    omega
  rw [pointOfCode, if_neg (by omega), if_neg (by omega), Text.Point.ofNat, dif_neg hchar,
    Char.ofNat_toNat]

namespace Lexer

variable {ch : Char} {r : List Char}

/-- A character is read from the escape with its number. -/
theorem Quotes.capitalHex {letter : Char} {width : Nat} (hletter : escaped? letter = none)
    (hwidth : escapeWidth? letter = some width) (pos : 0 < width) (h : ch.toNat < 16 ^ width) :
    Quotes true ('\\' :: letter :: Writer.capitalHex width ch.toNat) r [ch] := by
  refine .number hletter ?_ (isHexDigit_capitalHex _ _) ?_
  · rw [length_capitalHex pos h, hwidth]
  · rw [hexValue_capitalHex, pointOfCode_toNat]

/-- The letter of an escape stands for the character that it was made from. -/
theorem escaped?_of_escapeLetter? {letter : Char} (h : escapeLetter? ch = some letter) :
    escaped? letter = some ch := by
  have hall : ∀ e ∈ [('\x00', '0'), ('\x07', 'a'), ('\x08', 'b'), ('\t', 't'), ('\n', 'n'),
      ('\x0b', 'v'), ('\x0c', 'f'), ('\r', 'r'), ('\x1b', 'e'), ('"', '"'), ('\\', '\\'),
      ('\x85', 'N'), ('\xa0', '_'), ('\u2028', 'L'), ('\u2029', 'P')],
      escaped? e.2 = some e.1 := by decide
  obtain ⟨as, bs, heq, -⟩ := List.lookup_eq_some_iff.mp h
  exact hall (ch, letter) (by rw [heq]; simp)

/-- An escape is read as the character that it was made from. -/
theorem Quotes.escapeText (ch : Char) : Quotes true (Writer.escapeText ch) r [ch] := by
  rw [Writer.escapeText]
  split
  next letter h => exact .letter (escaped?_of_escapeLetter? h)
  next =>
    have hlt : ch.toNat < 16 ^ 8 := by
      have h := ch.val.toNat_lt
      exact Nat.lt_of_lt_of_le h (by decide)
    dsimp only
    split
    next h => exact .capitalHex rfl rfl (by decide) (by omega)
    next =>
      split
      next h => exact .capitalHex rfl rfl (by decide) (by omega)
      next => exact .capitalHex rfl rfl (by decide) hlt

/-- Every escape starts with a backslash. -/
theorem escapeText_eq_cons (ch : Char) : ∃ w, Writer.escapeText ch = '\\' :: w := by
  rw [Writer.escapeText]
  split
  · exact ⟨_, rfl⟩
  · dsimp only
    split
    · exact ⟨_, rfl⟩
    · split <;> exact ⟨_, rfl⟩

/-! ## Folds -/

variable {l : Layout} {cs w : List Char} {n : Nat}

/-- A folded line that goes on with a space starts with an escaped one. -/
theorem foldBefore_space (x : List Char) : foldBefore n (' ' :: cs) ++ x =
    ('\\' :: '\n' :: List.replicate n ' ') ++ '\\' :: x := by
  rw [foldBefore, List.head?_cons, if_pos rfl, List.append_assoc]
  rfl

theorem foldBefore_other (h : ch ≠ ' ') (x : List Char) : foldBefore n (ch :: cs) ++ x =
    ('\\' :: '\n' :: List.replicate n ' ') ++ x := by
  rw [foldBefore, List.head?_cons, if_neg fun heq => h (Option.some.inj heq), List.append_nil]
  rfl

/-- A fold before a space, which is escaped. -/
theorem Quotes.foldBefore_space (hn : 0 < n) (h : Quotes true ('\\' :: w) r (' ' :: cs)) :
    Quotes true (foldBefore n (' ' :: cs) ++ w) r (' ' :: cs) := by
  rw [Lexer.foldBefore_space]
  exact (Quotes.escapedFold hn rfl).append h

/-- A fold before what is written for another character. -/
theorem Quotes.foldBefore_other {first : Char} (hn : 0 < n) (hch : ch ≠ ' ')
    (hfirst : isSolid first = true) (h : Quotes true (first :: w) r (ch :: cs)) :
    Quotes true (foldBefore n (ch :: cs) ++ first :: w) r (ch :: cs) := by
  rw [Lexer.foldBefore_other hch]
  exact (Quotes.escapedFold hn hfirst).append h

/-! ## Texts -/

/-- Characters that stand for themselves between double quotes are neither blanks nor breaks. -/
theorem isSolid_of_isDoubleChar (h : isDoubleChar ch = true) (hspace : ch ≠ ' ') :
    isSolid ch = true := by
  refine isSolid_iff.mpr ⟨?_, hspace, ?_, ?_⟩
  · rintro rfl
    cases h
  · rintro rfl
    cases h
  · refine Bool.eq_false_iff.mpr fun hbreak => ?_
    simp only [isBreak, Bool.or_eq_true, decide_eq_true_eq] at hbreak
    rcases hbreak with (((rfl | rfl) | rfl) | rfl) | rfl <;> cases h

theorem isQuotedChar_of_isDoubleChar (h : isDoubleChar ch = true) (hspace : ch ≠ ' ') :
    isQuotedChar true ch = true := by
  have hsolid := isSolid_of_isDoubleChar h hspace
  have hquote : ch ≠ '"' := by
    rintro rfl
    cases h
  have hescape : ch ≠ '\\' := by
    rintro rfl
    cases h
  rw [isSolid] at hsolid
  simp [isQuotedChar, hsolid, hquote, hescape]

/-- What is written starts firmly, up to the quote at the end. -/
theorem firm_doubleFrom (column : Nat) (isFirst isFresh : Bool) (cs : List Char) :
    Firm (doubleFrom l column isFirst isFresh cs ++ '"' :: r) := by
  induction cs generalizing column isFirst isFresh with
  | nil => exact firm_of_solid rfl
  | cons ch cs ih =>
    rw [doubleFrom]
    dsimp only
    split
    next hch =>
      split
      next => exact firm_of_solid rfl
      next =>
        by_cases hspace : ch = ' '
        · rw [List.cons_append, Firm, if_pos hspace]
          exact ih _ _ _
        · exact firm_of_solid (isSolid_of_isDoubleChar hch hspace)
    next =>
      obtain ⟨w, hw⟩ := escapeText_eq_cons ch
      rw [hw]
      split <;> exact firm_of_solid rfl

/-- What is written for a text that starts with no space starts with a solid character. -/
theorem exists_solid_doubleFrom (column : Nat) (isFirst isFresh : Bool) (hspace : ch ≠ ' ') :
    ∃ first w, doubleFrom l column isFirst isFresh (ch :: cs) = first :: w ∧ isSolid first = true := by
  rw [doubleFrom]
  dsimp only
  split
  next hch =>
    split
    · exact ⟨_, _, rfl, rfl⟩
    · exact ⟨_, _, rfl, isSolid_of_isDoubleChar hch hspace⟩
  next =>
    obtain ⟨w, hw⟩ := escapeText_eq_cons ch
    rw [hw]
    split <;> exact ⟨_, _, rfl, rfl⟩

/-- A character that stands for itself, and the text after it. -/
theorem Quotes.cons_double (hch : isDoubleChar ch = true) (column : Nat) (isFirst isFresh : Bool)
    (h : Quotes true (doubleFrom l column isFirst isFresh cs) ('"' :: r) cs) :
    Quotes true (ch :: doubleFrom l column isFirst isFresh cs) ('"' :: r) (ch :: cs) := by
  by_cases hspace : ch = ' '
  · subst hspace
    exact (Quotes.space (firm_doubleFrom column isFirst isFresh cs)).cons h
  · exact (Quotes.char (isQuotedChar_of_isDoubleChar hch hspace)).cons h

/-- Any text is read back, and so it is after a fold before its first space: there the space is
escaped, as no fold stands right after a fold. -/
theorem quotes_doubleFrom (hl : l.folds = true → 0 < l.indent ∧ l.indent < maxWidth)
    (cs : List Char) :
    (∀ column isFirst isFresh,
      Quotes true (doubleFrom l column isFirst isFresh cs) ('"' :: r) cs) ∧
    (cs.head? = some ' ' → ∀ column ≤ maxWidth,
      Quotes true ('\\' :: doubleFrom l column false true cs) ('"' :: r) cs) := by
  induction cs with
  | nil => exact ⟨fun _ _ _ => .nil, nofun⟩
  | cons ch cs ih =>
    obtain ⟨ih, ihSpace⟩ := ih
    constructor
    · intro column isFirst isFresh
      rw [doubleFrom]
      dsimp only
      split
      next hch =>
        split
        next hfold =>
          have hfolds : l.folds = true := by simp_all
          obtain ⟨hpos, -⟩ := hl hfolds
          by_cases hspace : ch = ' '
          · subst hspace
            exact .foldBefore_space hpos ((Quotes.letter rfl).append (ih _ _ _))
          · exact .foldBefore_other hpos hspace (isSolid_of_isDoubleChar hch hspace)
              (.cons_double hch _ _ _ (ih _ _ _))
        next => exact .cons_double hch _ _ _ (ih _ _ _)
      next =>
        split
        next hfold =>
          have hfolds : l.folds = true := by simp_all
          obtain ⟨hpos, hlt⟩ := hl hfolds
          rw [List.append_assoc]
          refine (Quotes.escapeText ch).append ?_
          cases cs with
          | nil => simp at hfold
          | cons d cs =>
            by_cases hspace : d = ' '
            · subst hspace
              exact .foldBefore_space hpos (ihSpace rfl _ hlt)
            · obtain ⟨first, w, heq, hfirst⟩ : ∃ first w, doubleFrom l
                  (columnAfterFold l.indent (d :: cs)) false true (d :: cs) = first :: w ∧
                  isSolid first = true := exists_solid_doubleFrom _ _ _ hspace
              have h := ih (columnAfterFold l.indent (d :: cs)) false true
              rw [heq] at h ⊢
              exact .foldBefore_other hpos hspace hfirst h
        next => exact (Quotes.escapeText ch).append (ih _ _ _)
    · intro hhead column hcolumn
      obtain rfl : ch = ' ' := by simpa using hhead
      have hnotWide : decide (maxWidth < column) = false := by
        rw [decide_eq_false_iff_not]
        omega
      have hspace : isDoubleChar ' ' = true := rfl
      rw [doubleFrom]
      simp only [hspace, if_true, hnotWide, Bool.and_false, Bool.false_eq_true, if_false]
      exact (Quotes.letter rfl).append (ih _ _ _)

/-- Without folds every character is written on its own. -/
theorem doubleFrom_unfolded (hl : l.folds = false) (column : Nat) (isFirst isFresh : Bool)
    (cs : List Char) : doubleFrom l column isFirst isFresh cs =
      cs.flatMap fun ch => if isDoubleChar ch then [ch] else Writer.escapeText ch := by
  induction cs generalizing column isFirst isFresh with
  | nil => rfl
  | cons ch cs ih =>
    rw [doubleFrom, List.flatMap_cons]
    simp only [hl, Bool.false_and, Bool.false_eq_true, if_false, ih]
    split <;> rfl

/-- Besides characters that stand for themselves, escapes and folds are written. -/
theorem mem_doubleFrom {column : Nat} {isFirst isFresh : Bool}
    (h : ch ∈ doubleFrom l column isFirst isFresh cs) : isDoubleChar ch = true ∨
      (∃ d, ch ∈ Writer.escapeText d) ∨ (l.folds = true ∧ (ch = '\\' ∨ ch = '\n' ∨ ch = ' ')) := by
  have hfold {n : Nat} {cs : List Char} (h : ch ∈ foldBefore n cs) :
      ch = '\\' ∨ ch = '\n' ∨ ch = ' ' := by
    rw [foldBefore, newLine, List.mem_append, List.mem_cons, List.mem_cons] at h
    rcases h with (h | h | h) | h
    · exact .inl h
    · exact .inr (.inl h)
    · exact .inr (.inr (List.eq_of_mem_replicate h))
    · split at h
      · exact .inl (List.mem_singleton.mp h)
      · cases h
  induction cs generalizing column isFirst isFresh with
  | nil => cases h
  | cons d cs ih =>
    rw [doubleFrom] at h
    dsimp only at h
    split at h
    next hd =>
      split at h
      next hfolds =>
        simp only [Bool.and_eq_true] at hfolds
        rcases List.mem_append.mp h with h | h
        · exact .inr (.inr ⟨hfolds.1.1.1.1, hfold h⟩)
        · rcases List.mem_cons.mp h with rfl | h
          · exact .inl hd
          · exact ih h
      next =>
        rcases List.mem_cons.mp h with rfl | h
        · exact .inl hd
        · exact ih h
    next =>
      split at h
      next hfolds =>
        simp only [Bool.and_eq_true] at hfolds
        rcases List.mem_append.mp h with h | h
        · rcases List.mem_append.mp h with h | h
          · exact .inr (.inl ⟨d, h⟩)
          · exact .inr (.inr ⟨hfolds.1.1.1, hfold h⟩)
        · exact ih h
      next =>
        rcases List.mem_append.mp h with h | h
        · exact .inr (.inl ⟨d, h⟩)
        · exact ih h

/-- A scalar between double quotes is read as the text it was written for. -/
theorem quotedScalar_doubleText {c : Cursor} {column : Nat}
    (hl : l.folds = true → 0 < l.indent ∧ l.indent < maxWidth)
    (hrest : c.rest = doubleText l column cs ++ r) :
    quotedScalar true c = .ok (cs.map .char, c.skip (doubleText l column cs).length) := by
  have hrest' : c.rest = quoteMark true :: (doubleFrom l (column + 1) true true cs ++
      quoteMark true :: r) := by
    rw [hrest, doubleText, List.cons_append, List.append_assoc]
    rfl
  have hlength : (doubleText l column cs).length =
      (doubleFrom l (column + 1) true true cs).length + 2 := by
    rw [doubleText, List.length_cons, List.length_append, List.length_singleton]
  rw [quotedScalar_eq hrest' ((quotes_doubleFrom hl cs).1 _ _ _) nofun, hlength]

end Lexer

end OpeningHand.Yaml
