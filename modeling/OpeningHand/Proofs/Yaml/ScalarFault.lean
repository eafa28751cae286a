import Mathlib.Algebra.Group.Int.Defs
import Mathlib.Tactic.ByContra
import OpeningHand.Proofs.Lapse
import OpeningHand.Yaml.Scalar

/-!
# Faults of scalars

A tag written before a scalar asks its reader for a value of any text. `TextLapse` lists the texts
for which a reader has no answer and none of its own faults either: a truth value that is no truth
word, a number without a digit or a sign to look at, a number in base sixty with more places than a
floating-point number has, and a time that has no form of a time. All other texts either have a value
or a fault that loading answers for.
-/

namespace OpeningHand.Yaml

/-- The words for truth values, in lower case. -/
def truthWords : List String := ["yes", "true", "on", "no", "false", "off"]

/-- The most places in base sixty whose weights are floating-point numbers. -/
def mostPlaces : Nat := 174

/-- A number in base sixty of too many pieces, each of which is a decimal. -/
def IsOverlong (unsigned : List Char) : Prop :=
  (∀ part ∈ unsigned.splitOn ':', (Number.readDecimal? part).isSome = true) ∧
    mostPlaces < (unsigned.splitOn ':').length

/-- A text for which the reader of a tag has no answer, and the way it lapses. -/
inductive TextLapse : Tag → List Char → Lapse → Prop
  | flag {cs} (hword : String.ofList (Text.lower cs) ∉ truthWords) : TextLapse .flag cs .noEntry
  | whole {cs} (hbare : cs.filter (· ≠ '_') ∈ [[], ['-'], ['+']]) : TextLapse .whole cs .noIndex
  | real {place cs} (hempty : cs.filter (· ≠ '_') = []) : TextLapse (.real place) cs .noIndex
  | places {place cs negative unsigned}
      (hsign : signThen (Text.lower (cs.filter (· ≠ '_'))) = .ok (negative, unsigned))
      (hlong : IsOverlong unsigned) : TextLapse (.real place) cs .tooLarge
  | time {cs} (hform : Tag.readTime (Tag.dropNewline cs) = none) : TextLapse .time cs .noAttribute

/-! ## Truth values and whole numbers -/

theorem mem_truthWords_iff {word : String} :
    word ∈ truthWords ↔
      ["yes", "true", "on"].contains word = true ∨ ["no", "false", "off"].contains word = true := by
  rw [List.contains_iff_mem, List.contains_iff_mem, ← List.mem_append]
  rfl

theorem flagValue_lapsesIn (cs : List Char) : LapsesIn (flagValue cs) (TextLapse .flag cs) := by
  unfold flagValue
  dsimp only
  by_cases hyes : ["yes", "true", "on"].contains (String.ofList (Text.lower cs)) = true
  · rw [if_pos hyes]
    apply (LapsesIn.ok _).of_never
    intro l h
    obtain ⟨hword⟩ := h
    exact hword (mem_truthWords_iff.mpr (.inl hyes))
  · rw [if_neg hyes]
    by_cases hno : ["no", "false", "off"].contains (String.ofList (Text.lower cs)) = true
    · rw [if_pos hno]
      apply (LapsesIn.ok _).of_never
      intro l h
      obtain ⟨hword⟩ := h
      exact hword (mem_truthWords_iff.mpr (.inr hno))
    · rw [if_neg hno]
      apply (LapsesIn.lapse .noEntry).congr
      intro l
      constructor
      · rintro rfl
        apply TextLapse.flag
        intro hword
        exact (mem_truthWords_iff.mp hword).elim hyes hno
      · rintro ⟨-⟩
        rfl

theorem wholeIn_never (base : Number.Base) (cs : List Char) : NeverLapses (wholeIn base cs) :=
  (Answered.mapError fun _ => rfl).neverLapses

theorem sixtieths_never (parts : List (List Char)) (n : Int) : NeverLapses (sixtieths n parts) := by
  induction parts generalizing n with
  | nil => exact .ok n
  | cons part parts ih => exact .bind_never (wholeIn_never .ten part) fun _ => ih _

/-- A whole number without its sign lapses only when there is nothing of it. -/
theorem unsignedWhole_lapsesIn (cs : List Char) :
    LapsesIn (unsignedWhole cs) fun l => cs = [] ∧ l = .noIndex := by
  cases cs with
  | nil => exact (LapsesIn.lapse .noIndex).congr fun l => by simp only [true_and]
  | cons c rest =>
    have never : NeverLapses (unsignedWhole (c :: rest)) := by
      unfold unsignedWhole
      split
      · contradiction
      · exact .ok 0
      · exact wholeIn_never .two _
      · exact wholeIn_never .sixteen _
      · exact wholeIn_never .eight _
      · split
        · exact sixtieths_never _ 0
        · exact wholeIn_never .ten _
    exact never.of_never fun _ hl => List.cons_ne_nil c rest hl.1

theorem signThen_lapsesIn (cs : List Char) :
    LapsesIn (signThen cs) fun l => cs = [] ∧ l = .noIndex := by
  cases cs with
  | nil => exact (LapsesIn.lapse .noIndex).congr fun l => by simp only [true_and]
  | cons c rest => exact (LapsesIn.ok _).of_never fun _ hl => List.cons_ne_nil c rest hl.1

/-- What follows the sign is nothing only after a lone sign. -/
theorem signThen_nil_iff (cs : List Char) :
    (∃ negative, signThen cs = .ok (negative, [])) ↔ cs = ['-'] ∨ cs = ['+'] := by
  cases cs with
  | nil => simp [signThen]
  | cons c rest =>
    by_cases hsign : c = '-' ∨ c = '+'
    · rcases hsign with rfl | rfl <;> simp [signThen]
    · have hc := not_or.mp hsign
      simp [signThen, hc.1, hc.2]

theorem wholeValue_lapsesIn (cs : List Char) : LapsesIn (wholeValue cs) (TextLapse .whole cs) := by
  have chain := (signThen_lapsesIn (cs.filter (· ≠ '_'))).bind fun signed _ =>
    (unsignedWhole_lapsesIn signed.2).bind_left fun n _ =>
      LapsesIn.ok (if signed.1 then -n else n)
  refine LapsesIn.congr chain fun l => ⟨?_, ?_⟩
  · intro h
    rcases h with ⟨hnil, rfl⟩ | ⟨⟨negative, unsigned⟩, hsign, rfl, rfl⟩
    · exact .whole (by rw [hnil]; exact List.mem_cons_self)
    · have hlone := (signThen_nil_iff _).mp ⟨negative, hsign⟩
      exact .whole (List.mem_cons_of_mem _ (by rcases hlone with h | h <;> rw [h] <;> simp))
  · intro hlapse
    cases hlapse with
    | whole hbare =>
    rcases List.mem_cons.mp hbare with hnil | hlone
    · exact .inl ⟨hnil, rfl⟩
    · have hlone : cs.filter (· ≠ '_') = ['-'] ∨ cs.filter (· ≠ '_') = ['+'] :=
        (List.mem_cons.mp hlone).imp_right List.mem_singleton.mp
      obtain ⟨negative, hsign⟩ := (signThen_nil_iff _).mpr hlone
      exact .inr ⟨(negative, []), hsign, rfl, rfl⟩

/-! ## Floating-point numbers -/

/-- The weight of the place after the most places is infinite. -/
theorem exists_infinite_mostPlaces :
    ∃ s, Number.Binary64.ofInt (60 ^ mostPlaces) = .infinite s := by
  refine ⟨false, ?_⟩
  decide +kernel

theorem finite_place {i : Nat} (hi : i < mostPlaces) (s : Bool) :
    Number.Binary64.ofInt (60 ^ i) ≠ .infinite s := by
  have all : ((List.range mostPlaces).all fun i => decide (∀ s : Bool,
      Number.Binary64.ofInt (60 ^ i) ≠ .infinite s)) = true := by decide +kernel
  exact of_decide_eq_true (List.all_eq_true.mp all i (List.mem_range.mpr hi)) s

/-- The sum lapses when it comes to a place whose weight is infinite. -/
theorem sumSixtieths_lapsesIn (xs : List Number.Binary64) (sum : Number.Binary64) {i : Nat}
    (hi : i ≤ mostPlaces) :
    LapsesIn (sumSixtieths sum (60 ^ i) xs) fun l => mostPlaces < i + xs.length ∧ l = .tooLarge := by
  induction xs generalizing sum i with
  | nil =>
    apply (LapsesIn.ok sum).of_never
    intro l h
    exact absurd hi (Nat.not_le.mpr h.1)
  | cons x xs ih =>
    by_cases hmost : i = mostPlaces
    · subst hmost
      obtain ⟨s, hs⟩ := exists_infinite_mostPlaces
      unfold sumSixtieths
      rw [hs]
      refine (LapsesIn.lapse .tooLarge).congr fun l => ?_
      simp only [List.length_cons, Nat.lt_add_right_iff_pos, Nat.zero_lt_succ, true_and]
    · have hlt : i < mostPlaces := Nat.lt_of_le_of_ne hi hmost
      unfold sumSixtieths
      split
      · next s hs => exact absurd hs (finite_place hlt s)
      · rw [show (60 : Int) ^ i * 60 = 60 ^ (i + 1) from rfl]
        refine (ih _ hlt).congr fun l => ?_
        rw [List.length_cons, Nat.succ_add_eq_add_succ]

theorem decimalIn_never (cs : List Char) : NeverLapses (decimalIn cs) := by
  unfold decimalIn
  split
  · exact .ok _
  · exact .error rfl

theorem mapM_decimalIn_never (parts : List (List Char)) : NeverLapses (parts.mapM decimalIn) := by
  induction parts with
  | nil => exact .ok []
  | cons part parts ih =>
    rw [List.mapM_cons]
    exact .bind_never (decimalIn_never part) fun _ => .bind_never ih fun _ => .ok _

theorem decimalIn_eq_ok {cs : List Char} {x : Number.Binary64} :
    decimalIn cs = .ok x ↔ Number.readDecimal? cs = some x := by
  unfold decimalIn
  cases Number.readDecimal? cs with
  | none => exact iff_of_false (fun h => by cases h) (fun h => by cases h)
  | some y => exact Except.ok.injEq y x ▸ Option.some.injEq y x ▸ Iff.rfl

/-- Pieces that are all read are all decimals, and give a number each. -/
theorem mapM_decimalIn_eq_ok {parts : List (List Char)} {xs : List Number.Binary64}
    (h : parts.mapM decimalIn = .ok xs) :
    xs.length = parts.length ∧ ∀ part ∈ parts, (Number.readDecimal? part).isSome = true := by
  induction parts generalizing xs with
  | nil =>
    cases h
    exact ⟨rfl, List.forall_mem_nil _⟩
  | cons part parts ih =>
    rw [List.mapM_cons] at h
    obtain ⟨x, hx, h⟩ := bind_eq_ok.mp h
    obtain ⟨xs', hxs, h⟩ := bind_eq_ok.mp h
    cases h
    obtain ⟨hlength, hall⟩ := ih hxs
    refine ⟨congrArg (· + 1) hlength, fun p hp => ?_⟩
    rcases List.mem_cons.mp hp with rfl | hp
    · rw [decimalIn_eq_ok.mp hx, Option.isSome_some]
    · exact hall p hp

theorem exists_mapM_decimalIn {parts : List (List Char)}
    (h : ∀ part ∈ parts, (Number.readDecimal? part).isSome = true) :
    ∃ xs, parts.mapM decimalIn = .ok xs := by
  induction parts with
  | nil => exact ⟨[], rfl⟩
  | cons part parts ih =>
    obtain ⟨x, hx⟩ := Option.isSome_iff_exists.mp (h part List.mem_cons_self)
    obtain ⟨xs, hxs⟩ := ih fun p hp => h p (List.mem_cons_of_mem part hp)
    refine ⟨x :: xs, ?_⟩
    rw [List.mapM_cons, decimalIn_eq_ok.mpr hx, hxs]
    rfl

theorem lower_eq_nil_iff {cs : List Char} : Text.lower cs = [] ↔ cs = [] := by
  cases cs with
  | nil => exact iff_of_true rfl rfl
  | cons c cs =>
    refine iff_of_false (fun h => ?_) (List.cons_ne_nil c cs)
    have hsmall := (List.append_eq_nil_iff.mp h).1
    split at hsmall
    · cases hsmall
    · split at hsmall <;> cases hsmall

/-- A number in base sixty has a colon, so it is none of the words for special numbers. -/
theorem mem_colon_of_mostPlaces_lt {unsigned : List Char}
    (hlong : mostPlaces < (unsigned.splitOn ':').length) : ':' ∈ unsigned := by
  by_contra hnot
  rw [List.splitOn_eq_singleton hnot, List.length_singleton] at hlong
  exact absurd hlong (by decide)

theorem placesSum_lapsesIn (unsigned : List Char) (f : Number.Binary64 → Number.Binary64) :
    LapsesIn (do
        let parts ← (unsigned.splitOn ':').mapM decimalIn
        return f (← sumSixtieths (.zero false) 1 parts.reverse))
      fun l => IsOverlong unsigned ∧ l = .tooLarge := by
  have chain := (mapM_decimalIn_never (unsigned.splitOn ':')).bind_right fun parts =>
    (sumSixtieths_lapsesIn parts.reverse (.zero false) (Nat.zero_le mostPlaces)).bind_left
      fun x _ => LapsesIn.ok (f x)
  refine LapsesIn.congr chain fun l => ⟨?_, ?_⟩
  · intro h
    obtain ⟨parts, hparts, hlong, rfl⟩ := h
    obtain ⟨hlength, hall⟩ := mapM_decimalIn_eq_ok hparts
    rw [Nat.zero_add, List.length_reverse, hlength] at hlong
    exact ⟨⟨hall, hlong⟩, rfl⟩
  · intro h
    obtain ⟨⟨hall, hlong⟩, rfl⟩ := h
    obtain ⟨parts, hparts⟩ := exists_mapM_decimalIn hall
    refine ⟨parts, hparts, ?_, rfl⟩
    rwa [Nat.zero_add, List.length_reverse, (mapM_decimalIn_eq_ok hparts).1]

theorem realValue_lapsesIn (place : Nat) (cs : List Char) :
    LapsesIn (realValue place cs) (TextLapse (.real place) cs) := by
  unfold realValue
  refine LapsesIn.congr (LapsesIn.bind (M := fun signed l => IsOverlong signed.2 ∧ l = .tooLarge)
    (signThen_lapsesIn _) ?_) fun l => ⟨?_, ?_⟩
  · rintro ⟨negative, unsigned⟩ -
    dsimp only
    have short {x : Except Failure Number.Binary64} (hx : NeverLapses x) (h : ':' ∉ unsigned) :
        LapsesIn x fun l => IsOverlong unsigned ∧ l = .tooLarge :=
      hx.of_never fun _ hl => h (mem_colon_of_mostPlaces_lt hl.1.2)
    split
    · next hword => exact short (.ok _) (by rw [hword]; decide)
    · split
      · next hword => exact short (.ok _) (by rw [hword]; decide)
      · split
        · exact placesSum_lapsesIn unsigned _
        · next hcolon =>
          refine short (.bind_never (decimalIn_never unsigned) fun _ => .ok _) fun h => hcolon ?_
          exact List.contains_iff_mem.mpr h
  · intro h
    rcases h with ⟨hnil, rfl⟩ | ⟨⟨negative, unsigned⟩, hsign, hlong, rfl⟩
    · exact .real (lower_eq_nil_iff.mp hnil)
    · exact .places hsign hlong
  · intro hlapse
    cases hlapse with
    | real hempty => exact .inl ⟨lower_eq_nil_iff.mpr hempty, rfl⟩
    | places hsign hlong => exact .inr ⟨(_, _), hsign, hlong, rfl⟩

theorem bytesValue_never (cs : List Char) : NeverLapses (bytesValue cs) := by
  unfold bytesValue
  split
  · split
    · exact .ok _
    · exact .error rfl
  · exact .error rfl

/-! ## Times -/

theorem timeValue_lapsesIn (cs : List Char) : LapsesIn (timeValue cs) (TextLapse .time cs) := by
  unfold timeValue
  split
  · next hform =>
    apply (LapsesIn.lapse .noAttribute).congr
    intro l
    constructor
    · rintro rfl
      exact .time hform
    · intro hl
      cases hl
      rfl
  · next t hform =>
    apply (Answered.mapError fun _ => rfl).neverLapses.of_never
    intro l hl
    cases hl with
    | time hnone => cases hform.symm.trans hnone

/-! ## All tags -/

/-- The value of a scalar lapses exactly for the texts that have no answer. -/
theorem scalarValue_lapsesIn (tag : Tag) (cs : List Char) :
    LapsesIn (scalarValue tag cs) (TextLapse tag cs) := by
  cases tag with
  | flag => exact (flagValue_lapsesIn cs).map
  | whole => exact (wholeValue_lapsesIn cs).map
  | real place => exact (realValue_lapsesIn place cs).map
  | time => exact timeValue_lapsesIn cs
  | null => exact (LapsesIn.ok _).of_never fun _ hl => by cases hl
  | text => exact (LapsesIn.ok _).of_never fun _ hl => by cases hl
  | binary => exact (bytesValue_never cs).map.of_never fun _ hl => by cases hl
  | _ => exact (LapsesIn.error rfl).of_never fun _ hl => by cases hl

end OpeningHand.Yaml
