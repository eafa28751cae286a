import OpeningHand.Text.Quoted

/-!
# Points of texts

A text as a program holds it is a row of code points, and not every code point is a character: one
half of a surrogate pair may stand alone. An escape in a document can ask for one. `Point` is such a
place of a text, `points` takes a text of characters apart, and `ofPoints?` puts it together again if
every place holds a character.

A half is no blank, no parenthesis, no digit and no sign, so reading a text treats it as any other
character of a word. `shown` puts the replacement character in its place, which is none of these
either.
-/

namespace OpeningHand.Text

/-- A place of a text: a character, or half of a surrogate pair that stands alone, told by its number
among the surrogates. -/
inductive Point where
  | char (c : Char)
  | half (n : Fin 0x800)
  deriving Repr, DecidableEq

namespace Point

/-- The first of the surrogates. -/
def firstHalf : Nat := 0xd800

/-- The point with a number. -/
def ofNat (n : Nat) : Point :=
  if h : firstHalf ≤ n ∧ n - firstHalf < 0x800 then .half ⟨n - firstHalf, h.2⟩
  else .char (Char.ofNat n)

/-- A point that is a character. -/
def isChar : Point → Bool
  | .char _ => true
  | .half _ => false

/-- The character at a point, if there is one. -/
def char? : Point → Option Char
  | .char c => some c
  | .half _ => none

/-- The character that stands for a point where only characters do. -/
def shown : Point → Char
  | .char c => c
  | .half _ => '\ufffd'

/-- A point inside quotes; a half is written by its number. -/
def quoted (quote : Char) : Point → List Char
  | .char c => quotedChar quote c
  | .half n => escapedByNumber (firstHalf + n)

end Point

/-- The points of a text. -/
def points (s : String) : List Point :=
  s.toList.map .char

/-- The characters that points are, if all of them are. -/
def chars? (ps : List Point) : Option (List Char) :=
  ps.mapM Point.char?

/-- The text that points make, if all of them are characters. -/
def ofPoints? (ps : List Point) : Option String :=
  (chars? ps).map String.ofList

/-- Points as a text, with the replacement character for every half. -/
def shown (ps : List Point) : String :=
  String.ofList (ps.map Point.shown)

/-- Points between quotes, readable on one line. -/
def quotedPoints (ps : List Point) : List Char :=
  let quote := quoteFor (ps.map Point.shown)
  quote :: (ps.flatMap (Point.quoted quote) ++ [quote])

/-! ## Texts of characters -/

theorem chars?_eq_some_iff {ps : List Point} {cs : List Char} :
    chars? ps = some cs ↔ ps = cs.map .char := by
  induction ps generalizing cs with
  | nil => cases cs <;> simp [chars?]
  | cons p ps ih =>
    rw [chars?, List.mapM_cons]
    cases p with
    | half n => cases cs <;> simp [Point.char?]
    | char c =>
      cases hps : ps.mapM Point.char? with
      | none =>
        have hno (ds : List Char) : ps ≠ ds.map .char := fun h => by
          cases hps.symm.trans (ih.mpr h)
        cases cs <;> simp [Point.char?, hno]
      | some ds =>
        obtain rfl := ih.mp hps
        cases cs <;> simp [Point.char?, List.map_inj_right]

@[simp] theorem chars?_map_char (cs : List Char) : chars? (cs.map .char) = some cs :=
  chars?_eq_some_iff.mpr rfl

/-- Points are all characters exactly if they are those of a text. -/
theorem ofPoints?_eq_some_iff {ps : List Point} {s : String} :
    ofPoints? ps = some s ↔ ps = points s := by
  rw [ofPoints?, Option.map_eq_some_iff]
  constructor
  · rintro ⟨cs, hcs, rfl⟩
    rw [points, String.toList_ofList]
    exact chars?_eq_some_iff.mp hcs
  · intro h
    exact ⟨s.toList, chars?_eq_some_iff.mpr h, String.ofList_toList⟩

@[simp] theorem shown_points (s : String) : shown (points s) = s := by
  rw [shown, points, List.map_map]
  exact (congrArg String.ofList (List.map_id _)).trans String.ofList_toList

theorem points_injective {s t : String} (h : points s = points t) : s = t := by
  rw [← shown_points s, h, shown_points]

/-- Characters are quoted as points of a text as they are by themselves. -/
theorem quotedPoints_map_char (cs : List Char) : quotedPoints (cs.map .char) = quoted cs := by
  have hshown : (cs.map Point.char).map Point.shown = cs := by
    rw [List.map_map]
    exact List.map_id cs
  rw [quotedPoints, hshown, List.flatMap_map]
  rfl

/-- Points are those of a text exactly if every one is a character. -/
theorem eq_points_iff {ps : List Point} : (∃ s, ps = points s) ↔ ∀ p ∈ ps, p.isChar = true := by
  constructor
  · rintro ⟨s, rfl⟩ p hp
    obtain ⟨c, -, rfl⟩ := List.mem_map.mp hp
    rfl
  · intro h
    refine ⟨shown ps, ?_⟩
    rw [points, shown, String.toList_ofList, List.map_map]
    refine (List.map_congr_left fun p hp => ?_).trans (List.map_id ps) |>.symm
    cases p with
    | char c => rfl
    | half n => cases h _ hp

/-- Characters make a text. -/
theorem ofPoints?_eq_some {ps : List Point} (h : ∀ p ∈ ps, p.isChar = true) :
    ofPoints? ps = some (shown ps) := by
  obtain ⟨s, rfl⟩ := eq_points_iff.mpr h
  rw [ofPoints?_eq_some_iff, shown_points]

/-- Points that are not all characters make no text. -/
theorem ofPoints?_eq_none {ps : List Point} (h : ∃ p ∈ ps, p.isChar = false) :
    ofPoints? ps = none := by
  rw [Option.eq_none_iff_forall_ne_some]
  rintro s hs
  obtain ⟨p, hp, half⟩ := h
  rw [eq_points_iff.mp ⟨s, ofPoints?_eq_some_iff.mp hs⟩ p hp] at half
  cases half

end OpeningHand.Text
