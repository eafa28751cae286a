import Mathlib.Tactic.SplitIfs

/-!
# Lookups in lists of pairs

Stores of options and disks hold their contents as lists of pairs, of which the first with a key
counts. These laws say what is looked up after a pair was put in front or in place, the values under
one key were changed, or pairs got other keys.
-/

namespace OpeningHand

variable {α β : Type} [BEq α] [LawfulBEq α]

theorem mem_of_lookup {key : α} {b : β} {es : List (α × β)} (h : es.lookup key = some b) :
    (key, b) ∈ es := by
  obtain ⟨before, after, rfl, -⟩ := List.lookup_eq_some_iff.mp h
  exact List.mem_append_right before List.mem_cons_self

variable [DecidableEq α]

theorem lookup_cons_eq (key key' : α) (b : β) (es : List (α × β)) :
    ((key', b) :: es).lookup key = if key = key' then some b else es.lookup key := by
  rw [List.lookup_cons]
  by_cases h : key = key'
  · rw [if_pos h, beq_iff_eq.mpr h]
  · rw [if_neg h, beq_eq_false_iff_ne.mpr h]

/-- A value that is put where its key stands, or else at the end, is looked up under its key, and
nothing else changes. -/
theorem lookup_put (put : List (α × β) → List (α × β)) {key : α} {b : β}
    (hnil : put [] = [(key, b)])
    (hcons : ∀ key' b' es, put ((key', b') :: es) =
      if key' = key then (key, b) :: es else (key', b') :: put es)
    (es : List (α × β)) (key' : α) :
    (put es).lookup key' = if key' = key then some b else es.lookup key' := by
  induction es with
  | nil => rw [hnil, lookup_cons_eq]
  | cons e es ih =>
    obtain ⟨there, b'⟩ := e
    rw [hcons]
    by_cases hthere : there = key
    · rw [if_pos hthere, lookup_cons_eq, lookup_cons_eq, hthere]
      split_ifs <;> rfl
    · rw [if_neg hthere, lookup_cons_eq, lookup_cons_eq, ih]
      by_cases h : key' = there
      · rw [if_pos h, if_pos h, if_neg (h ▸ hthere)]
      · rw [if_neg h, if_neg h]

/-- Values under one key that are changed alike are looked up changed, and nothing else changes. -/
theorem lookup_map_at (key key' : α) (f : β → β) (es : List (α × β)) :
    (es.map fun e => if e.1 = key then (e.1, f e.2) else e).lookup key' =
      (es.lookup key').map fun b => if key' = key then f b else b := by
  induction es with
  | nil => rfl
  | cons e es ih =>
    obtain ⟨there, b⟩ := e
    have hentry : (if there = key then (there, f b) else (there, b)) =
        (there, if there = key then f b else b) := by split_ifs <;> rfl
    rw [List.map_cons, hentry, lookup_cons_eq, lookup_cons_eq, ih]
    by_cases h : key' = there
    · rw [if_pos h, if_pos h, h, Option.map_some]
    · rw [if_neg h, if_neg h]

variable {to? : α → Option α} {key : α}

/-- Pairs get other keys or go. What only the pairs under one key get is looked up there as it was
under that key. -/
theorem lookup_relocate {former : α} (from' : ∀ k, to? k = some key ↔ k = former)
    (es : List (α × β)) :
    (es.filterMap fun e => (to? e.1).map fun k => (k, e.2)).lookup key = es.lookup former := by
  induction es with
  | nil => rfl
  | cons e es ih =>
    obtain ⟨there, b⟩ := e
    rw [lookup_cons_eq]
    cases hto : to? there with
    | none =>
      have hother : former ≠ there := by
        rintro rfl
        cases hto.symm.trans ((from' former).mpr rfl)
      rw [List.filterMap_cons_none (by rw [hto]; rfl), ih, if_neg hother]
    | some k =>
      rw [List.filterMap_cons_some (b := (k, b)) (by rw [hto]; rfl), lookup_cons_eq, ih]
      by_cases hthere : there = former
      · have hkey : k = key := Option.some.inj (hto.symm.trans ((from' there).mpr hthere))
        rw [if_pos hkey.symm, if_pos hthere.symm]
      · have hkey : key ≠ k := fun h => hthere ((from' there).mp (h ▸ hto))
        rw [if_neg hkey, if_neg (Ne.symm hthere)]

/-- A key that no pair gets leads to nothing. -/
theorem lookup_relocate_none (unused : ∀ k, to? k ≠ some key) (es : List (α × β)) :
    (es.filterMap fun e => (to? e.1).map fun k => (k, e.2)).lookup key = none := by
  induction es with
  | nil => rfl
  | cons e es ih =>
    obtain ⟨there, b⟩ := e
    cases hto : to? there with
    | none => rw [List.filterMap_cons_none (by rw [hto]; rfl), ih]
    | some k =>
      have hkey : key ≠ k := fun h => unused there (h ▸ hto)
      rw [List.filterMap_cons_some (b := (k, b)) (by rw [hto]; rfl), lookup_cons_eq, if_neg hkey,
        ih]

end OpeningHand
