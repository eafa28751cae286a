import Mathlib.Data.List.Induction
import Mathlib.Data.List.Nodup

/-!
# Items once each

Dropping the repeated items of a list keeps every item at its first place. A further item is new or
changes nothing, which is how the laws are used: by induction on the last item.
-/

namespace OpeningHand

variable {α β : Type} [DecidableEq α] [DecidableEq β]

theorem eraseDups_concat (names : List α) (name : α) :
    (names ++ [name]).eraseDups =
      if name ∈ names then names.eraseDups else names.eraseDups ++ [name] := by
  rw [List.eraseDups_append, List.removeAll]
  split
  next h => simp [h]
  next h => simp [h, List.eraseDups_cons]

theorem nodup_eraseDups (names : List α) : names.eraseDups.Nodup := by
  induction names using List.reverseRecOn with
  | nil => exact List.nodup_nil
  | append_singleton names name ih =>
    rw [eraseDups_concat]
    split
    next => exact ih
    next h =>
      rw [← List.concat_eq_append]
      exact .concat (mt List.mem_eraseDups.mp h) ih

theorem eraseDups_map {f : α → β} (injective : Function.Injective f) (xs : List α) :
    (xs.map f).eraseDups = xs.eraseDups.map f := by
  induction xs using List.reverseRecOn with
  | nil => rfl
  | append_singleton xs x ih =>
    rw [List.map_append, List.map_singleton, eraseDups_concat, eraseDups_concat, ih]
    have himage : f x ∈ xs.map f ↔ x ∈ xs := List.mem_map_of_injective injective
    by_cases hmem : x ∈ xs
    · rw [if_pos hmem, if_pos (himage.mpr hmem)]
    · rw [if_neg hmem, if_neg (mt himage.mp hmem), List.map_append, List.map_singleton]

end OpeningHand
