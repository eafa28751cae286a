import Mathlib.Data.List.Dedup
import Mathlib.Data.List.Induction
import OpeningHand.Data

/-!
# Entries put one after the other

What is left of entries when they are put one after the other under their keys. Every key is left
once, as it was written first, with the value that was written last (`mem_ofList_iff`). Entries are
all left as they are if no two of them have equal keys (`ofList_eq_self`); otherwise some are lost,
since no key is left twice (`nodup_keys_ofList`), and nothing tells which.
-/

namespace OpeningHand.Entries

variable {β : Type} {k k' : Scalar} {v : β} {e : Scalar × β} {es fs : Entries β}

/-- The keys of entries, in order, as they are compared. -/
def keys (es : Entries β) : List Scalar.Key := es.map (·.1.key)

@[simp]
theorem keys_nil : keys ([] : Entries β) = [] := rfl

@[simp]
theorem keys_cons (e : Scalar × β) (es : Entries β) : keys (e :: es) = e.1.key :: keys es := rfl

@[simp]
theorem keys_append (es fs : Entries β) : keys (es ++ fs) = keys es ++ keys fs :=
  List.map_append

theorem key_mem_keys (h : e ∈ es) : e.1.key ∈ keys es :=
  List.mem_map_of_mem h

/-- A key as it was written first among entries. -/
def First (k : Scalar) (es : Entries β) : Prop :=
  ∃ before v after, es = before ++ (k, v) :: after ∧ k.key ∉ keys before

/-! ## Looking up -/

theorem get?_eq_none_iff : get? k es = none ↔ k.key ∉ keys es := by
  induction es with
  | nil => simp [get?]
  | cons e es ih =>
    obtain ⟨k', v⟩ := e
    by_cases hk : k'.key = k.key
    · simp [get?, hk]
    · simp [get?, hk, ih, Ne.symm hk]

theorem get?_append (es fs : Entries β) : get? k (es ++ fs) = (get? k es).or (get? k fs) := by
  induction es with
  | nil => rfl
  | cons e es ih =>
    obtain ⟨k', v⟩ := e
    by_cases hk : k'.key = k.key
    · simp [get?, hk]
    · simp [get?, hk, ih]

theorem get?_congr (h : k.key = k'.key) : get? k es = get? k' es := by
  induction es with
  | nil => rfl
  | cons e es ih => rw [get?, get?, h, ih]

/-- What is found stands among the entries under an equal key. -/
theorem exists_mem_of_get? (h : get? k es = some v) : ∃ k', (k', v) ∈ es ∧ k'.key = k.key := by
  induction es with
  | nil => cases h
  | cons e es ih =>
    obtain ⟨k', v'⟩ := e
    rw [get?] at h
    split at h
    next hk =>
      cases h
      exact ⟨k', List.mem_cons_self, hk⟩
    next =>
      obtain ⟨k'', hmem, hk⟩ := ih h
      exact ⟨k'', List.mem_cons_of_mem _ hmem, hk⟩

/-- Where no two keys are equal, every entry is found under its key. -/
theorem get?_of_mem (distinct : (keys es).Nodup) (h : (k, v) ∈ es) : get? k es = some v := by
  induction es with
  | nil => cases h
  | cons e es ih =>
    rw [keys_cons, List.nodup_cons] at distinct
    obtain ⟨fresh, distinct⟩ := distinct
    rcases List.mem_cons.mp h with rfl | hmem
    · exact if_pos rfl
    · have hne : e.1.key ≠ k.key := fun heq => fresh (heq ▸ key_mem_keys hmem)
      rw [get?, if_neg hne]
      exact ih distinct hmem

/-! ## Putting -/

theorem put_of_not_mem (h : k.key ∉ keys es) : put k v es = es ++ [(k, v)] := by
  induction es with
  | nil => rfl
  | cons e es ih =>
    obtain ⟨hne, hrest⟩ := List.ne_and_not_mem_of_not_mem_cons h
    rw [put, if_neg (Ne.symm hne), ih hrest, List.cons_append]

theorem map_fst_put_of_mem (h : k.key ∈ keys es) : (put k v es).map Prod.fst = es.map Prod.fst := by
  induction es with
  | nil => cases h
  | cons e es ih =>
    rw [put]
    split
    next => rfl
    next hne =>
      have hrest := (List.mem_cons.mp h).resolve_left (Ne.symm hne)
      rw [List.map_cons, List.map_cons, ih hrest]

theorem keys_eq_map (es : Entries β) : keys es = (es.map Prod.fst).map Scalar.key :=
  (List.map_map (g := Scalar.key) (f := Prod.fst)).symm

theorem keys_put_of_mem (h : k.key ∈ keys es) : keys (put k v es) = keys es := by
  rw [keys_eq_map, keys_eq_map, map_fst_put_of_mem h]

theorem get?_put : get? k' (put k v es) = if k.key = k'.key then some v else get? k' es := by
  induction es with
  | nil => rfl
  | cons e es ih =>
    rw [put]
    split
    next hput =>
      rw [get?, get?, hput]
      split <;> rfl
    next hput =>
      rw [get?, get?, ih]
      split
      next hk => rw [if_neg fun h => hput (hk.trans h.symm)]
      next => rfl

/-! ## Putting all -/

theorem ofList_concat (es : Entries β) (e : Scalar × β) :
    ofList (es ++ [e]) = put e.1 e.2 (ofList es) := by
  rw [ofList, List.foldl_append]
  rfl

/-- Under every key stands the value that was written last. -/
theorem get?_ofList (es : Entries β) : get? k (ofList es) = get? k es.reverse := by
  induction es using List.reverseRecOn with
  | nil => rfl
  | append_singleton es e ih =>
    rw [ofList_concat, get?_put, List.reverse_append, List.reverse_singleton,
      List.singleton_append, get?, ih]

theorem mem_keys_ofList {key : Scalar.Key} : key ∈ keys (ofList es) ↔ key ∈ keys es := by
  induction es using List.reverseRecOn with
  | nil => rfl
  | append_singleton es e ih =>
    rw [ofList_concat, keys_append, List.mem_append, ← ih]
    by_cases hmem : e.1.key ∈ keys (ofList es)
    · rw [keys_put_of_mem hmem, keys_cons, keys_nil, List.mem_singleton]
      exact (or_iff_left_of_imp fun h => h ▸ hmem).symm
    · rw [put_of_not_mem hmem, keys_append, List.mem_append]

/-- No two keys are equal once all entries are put. -/
theorem nodup_keys_ofList (es : Entries β) : (keys (ofList es)).Nodup := by
  induction es using List.reverseRecOn with
  | nil => exact List.nodup_nil
  | append_singleton es e ih =>
    rw [ofList_concat]
    by_cases hmem : e.1.key ∈ keys (ofList es)
    · rwa [keys_put_of_mem hmem]
    · rw [put_of_not_mem hmem, keys_append]
      rw [keys_cons, keys_nil, ← List.concat_eq_append]
      exact .concat hmem ih

/-- Every key is left once. -/
theorem length_ofList (es : Entries β) : (ofList es).length = (keys es).dedup.length := by
  have hperm : (keys (ofList es)).Perm (keys es).dedup :=
    (List.perm_ext_iff_of_nodup (nodup_keys_ofList es) (List.nodup_dedup _)).mpr fun key => by
      rw [mem_keys_ofList, List.mem_dedup]
  rw [← hperm.length_eq, keys, List.length_map]

theorem ofList_eq_self (distinct : (keys es).Nodup) : ofList es = es := by
  induction es using List.reverseRecOn with
  | nil => rfl
  | append_singleton es e ih =>
    rw [keys_append] at distinct
    obtain ⟨hes, -, hfresh⟩ := List.nodup_append.mp distinct
    rw [ofList_concat, ih hes, put_of_not_mem]
    intro hmem
    exact hfresh _ hmem _ List.mem_cons_self rfl

theorem first_cons_iff : First k (e :: es) ↔ k = e.1 ∨ e.1.key ≠ k.key ∧ First k es := by
  constructor
  · rintro ⟨before, v, after, heq, hfresh⟩
    cases before with
    | nil =>
      cases heq
      exact .inl rfl
    | cons f before =>
      obtain ⟨rfl, rfl⟩ := List.cons.inj heq
      obtain ⟨hne, hfresh⟩ := List.ne_and_not_mem_of_not_mem_cons hfresh
      exact .inr ⟨hne.symm, before, v, after, rfl, hfresh⟩
  · rintro (rfl | ⟨hne, before, v, after, rfl, hfresh⟩)
    · exact ⟨[], e.2, es, rfl, List.not_mem_nil⟩
    · exact ⟨e :: before, v, after, rfl, List.not_mem_cons_of_ne_of_not_mem hne.symm hfresh⟩

theorem first_concat_iff : First k (es ++ [e]) ↔ First k es ∨ k = e.1 ∧ k.key ∉ keys es := by
  induction es with
  | nil =>
    rw [List.nil_append, first_cons_iff]
    refine ⟨?_, ?_⟩
    · rintro (rfl | ⟨-, before, v, after, heq, -⟩)
      · exact .inr ⟨rfl, List.not_mem_nil⟩
      · exact absurd heq (by simp)
    · rintro (⟨before, v, after, heq, -⟩ | ⟨rfl, -⟩)
      · exact absurd heq (by simp)
      · exact .inl rfl
  | cons f es ih =>
    rw [List.cons_append, first_cons_iff, first_cons_iff, ih, keys_cons, List.mem_cons, not_or]
    constructor
    · rintro (rfl | ⟨hne, hfirst | ⟨rfl, hfresh⟩⟩)
      · exact .inl (.inl rfl)
      · exact .inl (.inr ⟨hne, hfirst⟩)
      · exact .inr ⟨rfl, hne.symm, hfresh⟩
    · rintro ((rfl | ⟨hne, hfirst⟩) | ⟨rfl, hne, hfresh⟩)
      · exact .inl rfl
      · exact .inr ⟨hne, .inl hfirst⟩
      · exact .inr ⟨Ne.symm hne, .inr ⟨rfl, hfresh⟩⟩

/-- A key is left as it was written first. -/
theorem mem_map_fst_ofList_iff : k ∈ (ofList es).map Prod.fst ↔ First k es := by
  induction es using List.reverseRecOn with
  | nil =>
    refine iff_of_false List.not_mem_nil ?_
    rintro ⟨before, v, after, heq, -⟩
    exact absurd heq (by simp)
  | append_singleton es e ih =>
    rw [ofList_concat, first_concat_iff, ← ih]
    by_cases hmem : e.1.key ∈ keys (ofList es)
    · rw [map_fst_put_of_mem hmem]
      refine (or_iff_left_of_imp ?_).symm
      rintro ⟨rfl, hfresh⟩
      exact absurd (mem_keys_ofList.mp hmem) hfresh
    · rw [put_of_not_mem hmem, List.map_append, List.mem_append, List.map_singleton,
        List.mem_singleton]
      refine or_congr_right ⟨?_, And.left⟩
      rintro rfl
      exact ⟨rfl, fun h => hmem (mem_keys_ofList.mpr h)⟩

/-- What is left: the keys written first, each with the value written last under it. -/
theorem mem_ofList_iff :
    (k, v) ∈ ofList es ↔ First k es ∧ get? k es.reverse = some v := by
  rw [← mem_map_fst_ofList_iff, ← get?_ofList]
  have found {w : β} (hw : (k, w) ∈ ofList es) : get? k (ofList es) = some w :=
    get?_of_mem (nodup_keys_ofList es) hw
  constructor
  · intro h
    exact ⟨List.mem_map_of_mem h, found h⟩
  · rintro ⟨hk, hv⟩
    obtain ⟨⟨_, w⟩, hw, rfl⟩ := List.mem_map.mp hk
    rw [found hw] at hv
    cases hv
    exact hw

end OpeningHand.Entries
