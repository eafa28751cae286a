import OpeningHand.Outline
import OpeningHand.Proofs.Data.Intact

/-!
# The data of an outline

What a document says if it is read as it was written: the data of the outline that was written.
Entries of maps have no order that counts, so data is compared up to the order of entries at every
level (`Data.Same`). Sorting an outline changes nothing but that order, and forgets the order that
the entries had: outlines whose entries have distinct names and differ by their order alone are
sorted alike.
-/

namespace OpeningHand

/-- Data that is equal up to the order of the entries of maps, at every level. -/
inductive Data.Same : Data → Data → Prop where
  | scalar (s : Scalar) : Same (.scalar s) (.scalar s)
  | torn (points : List Text.Point) : Same (.torn points) (.torn points)
  | list {items items' : List Data} (each : List.Forall₂ Same items items') :
      Same (.list items) (.list items')
  | set (members : List Scalar) : Same (.set members) (.set members)
  | map {es between es' : Entries Data} (order : es.Perm between)
      (names : between.map Prod.fst = es'.map Prod.fst)
      (values : List.Forall₂ Same (between.map Prod.snd) (es'.map Prod.snd)) :
      Same (.map es) (.map es')

namespace Data.Same

variable {d : Data} {es es' : Entries Data}

/-- What is the same as a scalar is that scalar. -/
theorem eq_scalar {s : Scalar} (h : Same d (.scalar s)) : d = .scalar s := by
  cases h
  rfl

/-- A list of scalars is the same as itself only. -/
theorem eq_scalars {ss : List Scalar} (h : Same d (.list (ss.map .scalar))) :
    d = .list (ss.map .scalar) := by
  obtain ⟨items, heach, rfl⟩ :
      ∃ items, List.Forall₂ Same items (ss.map Data.scalar) ∧ d = .list items := by
    cases h with
    | list each => exact ⟨_, each, rfl⟩
  clear h
  congr 1
  induction ss generalizing items with
  | nil => exact List.forall₂_nil_right_iff.mp heach
  | cons s ss ih =>
    obtain ⟨item, rest, hitem, hrest, rfl⟩ := List.forall₂_cons_right_iff.mp heach
    rw [hitem.eq_scalar, ih rest hrest, List.map_cons]

/-- What is the same as a map is a map. -/
theorem exists_entries (h : Same d (.map es')) : ∃ es, d = .map es ∧ Same (.map es) (.map es') := by
  cases h with
  | map order names values => exact ⟨_, rfl, .map order names values⟩

/-- The entries of the same map, brought into one order, are the same one by one. -/
theorem exists_between (h : Same (.map es) (.map es')) :
    ∃ between, es.Perm between ∧
      List.Forall₂ (fun e e' => e.1 = e'.1 ∧ Same e.2 e'.2) between es' := by
  cases h with
  | @map _ between _ order names values =>
    refine ⟨between, order, ?_⟩
    clear order
    induction between generalizing es' with
    | nil =>
      obtain rfl : es' = [] := List.map_eq_nil_iff.mp names.symm
      exact .nil
    | cons e between ih =>
      obtain ⟨e', rest, rfl, hk, hrest⟩ := List.map_eq_cons_iff.mp names.symm
      obtain ⟨hsame, heach⟩ := List.forall₂_cons.mp values
      exact .cons ⟨hk.symm, hsame⟩ (ih hrest.symm heach)

/-- The same map has the same keys, perhaps in another order. -/
theorem perm_names (h : Same (.map es) (.map es')) :
    (es.map Prod.fst).Perm (es'.map Prod.fst) := by
  cases h with
  | map order names values => exact names ▸ order.map Prod.fst

/-- What is found under a key in a map is the same as what is found in the same map. -/
theorem get? {k : Scalar} {v' : Data} (h : Same (.map es) (.map es'))
    (distinct : (Entries.keys es').Nodup) (hv' : Entries.get? k es' = some v') :
    ∃ v, Entries.get? k es = some v ∧ Same v v' := by
  obtain ⟨between, order, heach⟩ := h.exists_between
  have hfound : ∃ v, Entries.get? k between = some v ∧ Same v v' := by
    clear order distinct h
    induction heach with
    | nil => cases hv'
    | @cons e e' _ _ he _ ih =>
      rw [Entries.get?, ← he.1] at hv'
      rw [Entries.get?]
      split at hv'
      next hk =>
        cases hv'
        exact ⟨e.2, if_pos hk, he.2⟩
      next hk =>
        obtain ⟨v, hv, hsame⟩ := ih hv'
        exact ⟨v, (if_neg hk).trans hv, hsame⟩
  obtain ⟨v, hv, hsame⟩ := hfound
  obtain ⟨k', hmem, hk⟩ := Entries.exists_mem_of_get? hv
  have hdistinct : (Entries.keys es).Nodup := by
    rw [Entries.keys_eq_map] at distinct ⊢
    exact (h.perm_names.map Scalar.key).nodup_iff.mpr distinct
  refine ⟨v, ?_, hsame⟩
  rw [← Entries.get?_congr hk]
  exact Entries.get?_of_mem hdistinct (order.mem_iff.mpr hmem)

mutual

/-- Data are the same as themselves. -/
protected theorem refl : ∀ d : Data, Same d d
  | .scalar s => .scalar s
  | .torn points => .torn points
  | .list items => .list (refl_each items)
  | .set members => .set members
  | .map es => .map (.refl es) rfl (refl_values es)

theorem refl_each : ∀ items : List Data, List.Forall₂ Same items items
  | [] => .nil
  | d :: items => .cons (Same.refl d) (refl_each items)

theorem refl_values : ∀ es : List (Scalar × Data),
    List.Forall₂ Same (es.map Prod.snd) (es.map Prod.snd)
  | [] => .nil
  | (_, d) :: es => .cons (Same.refl d) (refl_values es)

end

end Data.Same

namespace Outline

mutual

/-- The data of an outline. -/
def toData : Outline → Data
  | .text s => .scalar (.text s)
  | .number n => .scalar (.whole n)
  | .flag b => .scalar (.flag b)
  | .list items => .list (itemsData items)
  | .record entries => .map (entriesData entries)

/-- The data of items. -/
def itemsData : List Outline → List Data
  | [] => []
  | o :: os => o.toData :: itemsData os

/-- The data of entries. -/
def entriesData : List (String × Outline) → Entries Data
  | [] => []
  | (name, o) :: es => (.text name, o.toData) :: entriesData es

end

/-- Items one by one. -/
theorem itemsData_eq_map (os : List Outline) : itemsData os = os.map toData := by
  induction os with
  | nil => rfl
  | cons o os ih => rw [itemsData, ih, List.map_cons]

/-- Entries one by one. -/
theorem entriesData_eq_map (es : List (String × Outline)) :
    entriesData es = es.map fun e => (.text e.1, e.2.toData) := by
  induction es with
  | nil => rfl
  | cons e es ih => rw [entriesData, ih, List.map_cons]

mutual

/-- No text of an outline is torn. -/
theorem isIntact_toData : ∀ o : Outline, o.toData.isIntact = true
  | .text _ => rfl
  | .number _ => rfl
  | .flag _ => rfl
  | .list os => areIntact_itemsData os
  | .record es => holdsIntact_entriesData es

theorem areIntact_itemsData : ∀ os : List Outline, Data.areIntact (itemsData os) = true
  | [] => rfl
  | o :: os => Bool.and_eq_true_iff.mpr ⟨isIntact_toData o, areIntact_itemsData os⟩

theorem holdsIntact_entriesData : ∀ es : List (String × Outline),
    Data.holdsIntact (entriesData es) = true
  | [] => rfl
  | (_, o) :: es => Bool.and_eq_true_iff.mpr ⟨isIntact_toData o, holdsIntact_entriesData es⟩

end

/-! ## Sorting -/

/-- What is under each name is sorted by itself. -/
theorem sortedEntries_eq_map (es : List (String × Outline)) :
    sortedEntries es = es.map fun e => (e.1, e.2.sorted) := by
  induction es with
  | nil => rfl
  | cons e es ih => rw [sortedEntries, ih, List.map_cons]

mutual

/-- A sorted outline has the same data. -/
theorem same_sorted : ∀ o : Outline, o.sorted.toData.Same o.toData
  | .text s => .scalar _
  | .number n => .scalar _
  | .flag b => .scalar _
  | .list items => .list (same_sortedItems items)
  | .record entries => by
    rw [sorted, toData, toData, entriesData_eq_map]
    refine .map ((List.mergeSort_perm _ _).map _) ?_ ?_
    · rw [← entriesData_eq_map]
      exact names_sortedEntries entries
    · rw [← entriesData_eq_map]
      exact same_sortedEntries entries

theorem same_sortedItems :
    ∀ os : List Outline, List.Forall₂ Data.Same (itemsData (sortedItems os)) (itemsData os)
  | [] => .nil
  | o :: os => .cons (same_sorted o) (same_sortedItems os)

theorem same_sortedEntries : ∀ es : List (String × Outline),
    List.Forall₂ Data.Same ((entriesData (sortedEntries es)).map Prod.snd)
      ((entriesData es).map Prod.snd)
  | [] => .nil
  | (_, o) :: es => .cons (same_sorted o) (same_sortedEntries es)

/-- The names keep their order when what is under them is sorted. -/
theorem names_sortedEntries : ∀ es : List (String × Outline),
    (entriesData (sortedEntries es)).map Prod.fst = (entriesData es).map Prod.fst
  | [] => rfl
  | (name, _) :: es => congrArg (Scalar.text name :: ·) (names_sortedEntries es)

end

/-- Entries with distinct names are sorted alike, whatever their order. -/
theorem sorted_perm {es es' : List (String × Outline)} (order : es.Perm es')
    (distinct : (es.map Prod.fst).Nodup) : (record es).sorted = (record es').sorted := by
  have trans (a b c : String × Outline) (hab : decide (a.1 ≤ b.1) = true)
      (hbc : decide (b.1 ≤ c.1) = true) : decide (a.1 ≤ c.1) = true :=
    decide_eq_true (String.le_trans (of_decide_eq_true hab) (of_decide_eq_true hbc))
  have total (a b : String × Outline) : (decide (a.1 ≤ b.1) || decide (b.1 ≤ a.1)) = true := by
    simpa using String.le_total a.1 b.1
  have hsorted : (sortedEntries es).Perm (sortedEntries es') := by
    rw [sortedEntries_eq_map, sortedEntries_eq_map]
    exact order.map _
  have hnames : (sortedEntries es).map Prod.fst = es.map Prod.fst := by
    rw [sortedEntries_eq_map, List.map_map]
    rfl
  rw [sorted, sorted]
  congr 1
  refine List.Perm.eq_of_pairwise (fun a b ha hb hab hba => ?_)
    (List.pairwise_mergeSort trans total _) (List.pairwise_mergeSort trans total _)
    ((List.mergeSort_perm _ _).trans (hsorted.trans (List.mergeSort_perm _ _).symm))
  have hname : a.1 = b.1 := String.le_antisymm (of_decide_eq_true hab) (of_decide_eq_true hba)
  have hmem : b ∈ sortedEntries es := hsorted.mem_iff.mpr (List.mem_mergeSort.mp hb)
  exact List.inj_on_of_nodup_map (hnames ▸ distinct) (List.mem_mergeSort.mp ha) hmem hname

end Outline

end OpeningHand
