import OpeningHand.Document
import OpeningHand.Proofs.Data.OutlineData
import OpeningHand.Proofs.Yaml.NodeValue
import OpeningHand.Proofs.Yaml.Written.Nodes

/-!
# Values of written outlines

A document that is written for a readable record stands for the data of that record
(`load_render`). Putting entries in the order of their names keeps an outline readable and no
deeper, so a sorted document is read as well, and stands for the same data in another order
(`load_write`).
-/

namespace OpeningHand

open Yaml Yaml.Writer

/-! ## Values of nodes -/

namespace Yaml.Node

/-- Under the tag of texts, characters stand for themselves. -/
theorem scalarValue_text (s : String) : scalarValue .text s.toList = .ok (.text s) := by
  rw [scalarValue, String.ofList_toList]

/-- Names are texts, so none is a merge key or a default. -/
theorem tag_of_mem_entryNodes {es : List (String × Outline)} {p : Node × Node}
    (h : p ∈ Outline.entryNodes es) : p.1.tag = .text := by
  induction es with
  | nil => cases h
  | cons e es ih =>
    rcases List.mem_cons.mp h with rfl | h
    · rfl
    · exact ih h

/-- Names are compared as texts. -/
theorem keys_entriesData (es : List (String × Outline)) :
    Entries.keys (Outline.entriesData es) = (es.map Prod.fst).map Scalar.Key.text := by
  rw [Outline.entriesData_eq_map, Entries.keys, List.map_map, List.map_map]
  rfl

mutual

/-- The node of a readable outline stands for the outline's data. -/
theorem toData_node : ∀ o : Outline, o.Readable → o.node.toData = .ok o.toData
  | .text s, _ => toData_scalar (scalarValue_text s)
  | .number _, h => toData_scalar (scalarValue_decimalDigits h)
  | .flag b, _ => toData_scalar (scalarValue_flag b)
  | .list os, h => toData_list.mpr (toData_itemNodes os h)
  | .record es, h => by
    apply toData_plainMap _ (writes_entryNodes es h.2)
    · rw [keys_entriesData]
      exact h.1.map fun _ _ => Scalar.Key.text.inj
    · intro p hp
      rw [tag_of_mem_entryNodes hp]
      decide

theorem toData_itemNodes : ∀ os : List Outline, Outline.ReadableItems os →
    List.Forall₂ (fun n d => n.toData = .ok d) (Outline.itemNodes os) (Outline.itemsData os)
  | [], _ => .nil
  | o :: os, h => .cons (toData_node o h.1) (toData_itemNodes os h.2)

theorem writes_entryNodes : ∀ es : List (String × Outline), Outline.ReadableEntries es →
    List.Forall₂ Writes (Outline.entryNodes es) (Outline.entriesData es)
  | [], _ => .nil
  | (name, o) :: es, h =>
    .cons ⟨toData_scalar (scalarValue_text name), toData_node o h.2.1⟩ (writes_entryNodes es h.2.2)

end

end Yaml.Node

/-- What is written for a readable record is read as its data. -/
theorem Yaml.load_render {es : List (String × Outline)} (hread : (Outline.record es).Readable)
    (hne : es ≠ []) (hdepth : 2 * Outline.depthEntries es + 2 < maxWidth) :
    Yaml.load (render es) = .ok (Outline.record es).toData := by
  refine (load_eq_ok_iff_of_node (ofText_render hread.2 hne hdepth)).mpr
    ⟨Node.toData_node (.record es) hread, ?_⟩
  exact Data.isIntactBelow_of_isIntact (Outline.isIntact_toData _) _

/-! ## Sorted outlines -/

namespace Outline

/-- Entries are readable one by one. -/
theorem readableEntries_iff {es : List (String × Outline)} :
    ReadableEntries es ↔ ∀ e ∈ es, IsReadableName e.1.toList ∧ e.2.Readable := by
  induction es with
  | nil => exact iff_of_true trivial (List.forall_mem_nil _)
  | cons e es ih => rw [ReadableEntries, ih, List.forall_mem_cons, and_assoc]

theorem depthEntries_le_iff {es : List (String × Outline)} {k : Nat} :
    depthEntries es ≤ k ↔ ∀ e ∈ es, e.2.depth ≤ k := by
  induction es with
  | nil => exact iff_of_true (Nat.zero_le k) (List.forall_mem_nil _)
  | cons e es ih => rw [depthEntries, Nat.max_le, ih, List.forall_mem_cons]

/-- The entries of a sorted record. -/
def inOrder (es : List (String × Outline)) : List (String × Outline) :=
  (sortedEntries es).mergeSort fun a b => a.1 ≤ b.1

/-- Ordering by name loses no entry. -/
theorem perm_inOrder (es : List (String × Outline)) : (inOrder es).Perm (sortedEntries es) :=
  List.mergeSort_perm _ _

theorem map_fst_sortedEntries (es : List (String × Outline)) :
    (sortedEntries es).map Prod.fst = es.map Prod.fst := by
  rw [sortedEntries_eq_map, List.map_map]
  rfl

mutual

/-- Sorting keeps an outline readable. -/
theorem readable_sorted : ∀ o : Outline, o.Readable → o.sorted.Readable
  | .text _, h => h
  | .number _, h => h
  | .flag _, h => h
  | .list os, h => readable_sortedItems os h
  | .record es, h => by
    refine ⟨?_, readableEntries_iff.mpr fun e he => ?_⟩
    · refine ((perm_inOrder es).map Prod.fst).nodup_iff.mpr ?_
      rw [map_fst_sortedEntries]
      exact h.1
    · have hmem : e ∈ sortedEntries es := (perm_inOrder es).mem_iff.mp he
      exact readableEntries_iff.mp (readable_sortedEntries es h.2) e hmem

theorem readable_sortedItems : ∀ os : List Outline, ReadableItems os →
    ReadableItems (sortedItems os)
  | [], h => h
  | o :: os, h => ⟨readable_sorted o h.1, readable_sortedItems os h.2⟩

theorem readable_sortedEntries : ∀ es : List (String × Outline), ReadableEntries es →
    ReadableEntries (sortedEntries es)
  | [], h => h
  | (_, o) :: es, h => ⟨h.1, readable_sorted o h.2.1, readable_sortedEntries es h.2.2⟩

end

mutual

/-- Sorting makes an outline no deeper. -/
theorem depth_sorted_le : ∀ o : Outline, o.sorted.depth ≤ o.depth
  | .text _ => Nat.le_refl _
  | .number _ => Nat.le_refl _
  | .flag _ => Nat.le_refl _
  | .list os => Nat.succ_le_succ (depth_sortedItems_le os)
  | .record es => by
    refine Nat.succ_le_succ (depthEntries_le_iff.mpr fun e he => ?_)
    have hmem : e ∈ sortedEntries es := (perm_inOrder es).mem_iff.mp he
    exact depthEntries_le_iff.mp (depth_sortedEntries_le es) e hmem

theorem depth_sortedItems_le : ∀ os : List Outline, depthItems (sortedItems os) ≤ depthItems os
  | [] => Nat.le_refl _
  | o :: os => by
    have ho := depth_sorted_le o
    have hos := depth_sortedItems_le os
    rw [sortedItems, depthItems, depthItems]
    omega

theorem depth_sortedEntries_le : ∀ es : List (String × Outline),
    depthEntries (sortedEntries es) ≤ depthEntries es
  | [] => Nat.le_refl _
  | (_, o) :: es => by
    have ho := depth_sorted_le o
    have hes := depth_sortedEntries_le es
    rw [sortedEntries, depthEntries, depthEntries]
    omega

end

end Outline

/-- A document that is written for a readable record is read as its data, up to the order of
entries if it was sorted. -/
theorem Document.load_write {es : List (String × Outline)} (hread : (Outline.record es).Readable)
    (hne : es ≠ []) (hdepth : 2 * Outline.depthEntries es + 2 < maxWidth) (sortKeys : Bool) :
    ∃ d, Yaml.load (Document.write sortKeys es) = .ok d ∧ d.Same (Outline.record es).toData ∧
      (sortKeys = false → d = (Outline.record es).toData) := by
  cases sortKeys with
  | false => exact ⟨_, Yaml.load_render hread hne hdepth, .refl _, fun _ => rfl⟩
  | true =>
    have hread' : (Outline.record (Outline.inOrder es)).Readable :=
      Outline.readable_sorted (.record es) hread
    have hdepth' : Outline.depthEntries (Outline.inOrder es) ≤ Outline.depthEntries es :=
      Nat.le_of_succ_le_succ (Outline.depth_sorted_le (.record es))
    have hne' : Outline.inOrder es ≠ [] := by
      have hlength := ((Outline.perm_inOrder es).map Prod.fst).length_eq
      rw [Outline.map_fst_sortedEntries, List.length_map, List.length_map] at hlength
      rwa [← List.length_pos_iff, hlength, List.length_pos_iff]
    have hload := Yaml.load_render hread' hne' (by omega)
    exact ⟨_, hload, Outline.same_sorted (.record es), by rintro ⟨⟩⟩

end OpeningHand
