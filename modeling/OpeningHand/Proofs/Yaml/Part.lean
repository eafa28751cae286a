import OpeningHand.Proofs.Result
import OpeningHand.Yaml.Value

/-!
# Parts of nodes

Which nodes are given values with a node. A collection gives values to its `children`, which for a
map are the keys and values that are left once merge keys are taken in; these give values to theirs,
and so on. Taking in merge keys moves nodes up and never makes one higher, so every child has fewer
levels than its parent.
-/

namespace OpeningHand.Yaml.Node

/-- The keys and values of pairs, in order. -/
def ofPairs (pairs : List (Node × Node)) : List Node :=
  pairs.flatMap fun (k, v) => [k, v]

/-- The pairs of leading items, as long as each is a map of one pair. -/
def leadingPairs : List Node → List (Node × Node)
  | .map _ [(k, v)] :: ns => (k, v) :: leadingPairs ns
  | _ => []

/-- The keys and values of a map with merge keys taken in; none if one of these is wrong. -/
def flatNodes (pairs : List (Node × Node)) : List Node :=
  match flatPairs pairs with
  | .ok flat => ofPairs flat
  | .error _ => []

/-- The nodes that are given values one level below a node. -/
def children : Node → List Node
  | .list .list items => items
  | .list .omap items => ofPairs (leadingPairs items)
  | .list .pairs items => ofPairs (leadingPairs items)
  | .map .map pairs => flatNodes pairs
  | .map .set pairs => flatNodes pairs
  | _ => []

/-- A node that is given a value with another, and how much deeper it lies. -/
inductive Part : Node → Nat → Node → Prop
  | self {n} : Part n 0 n
  | child {n c d m} (hc : c ∈ n.children) (hm : Part c d m) : Part n (d + 1) m

/-! ## Keys and values in order -/

theorem exists_mem_ofPairs {P : Node → Prop} {pairs : List (Node × Node)} :
    (∃ c ∈ ofPairs pairs, P c) ↔ ∃ p ∈ pairs, P p.1 ∨ P p.2 := by
  induction pairs with
  | nil =>
    constructor
    · intro h
      obtain ⟨c, hc, -⟩ := h
      cases hc
    · intro h
      obtain ⟨p, hp, -⟩ := h
      cases hp
  | cons p ps ih =>
    rw [ofPairs, List.flatMap_cons, ← ofPairs]
    simp only [List.cons_append, List.nil_append, List.mem_cons, exists_eq_or_imp, ih, or_assoc]

/-- Both nodes of a pair are among those of the pairs. -/
theorem mem_ofPairs {pairs : List (Node × Node)} {p : Node × Node} (h : p ∈ pairs) :
    p.1 ∈ ofPairs pairs ∧ p.2 ∈ ofPairs pairs :=
  ⟨List.mem_flatMap.mpr ⟨p, h, List.mem_cons_self⟩,
    List.mem_flatMap.mpr ⟨p, h, List.mem_cons_of_mem _ List.mem_cons_self⟩⟩

/-! ## Heights -/

/-- Every node of some pairs has at most so many levels. -/
def PairsBelow (h : Nat) (pairs : List (Node × Node)) : Prop :=
  ∀ n ∈ ofPairs pairs, n.height ≤ h

theorem pairsBelow_nil (h : Nat) : PairsBelow h [] :=
  fun _ hn => nomatch hn

/-- Pairs stay below a height if the first does. -/
theorem PairsBelow.cons {h : Nat} {k v : Node} {ps : List (Node × Node)} (hk : k.height ≤ h)
    (hv : v.height ≤ h) (hps : PairsBelow h ps) : PairsBelow h ((k, v) :: ps) := by
  intro n hn
  rcases List.mem_cons.mp hn with rfl | hn
  · exact hk
  · rcases List.mem_cons.mp hn with rfl | hn
    · exact hv
    · exact hps n hn

theorem PairsBelow.append {h : Nat} {ps qs : List (Node × Node)} (hps : PairsBelow h ps)
    (hqs : PairsBelow h qs) : PairsBelow h (ps ++ qs) := by
  intro n hn
  rw [ofPairs, List.flatMap_append] at hn
  rcases List.mem_append.mp hn with hn | hn
  · exact hps n hn
  · exact hqs n hn

theorem PairsBelow.mono {h h' : Nat} {ps : List (Node × Node)} (hps : PairsBelow h ps)
    (hle : h ≤ h') : PairsBelow h' ps :=
  fun n hn => Nat.le_trans (hps n hn) hle

/-- A tag has no height. -/
theorem height_withTag (n : Node) (t : Tag) : (n.withTag t).height = n.height := by
  cases n <;> rfl

/-- An item is no higher than all items together. -/
theorem height_le_heightItems {n : Node} {items : List Node} (h : n ∈ items) :
    n.height ≤ heightItems items := by
  induction items with
  | nil => cases h
  | cons m ms ih =>
    rw [heightItems]
    rcases List.mem_cons.mp h with rfl | h
    · exact Nat.le_max_left _ _
    · exact Nat.le_trans (ih h) (Nat.le_max_right _ _)

mutual

/-- What is merged in comes from the pairs, so it is no higher. -/
theorem merged_below : ∀ {pairs more own : List (Node × Node)}, merged pairs = .ok (more, own) →
    PairsBelow (heightPairs pairs) more ∧ PairsBelow (heightPairs pairs) own
  | [], _, _, h => by
    cases h
    exact ⟨pairsBelow_nil _, pairsBelow_nil _⟩
  | (k, v) :: ps, _, _, h => by
    unfold merged at h
    dsimp only at h
    rw [heightPairs]
    split at h
    · obtain ⟨ofValue, hvalue, h⟩ := bind_eq_ok.mp h
      obtain ⟨⟨more, own⟩, hps, h⟩ := bind_eq_ok.mp h
      cases h
      have hvalue := offered_below hvalue
      have hps := merged_below hps
      exact ⟨(hvalue.mono (by omega)).append (hps.1.mono (by omega)), hps.2.mono (by omega)⟩
    · obtain ⟨⟨more, own⟩, hps, h⟩ := bind_eq_ok.mp h
      cases h
      have hps := merged_below hps
      refine ⟨hps.1.mono (by omega), .cons ?_ (by omega) (hps.2.mono (by omega))⟩
      split
      · rw [height_withTag]
        omega
      · omega

/-- What a node offers is no higher than the node. -/
theorem offered_below : ∀ {n : Node} {ps : List (Node × Node)}, n.offered = .ok ps →
    PairsBelow n.height ps
  | .map _ pairs, _, h => by
    obtain ⟨⟨more, own⟩, hpairs, h⟩ := bind_eq_ok.mp h
    cases h
    have hpairs := merged_below hpairs
    rw [height]
    exact (hpairs.1.append hpairs.2).mono (Nat.le_succ _)
  | .list _ items, _, h => by
    obtain ⟨pss, hitems, h⟩ := bind_eq_ok.mp h
    cases h
    rw [height]
    exact (offeredItems_below hitems).mono (Nat.le_succ _)
  | .scalar _ _, _, h => nomatch h
  | .torn _ _, _, h => nomatch h
  | .back _, _, h => nomatch h

theorem offeredItems_below : ∀ {items : List Node} {pss : List (List (Node × Node))},
    offeredItems items = .ok pss → PairsBelow (heightItems items) pss.flatten
  | [], _, h => by
    cases h
    exact pairsBelow_nil _
  | .map _ pairs :: ns, _, h => by
    obtain ⟨⟨more, own⟩, hpairs, h⟩ := bind_eq_ok.mp h
    obtain ⟨pss, hns, h⟩ := bind_eq_ok.mp h
    cases h
    have hpairs := merged_below hpairs
    have hns := offeredItems_below hns
    rw [heightItems, height, List.flatten_append, List.flatten_singleton]
    exact (hns.mono (by omega)).append ((hpairs.1.append hpairs.2).mono (by omega))
  | .list _ _ :: _, _, h => nomatch h
  | .scalar _ _ :: _, _, h => nomatch h
  | .torn _ _ :: _, _, h => nomatch h
  | .back _ :: _, _, h => nomatch h

end

/-- So the nodes that a map is made of are no higher than its pairs. -/
theorem flatNodes_below {pairs : List (Node × Node)} {n : Node} (hn : n ∈ flatNodes pairs) :
    n.height ≤ heightPairs pairs := by
  unfold flatNodes at hn
  split at hn
  · next hflat =>
    obtain ⟨⟨more, own⟩, hpairs, h⟩ := bind_eq_ok.mp hflat
    cases h
    exact (merged_below hpairs).1.append (merged_below hpairs).2 n hn
  · cases hn

theorem leadingPairs_below (items : List Node) :
    PairsBelow (heightItems items) (leadingPairs items) := by
  induction items using leadingPairs.induct with
  | case1 t k v ns ih =>
    rw [leadingPairs, heightItems, height, heightPairs]
    exact .cons (by omega) (by omega) (ih.mono (by omega))
  | case2 items hother =>
    rw [leadingPairs.eq_2 items hother]
    exact pairsBelow_nil _

/-- A child is lower than its node: on this the recursion over values rests. -/
theorem height_lt_of_mem_children {n c : Node} (h : c ∈ n.children) : c.height < n.height := by
  unfold children at h
  split at h
  · rw [height]
    exact Nat.lt_succ_of_le (height_le_heightItems h)
  · rw [height]
    exact Nat.lt_succ_of_le (leadingPairs_below _ c h)
  · rw [height]
    exact Nat.lt_succ_of_le (leadingPairs_below _ c h)
  · rw [height]
    exact Nat.lt_succ_of_le (flatNodes_below h)
  · rw [height]
    exact Nat.lt_succ_of_le (flatNodes_below h)
  · cases h

end OpeningHand.Yaml.Node
