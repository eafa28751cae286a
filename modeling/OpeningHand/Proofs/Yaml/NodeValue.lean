import Mathlib.Data.List.Forall2
import OpeningHand.Proofs.Data.Entries
import OpeningHand.Proofs.Yaml.ValueFault

/-!
# Values of nodes by their parts

What value a node has in terms of the values of its parts. A value is built at a depth and with so
much fuel, and neither makes a difference to a value without faults (`result_build`), so that the
laws speak of the value alone: a list stands for the values of its items, and a map for what is left
of the keys and values of its pairs once they are put one after the other.
-/

namespace OpeningHand.Yaml

namespace Built

variable {α β γ : Type}

/-- A value is given if nothing is at fault. -/
theorem result_eq_ok_iff {x : Built α} {a : α} : x.result = .ok a ↔ x.faults = [] ∧ x.value = a := by
  unfold result
  cases hfirst : first? x.faults with
  | none =>
    rw [first?_eq_none_iff.mp hfirst]
    simp
  | some f =>
    have hne : x.faults ≠ [] := by
      intro h
      rw [h] at hfirst
      cases hfirst
    simp [hne]

/-- A value without faults is given. -/
theorem result_pure (a b : α) : (Built.pure a).result = .ok b ↔ a = b := by
  rw [result_eq_ok_iff]
  exact and_iff_right rfl

/-- A fault leaves no value. -/
theorem result_fault_ne_ok (a b : α) (depth : Nat) (e : Failure) :
    (Built.fault a depth e).result ≠ .ok b := by
  rw [Ne, result_eq_ok_iff]
  rintro ⟨h, -⟩
  cases h

/-- A changed value is given if the value is. -/
theorem result_map {x : Built α} {f : α → β} {b : β} :
    (x.map f).result = .ok b ↔ ∃ a, x.result = .ok a ∧ f a = b := by
  simp only [result_eq_ok_iff, map]
  constructor
  · rintro ⟨h, hb⟩
    exact ⟨x.value, ⟨h, rfl⟩, hb⟩
  · rintro ⟨_, ⟨h, rfl⟩, hb⟩
    exact ⟨h, hb⟩

/-- Two values are given together. -/
theorem result_both {x : Built α} {y : Built β} {f : α → β → γ} {c : γ} :
    (Built.both f x y).result = .ok c ↔ ∃ a b, x.result = .ok a ∧ y.result = .ok b ∧ f a b = c := by
  simp only [result_eq_ok_iff, both, List.append_eq_nil_iff]
  constructor
  · rintro ⟨⟨hx, hy⟩, hc⟩
    exact ⟨x.value, y.value, ⟨hx, rfl⟩, ⟨hy, rfl⟩, hc⟩
  · rintro ⟨_, _, ⟨hx, rfl⟩, ⟨hy, rfl⟩, hc⟩
    exact ⟨⟨hx, hy⟩, hc⟩

/-- The members of a list are given one by one. -/
theorem result_each {f : α → Built β} {R : α → β → Prop} {as : List α} {bs : List β}
    (hf : ∀ a ∈ as, ∀ b, (f a).result = .ok b ↔ R a b) :
    (Built.each f as).result = .ok bs ↔ List.Forall₂ R as bs := by
  induction as generalizing bs with
  | nil =>
    rw [each, result_pure, List.forall₂_nil_left_iff]
    exact eq_comm
  | cons a as ih =>
    rw [each, result_both, List.forall₂_cons_left_iff]
    have hrest (cs : List β) : (Built.each f as).result = .ok cs ↔ List.Forall₂ R as cs :=
      ih fun b hb => hf b (List.mem_cons_of_mem a hb)
    have ha := hf a List.mem_cons_self
    simp only [ha, hrest, exists_and_left]
    constructor
    · rintro ⟨b, hb, cs, hcs, rfl⟩
      exact ⟨b, hb, cs, hcs, rfl⟩
    · rintro ⟨b, hb, cs, hcs, rfl⟩
      exact ⟨b, hb, cs, hcs, rfl⟩

/-- A key is given if the value is a scalar. -/
theorem result_keyOf {x : Built Data} {depth : Nat} {k : Scalar} :
    (Node.keyOf depth x).result = .ok k ↔ x.result = .ok (.scalar k) := by
  simp only [result_eq_ok_iff, Node.keyOf]
  split
  next s hs => simp [hs]
  next points hpoints =>
    refine iff_of_false (fun h => ?_) fun h => nomatch hpoints.symm.trans h.2
    exact absurd (List.append_eq_nil_iff.mp h.1).2 (List.cons_ne_nil _ _)
  next hother _ =>
    refine iff_of_false (fun h => ?_) fun h => hother k h.2
    exact absurd (List.append_eq_nil_iff.mp h.1).2 (List.cons_ne_nil _ _)

/-! ## Values that differ in the places of faults -/

/-- Values under construction that agree but for where their faults lie. -/
structure Alike (x y : Built α) : Prop where
  value : x.value = y.value
  faults : x.faults = [] ↔ y.faults = []

namespace Alike

/-- A value is like itself. -/
theorem refl (x : Built α) : Alike x x := ⟨rfl, Iff.rfl⟩

theorem fault (a : α) (depth depth' : Nat) (e : Failure) :
    Alike (Built.fault a depth e) (Built.fault a depth' e) :=
  ⟨rfl, iff_of_false (List.cons_ne_nil _ _) (List.cons_ne_nil _ _)⟩

theorem map {x y : Built α} (h : Alike x y) (f : α → β) : Alike (x.map f) (y.map f) :=
  ⟨congrArg f h.value, h.faults⟩

/-- Values made of two are alike if the two are. -/
theorem both {x x' : Built α} {y y' : Built β} (hx : Alike x x') (hy : Alike y y')
    (f : α → β → γ) : Alike (Built.both f x y) (Built.both f x' y') := by
  refine ⟨congrArg₂ f hx.value hy.value, ?_⟩
  rw [Built.both, Built.both, List.append_eq_nil_iff, List.append_eq_nil_iff, hx.faults, hy.faults]

/-- So are lists, member by member. -/
theorem each {f g : α → Built β} {as : List α} (h : ∀ a ∈ as, Alike (f a) (g a)) :
    Alike (Built.each f as) (Built.each g as) := by
  induction as with
  | nil => exact refl _
  | cons a as ih =>
    exact (h a List.mem_cons_self).both (ih fun b hb => h b (List.mem_cons_of_mem a hb)) List.cons

/-- And keys, at whatever depth they are looked at. -/
theorem keyOf {x y : Built Data} (h : Alike x y) (depth depth' : Nat) :
    Alike (Node.keyOf depth x) (Node.keyOf depth' y) := by
  have faulty (e : Failure) : Alike (⟨.null, x.faults ++ [(depth, e)]⟩ : Built Scalar)
      ⟨.null, y.faults ++ [(depth', e)]⟩ := by
    refine ⟨rfl, iff_of_false (fun he => ?_) fun he => ?_⟩
    · exact absurd (List.append_eq_nil_iff.mp he).2 (List.cons_ne_nil _ _)
    · exact absurd (List.append_eq_nil_iff.mp he).2 (List.cons_ne_nil _ _)
  unfold Node.keyOf
  rw [h.value]
  split
  · exact ⟨rfl, h.faults⟩
  · exact faulty .outside
  · exact faulty badValue

/-- Values that are alike are given alike. -/
theorem result {x y : Built α} (h : Alike x y) {a : α} : x.result = .ok a ↔ y.result = .ok a := by
  rw [result_eq_ok_iff, result_eq_ok_iff, h.value, h.faults]

end Alike

end Built

namespace Node

open Built

section Steps

variable {b b' : Node → Built Data} {depth depth' : Nat}

/-- Only the nodes of the pairs, after merging, have a say in the value of a map. -/
theorem entriesOf_alike {pairs : List (Node × Node)}
    (h : ∀ c ∈ flatNodes pairs, Alike (b c) (b' c)) :
    Alike (entriesOf depth b pairs) (entriesOf depth' b' pairs) := by
  unfold entriesOf
  unfold flatNodes at h
  cases hflat : flatPairs pairs with
  | error e => exact .fault _ _ _ _
  | ok flat =>
    rw [hflat] at h
    exact .each fun p hp =>
      ((h p.1 (mem_ofPairs hp).1).keyOf _ _).both (h p.2 (mem_ofPairs hp).2) Prod.mk

theorem pairItems_alike {items : List Node}
    (h : ∀ c ∈ ofPairs (leadingPairs items), Alike (b c) (b' c)) :
    Alike (pairItems depth b items) (pairItems depth' b' items) := by
  induction items using leadingPairs.induct with
  | case1 t k v ns ih =>
    rw [leadingPairs] at h
    have hk := h k List.mem_cons_self
    have hv := h v (List.mem_cons_of_mem _ List.mem_cons_self)
    have hns := ih fun c hc => h c (List.mem_cons_of_mem _ (List.mem_cons_of_mem _ hc))
    rw [pairItems, pairItems]
    exact (hk.both hv _).both hns List.cons
  | case2 items hother =>
    cases items with
    | nil => exact .refl _
    | cons n ns =>
      have hpair (t : Tag) (k v : Node) (h : n = .map t [(k, v)]) : False :=
        hother t k v ns (congrArg (· :: ns) h)
      rw [pairItems.eq_3 depth b n ns hpair, pairItems.eq_3 depth' b' n ns hpair]
      exact .fault _ _ _ _

/-- A node without children that is read as a scalar. -/
theorem single_alike (n : Node) (depth depth' : Nat) :
    Alike
      (match n.scalarData n.tag with
        | .ok d => Built.pure d
        | .error e => Built.fault (.scalar .null) depth e)
      (match n.scalarData n.tag with
        | .ok d => Built.pure d
        | .error e => Built.fault (.scalar .null) depth' e) := by
  split
  · exact .refl _
  · exact .fault _ _ _ _

/-- Values of a node at two depths agree if those of its children do. -/
theorem build_succ_alike (n : Node) (fuel fuel' : Nat)
    (h : ∀ c ∈ n.children, Alike (c.build (depth + 1) fuel) (c.build (depth' + 1) fuel')) :
    Alike (n.build depth (fuel + 1)) (n.build depth' (fuel' + 1)) := by
  have single := single_alike n depth depth'
  cases n with
  | scalar t cs =>
    cases t with
    | null | flag | whole | real | binary | time | text => exact single
    | list | map | set | omap | pairs | merge | value | other => exact .fault _ _ _ _
  | torn t points =>
    cases t with
    | null | flag | whole | real | binary | time | text => exact single
    | list | map | set | omap | pairs | merge | value | other => exact .fault _ _ _ _
  | list t items =>
    cases t with
    | null | flag | whole | real | binary | time | text => exact single
    | map | set | merge | value | other => exact .fault _ _ _ _
    | list => exact (Alike.each h).map _
    | omap => exact (pairItems_alike h).map _
    | pairs => exact (pairItems_alike h).map _
  | map t pairs =>
    cases t with
    | null | flag | whole | real | binary | time | text => exact single
    | list | omap | pairs | merge | value | other => exact .fault _ _ _ _
    | map => exact (entriesOf_alike h).map fun es => Data.map (Entries.ofList es)
    | set => exact (entriesOf_alike h).map fun es => Data.set (Scalar.distinct (es.map Prod.fst))
  | back anchor => exact .fault _ _ _ _

end Steps

/-- With fuel enough, neither the fuel nor the depth changes the value. -/
theorem build_alike {n : Node} {fuel fuel' : Nat} (h : n.height ≤ fuel) (h' : n.height ≤ fuel')
    (depth depth' : Nat) : Alike (n.build depth fuel) (n.build depth' fuel') := by
  induction fuel generalizing n fuel' depth depth' with
  | zero => cases n <;> cases h
  | succ fuel ih =>
    cases fuel' with
    | zero => cases n <;> cases h'
    | succ fuel' =>
      refine build_succ_alike n fuel fuel' fun c hc => ?_
      have hlt := height_lt_of_mem_children hc
      exact ih (by omega) (by omega) _ _

/-- A value without faults does not depend on where, and with how much fuel, it is built. -/
theorem result_build {n : Node} {fuel : Nat} (h : n.height ≤ fuel) (depth : Nat) {d : Data} :
    (n.build depth fuel).result = .ok d ↔ n.toData = .ok d :=
  (build_alike h (Nat.le_refl _) depth 0).result

/-! ## Scalars and lists -/

/-- A scalar stands for what its text says under its tag. -/
theorem toData_scalar {t : Tag} {cs : List Char} {s : Scalar} (h : scalarValue t cs = .ok s) :
    (scalar t cs).toData = .ok (.scalar s) := by
  have hdata : (scalar t cs).scalarData t = .ok (.scalar s) := by rw [scalarData_scalar, h]; rfl
  have hread : (match (scalar t cs).scalarData t with
      | .ok d => Built.pure d
      | .error e => Built.fault (.scalar .null) 0 e) = Built.pure (.scalar s) := by rw [hdata]
  have hbuild : (scalar t cs).build 0 1 = Built.pure (.scalar s) := by
    cases t with
    | null | flag | whole | real | binary | time | text => exact hread
    | list | map | set | omap | pairs | merge | value | other => cases h
  rw [toData, height, hbuild]
  rfl

/-- A list stands for what its items stand for. -/
theorem toData_list {items : List Node} {ds : List Data} :
    (list .list items).toData = .ok (.list ds) ↔
      List.Forall₂ (fun n d => n.toData = .ok d) items ds := by
  have hitems (n : Node) (hn : n ∈ items) (d : Data) :
      (n.build 1 (heightItems items)).result = .ok d ↔ n.toData = .ok d :=
    result_build (height_le_heightItems hn) 1
  rw [← result_each hitems, toData, height]
  show ((Built.each _ items).map Data.list).result = _ ↔ _
  rw [result_map]
  simp only [Data.list.injEq, exists_eq_right]

/-! ## Maps -/

/-- A key and a value by what they stand for. -/
def Writes (p : Node × Node) (e : Scalar × Data) : Prop :=
  p.1.toData = .ok (.scalar e.1) ∧ p.2.toData = .ok e.2

/-- A map stands for what its pairs write, one entry after the other. -/
theorem result_entriesOf {pairs flat : List (Node × Node)} {depth fuel : Nat}
    {es : List (Scalar × Data)} (hflat : flatPairs pairs = .ok flat)
    (hfuel : heightPairs pairs ≤ fuel) :
    (entriesOf depth (fun n => n.build depth fuel) pairs).result = .ok es ↔
      List.Forall₂ Writes flat es := by
  have hbelow {c : Node} (hc : c ∈ ofPairs flat) : c.height ≤ fuel := by
    have hmem : c ∈ flatNodes pairs := by rwa [flatNodes, hflat]
    exact Nat.le_trans (flatNodes_below hmem) hfuel
  rw [entriesOf, hflat]
  refine result_each fun p hp e => ?_
  rw [result_both]
  simp only [result_keyOf, result_build (hbelow (mem_ofPairs hp).1),
    result_build (hbelow (mem_ofPairs hp).2), Writes]
  constructor
  · rintro ⟨k, d, hk, hd, rfl⟩
    exact ⟨hk, hd⟩
  · rintro ⟨hk, hd⟩
    exact ⟨e.1, e.2, hk, hd, rfl⟩

/-- A map stands for its entries, those merged in first, put one after the other. -/
theorem toData_map {pairs : List (Node × Node)} {es : Entries Data} :
    (map .map pairs).toData = .ok (.map es) ↔
      ∃ flat written, flatPairs pairs = .ok flat ∧ List.Forall₂ Writes flat written ∧
        Entries.ofList written = es := by
  rw [toData, height]
  show ((entriesOf 1 (fun n => n.build 1 (heightPairs pairs)) pairs).map fun es =>
    Data.map (Entries.ofList es)).result = _ ↔ _
  rw [result_map]
  cases hflat : flatPairs pairs with
  | error e =>
    refine iff_of_false (fun h => ?_) fun h => ?_
    · obtain ⟨es', h, -⟩ := h
      rw [entriesOf, hflat] at h
      exact result_fault_ne_ok _ _ _ _ h
    · obtain ⟨_, _, h, -⟩ := h
      cases h
  | ok flat =>
    simp only [result_entriesOf hflat (Nat.le_refl _), Data.map.injEq, Except.ok.injEq]
    constructor
    · rintro ⟨written, hwritten, rfl⟩
      exact ⟨flat, written, rfl, hwritten, rfl⟩
    · rintro ⟨_, written, rfl, hwritten, rfl⟩
      exact ⟨written, hwritten, rfl⟩

/-- A key as it counts in a map: the default key is a text there. -/
def asKey (k : Node) : Node := if k.tag = .value then k.withTag .text else k

/-- Without merge keys, a map has the pairs that are written in it. -/
theorem flatPairs_of_plain {pairs : List (Node × Node)} (plain : ∀ p ∈ pairs, p.1.tag ≠ .merge) :
    flatPairs pairs = .ok (pairs.map fun p => (p.1.asKey, p.2)) := by
  have hmerged : merged pairs = .ok ([], pairs.map fun p => (p.1.asKey, p.2)) := by
    induction pairs with
    | nil => rfl
    | cons p ps ih =>
      have hp := plain p List.mem_cons_self
      have hps := ih fun q hq => plain q (List.mem_cons_of_mem p hq)
      rw [merged, if_neg hp, hps]
      rfl
  rw [flatPairs, hmerged]
  rfl

/-- A map with different keys, none of them a merge key or the default key, has the entries that are
written in it. -/
theorem toData_plainMap {pairs : List (Node × Node)} {es : Entries Data}
    (plain : ∀ p ∈ pairs, p.1.tag ≠ .merge ∧ p.1.tag ≠ .value)
    (writes : List.Forall₂ Writes pairs es) (distinct : (Entries.keys es).Nodup) :
    (map .map pairs).toData = .ok (.map es) := by
  have hkeys : pairs.map (fun p => (p.1.asKey, p.2)) = pairs := by
    refine (List.map_congr_left fun p hp => ?_).trans (List.map_id _)
    rw [asKey, if_neg (plain p hp).2]
    rfl
  have hflat := flatPairs_of_plain fun p hp => (plain p hp).1
  rw [hkeys] at hflat
  exact toData_map.mpr ⟨pairs, es, hflat, writes, Entries.ofList_eq_self distinct⟩

/-- No scalar is a map. -/
theorem scalarData_ne_map {t : Tag} {n : Node} {es : Entries Data} :
    n.scalarData t ≠ .ok (.map es) := by
  intro h
  unfold scalarData at h
  split at h
  · split at h <;> cases h
  · obtain ⟨cs, -, h⟩ := bind_eq_ok.mp h
    split at h
    · cases h
    · obtain ⟨s, -, h⟩ := bind_eq_ok.mp h
      cases h

/-- A node that stands for a map is one. -/
theorem exists_pairs_of_toData {n : Node} {es : Entries Data} (h : n.toData = .ok (.map es)) :
    ∃ pairs, n = map .map pairs := by
  have single (hbuild : n.build 0 n.height =
      match n.scalarData n.tag with
      | .ok d => Built.pure d
      | .error e => Built.fault (.scalar .null) 0 e) : False := by
    rw [toData, hbuild] at h
    split at h
    next d hd =>
      rw [result_pure] at h
      exact scalarData_ne_map (h ▸ hd)
    next => exact result_fault_ne_ok _ _ _ _ h
  have fault {depth : Nat} (hbuild : n.build 0 n.height =
      Built.fault (.scalar .null) depth badValue) : False := by
    rw [toData, hbuild] at h
    exact result_fault_ne_ok _ _ _ _ h
  have other {α : Type} {x : Built α} {f : α → Data} (hf : ∀ a, f a ≠ .map es)
      (hbuild : n.build 0 n.height = x.map f) : False := by
    rw [toData, hbuild, result_map] at h
    obtain ⟨a, -, ha⟩ := h
    exact hf a ha
  cases n with
  | scalar t cs =>
    cases t with
    | null | flag | whole | real | binary | time | text => exact (single rfl).elim
    | list | map | set | omap | pairs | merge | value | other => exact (fault rfl).elim
  | torn t points =>
    cases t with
    | null | flag | whole | real | binary | time | text => exact (single rfl).elim
    | list | map | set | omap | pairs | merge | value | other => exact (fault rfl).elim
  | list t items =>
    cases t with
    | null | flag | whole | real | binary | time | text => exact (single rfl).elim
    | map | set | merge | value | other => exact (fault rfl).elim
    | list | omap | pairs => exact (other (f := Data.list) (fun _ => Data.noConfusion) rfl).elim
  | map t pairs =>
    cases t with
    | null | flag | whole | real | binary | time | text => exact (single rfl).elim
    | list | omap | pairs | merge | value | other => exact (fault rfl).elim
    | set => exact (other (f := fun es : Entries Data => .set (Scalar.distinct (es.map Prod.fst)))
        (fun _ => Data.noConfusion) rfl).elim
    | map => exact ⟨pairs, rfl⟩
  | back anchor => exact (fault rfl).elim

end Node

/-! ## Texts -/

/-- The value of a text is that of its node, if texts in it are torn on the first levels only. -/
theorem load_eq_ok_iff_of_node {text : String} {n : Node} {d : Data}
    (hnode : Node.ofText text.toList = .ok (some n)) :
    load text = .ok d ↔ n.toData = .ok d ∧ d.isIntactBelow tornLevels = true := by
  have hload : load text = n.toData >>= fun d =>
      if d.isIntactBelow tornLevels then .ok d else .error .outside := by
    rw [load, hnode]
    rfl
  rw [hload]
  constructor
  · intro h
    obtain ⟨d', hd', h⟩ := bind_eq_ok.mp h
    split at h
    · next hintact =>
      cases h
      exact ⟨hd', hintact⟩
    · cases h
  · rintro ⟨hd, hintact⟩
    exact bind_eq_ok.mpr ⟨d, hd, if_pos hintact⟩

/-- What a text stands for is torn on the first levels only. -/
theorem isIntactBelow_of_load {text : String} {d : Data} (h : load text = .ok d) :
    d.isIntactBelow tornLevels = true := by
  obtain ⟨root, hroot, hd⟩ := bind_eq_ok.mp h
  cases root with
  | none =>
    cases hd
    rfl
  | some n => exact ((load_eq_ok_iff_of_node hroot).mp h).2

end OpeningHand.Yaml
