import OpeningHand.Proofs.Yaml.NodeFault
import OpeningHand.Proofs.Yaml.Part
import OpeningHand.Proofs.Yaml.ScalarFault
import OpeningHand.Proofs.Yaml.Tree

/-!
# Faults of values

When the value of a document lapses. A node is given a value together with its parts, the parts of
those and so on, so every fault that is met is one of a node somewhere in the document. `LapsesAt`
says which lapses a value under construction holds, and how deep each lies; the laws follow the way
values are put together. A document then lapses when, of all faults met, the one that is answered
with is the lapse of some part.
-/

namespace OpeningHand.Yaml

/-! ## The fault that is answered with -/

/-- A fault with none less deep in a list, and none as deep before it. -/
def Foremost (f : Nat × Failure) (fs : List (Nat × Failure)) : Prop :=
  ∃ before after, fs = before ++ f :: after ∧ (∀ g ∈ before, f.1 < g.1) ∧ ∀ g ∈ after, f.1 ≤ g.1

/-- The foremost fault is one of the faults. -/
theorem Foremost.mem {f : Nat × Failure} {fs : List (Nat × Failure)} (h : Foremost f fs) :
    f ∈ fs := by
  obtain ⟨before, after, rfl, -, -⟩ := h
  exact List.mem_append_right before List.mem_cons_self

/-- No fault is less deep. -/
theorem Foremost.le {f g : Nat × Failure} {fs : List (Nat × Failure)} (h : Foremost f fs)
    (hg : g ∈ fs) : f.1 ≤ g.1 := by
  obtain ⟨before, after, rfl, hbefore, hafter⟩ := h
  rcases List.mem_append.mp hg with hg | hg
  · exact Nat.le_of_lt (hbefore g hg)
  · rcases List.mem_cons.mp hg with rfl | hg
    · exact Nat.le_refl _
    · exact hafter g hg

/-- The first fault is foremost unless a later one is less deep. -/
theorem foremost_cons_iff {f g : Nat × Failure} {fs : List (Nat × Failure)} :
    Foremost f (g :: fs) ↔
      (g = f ∧ ∀ g' ∈ fs, f.1 ≤ g'.1) ∨ (Foremost f fs ∧ f.1 < g.1) := by
  constructor
  · intro h
    obtain ⟨before, after, heq, hbefore, hafter⟩ := h
    cases before with
    | nil =>
      cases heq
      exact .inl ⟨rfl, hafter⟩
    | cons b before =>
      cases heq
      refine .inr ⟨⟨before, after, rfl, fun g' hg' => ?_, hafter⟩, ?_⟩
      · exact hbefore g' (List.mem_cons_of_mem g hg')
      · exact hbefore g List.mem_cons_self
  · intro h
    rcases h with ⟨rfl, hle⟩ | ⟨⟨before, after, rfl, hbefore, hafter⟩, hlt⟩
    · exact ⟨[], fs, rfl, List.forall_mem_nil _, hle⟩
    · refine ⟨g :: before, after, rfl, fun g' hg' => ?_, hafter⟩
      rcases List.mem_cons.mp hg' with rfl | hg'
      · exact hlt
      · exact hbefore g' hg'

namespace Built

variable {α β γ : Type}

/-- Only where there is no fault is there no foremost one. -/
theorem first?_eq_none_iff {fs : List (Nat × Failure)} : first? fs = none ↔ fs = [] := by
  cases fs with
  | nil => exact iff_of_true rfl rfl
  | cons f fs =>
    refine iff_of_false (fun h => ?_) (List.cons_ne_nil f fs)
    unfold first? at h
    split at h
    · cases h
    · split at h <;> cases h

/-- The fault that is met first is the foremost one. -/
theorem first?_eq_some_iff {fs : List (Nat × Failure)} {f : Nat × Failure} :
    first? fs = some f ↔ Foremost f fs := by
  induction fs generalizing f with
  | nil =>
    constructor
    · intro h
      cases h
    · intro h
      cases h.mem
  | cons g fs ih =>
    rw [foremost_cons_iff, ← ih, first?]
    cases hfirst : first? fs with
    | none =>
      rw [first?_eq_none_iff.mp hfirst]
      simp
    | some g' =>
      have hg' : Foremost g' fs := ih.mp hfirst
      dsimp only
      by_cases hlt : g'.1 < g.1
      · rw [if_pos hlt]
        refine ⟨fun h => .inr ⟨h, ?_⟩, ?_⟩
        · cases h
          exact hlt
        · intro hyp
          rcases hyp with ⟨rfl, hle⟩ | ⟨h, -⟩
          · exact absurd hlt (Nat.not_lt.mpr (hle g' hg'.mem))
          · exact h
      · rw [if_neg hlt]
        refine ⟨fun h => .inl ?_, ?_⟩
        · cases h
          exact ⟨rfl, fun h hh => Nat.le_trans (Nat.not_lt.mp hlt) (hg'.le hh)⟩
        · intro hyp
          rcases hyp with ⟨rfl, -⟩ | ⟨h, hlt'⟩
          · rfl
          · cases h
            exact absurd hlt' hlt

end Built

/-! ## Nodes that lapse -/

namespace Node

/-- A node that lapses by itself: it stands for a scalar whose text has no answer, or is a map where
a time is asked for. -/
inductive OwnLapse : Node → Lapse → Prop
  | scalar {tag cs l} (h : TextLapse tag cs l) : OwnLapse (.scalar tag cs) l
  | default {tag pairs cs l} (htext : defaultText pairs = .ok cs) (htag : tag ≠ .time)
      (h : TextLapse tag cs l) : OwnLapse (.map tag pairs) l
  | time {pairs cs} (htext : defaultText pairs = .ok cs) : OwnLapse (.map .time pairs) .wrongType

mutual

theorem text_never : ∀ n : Node, NeverLapses n.text
  | .scalar _ chars => .ok chars
  | .torn _ _ => .outside
  | .map _ pairs => defaultText_never pairs
  | .list _ _ => .error rfl
  | .back _ => .error rfl

theorem defaultText_never : ∀ pairs : List (Node × Node), NeverLapses (defaultText pairs)
  | [] => .error rfl
  | (k, v) :: ps => by
    unfold defaultText
    split
    · exact text_never v
    · exact defaultText_never ps

end

mutual

/-- What maps offer under merge keys is answered for: whatever is no map there is refused as a node.
-/
theorem merged_answered : ∀ pairs : List (Node × Node), Answered (merged pairs)
  | [] => .ok ([], [])
  | (k, v) :: ps => by
    unfold merged
    dsimp only
    split
    · exact .bind (offered_answered v) fun _ _ => .bind (merged_answered ps) fun _ _ => .ok _
    · exact .bind (merged_answered ps) fun _ _ => .ok _

theorem offered_answered : ∀ n : Node, Answered n.offered
  | .map _ pairs => .bind (merged_answered pairs) fun _ _ => .ok _
  | .list _ items => .bind (offeredItems_answered items) fun _ _ => .ok _
  | .scalar _ _ => .error rfl
  | .torn _ _ => .error rfl
  | .back _ => .error rfl

theorem offeredItems_answered : ∀ items : List Node, Answered (offeredItems items)
  | [] => .ok []
  | .map _ pairs :: ns => .bind (merged_answered pairs) fun _ _ =>
    .bind (offeredItems_answered ns) fun _ _ => .ok _
  | .list _ _ :: _ => .error rfl
  | .scalar _ _ :: _ => .error rfl
  | .torn _ _ :: _ => .error rfl
  | .back _ :: _ => .error rfl

end

/-- So are the pairs of a map with those that it takes in. -/
theorem flatPairs_answered (pairs : List (Node × Node)) : Answered (flatPairs pairs) :=
  .bind (merged_answered pairs) fun _ _ => .ok _

/-- A scalar under its own tag. -/
theorem scalarData_scalar (t : Tag) (cs : List Char) :
    (scalar t cs).scalarData t = (scalarValue t cs).map .scalar := by
  cases t <;> rfl

/-- A map under the tag of a scalar stands for its default text. -/
theorem scalarData_map {t : Tag} (ht : t ≠ .time) (pairs : List (Node × Node)) :
    (map t pairs).scalarData t =
      defaultText pairs >>= fun cs => (scalarValue t cs).map .scalar := by
  cases t with
  | time => contradiction
  | _ => rfl

/-- A node that is read as a scalar lapses exactly where it lapses by itself. -/
theorem scalarData_lapsesIn (n : Node) : LapsesIn (n.scalarData n.tag) n.OwnLapse := by
  cases n with
  | scalar t cs =>
    rw [tag, scalarData_scalar]
    apply (scalarValue_lapsesIn t cs).map.congr
    intro l
    constructor
    · exact .scalar
    · intro h
      cases h with
      | scalar h => exact h
  | torn t points =>
    apply LapsesIn.of_never ?_ fun _ h => by cases h
    rw [tag, scalarData]
    split
    · exact .ok _
    · exact .outside
  | list t items =>
    exact (LapsesIn.error rfl).of_never fun _ h => by cases h
  | map t pairs =>
    rw [tag]
    by_cases ht : t = .time
    · subst ht
      have hread := (defaultText_never pairs).bind_right fun cs =>
        LapsesIn.lapse (α := Data) .wrongType
      refine LapsesIn.congr hread fun l => ⟨?_, ?_⟩
      · intro h
        obtain ⟨cs, htext, rfl⟩ := h
        exact .time htext
      · intro h
        cases h with
        | default htext htag h => contradiction
        | time htext => exact ⟨_, htext, rfl⟩
    · rw [scalarData_map ht]
      have hread := (defaultText_never pairs).bind_right fun cs =>
        (scalarValue_lapsesIn t cs).map (f := Data.scalar)
      refine LapsesIn.congr hread fun l => ⟨?_, ?_⟩
      · intro h
        obtain ⟨cs, htext, hl⟩ := h
        exact .default htext ht hl
      · intro h
        cases h with
        | default htext htag hl => exact ⟨_, htext, hl⟩
        | time htext => contradiction
  | back anchor => exact (LapsesIn.error rfl).of_never fun _ h => by cases h

end Node

/-! ## Values under construction -/

namespace Built

variable {α β γ : Type} {P Q : Nat → Lapse → Prop}

/-- A value under construction that holds the lapses of `P`, each by its depth, and all whose other
faults are of the document or lie outside what is described. -/
structure LapsesAt (x : Built α) (P : Nat → Lapse → Prop) : Prop where
  fails : ∀ f ∈ x.faults,
    f.2.isOfDocument = true ∨ f.2 = .outside ∨ ∃ l, f.2 = .lapse l ∧ P f.1 l
  lapses : ∀ d l, P d l → (d, .lapse l) ∈ x.faults

namespace LapsesAt

/-- A set of lapses may be told in another way. -/
theorem congr {x : Built α} (h : LapsesAt x P) (hPQ : ∀ d l, P d l ↔ Q d l) : LapsesAt x Q where
  fails f hf :=
    (h.fails f hf).imp_right (.imp_right fun ⟨l, hl, hP⟩ => ⟨l, hl, (hPQ f.1 l).mp hP⟩)
  lapses d l hQ := h.lapses d l ((hPQ d l).mpr hQ)

/-- Cases that never come about may be added. -/
theorem of_never {x : Built α} (h : LapsesAt x fun _ _ => False) (hP : ∀ d l, ¬ P d l) :
    LapsesAt x P :=
  h.congr fun d l => iff_of_false id (hP d l)

/-- A value without faults has no lapse. -/
theorem pure (a : α) : LapsesAt (Built.pure a) fun _ _ => False where
  fails _ h := nomatch h
  lapses _ _ h := h.elim

/-- Nor has a fault that is answered for. -/
theorem fault (a : α) (depth : Nat) {e : Failure} (he : e.isOfDocument = true) :
    LapsesAt (Built.fault a depth e) fun _ _ => False where
  fails f h := by
    rw [List.mem_singleton.mp h]
    exact .inl he
  lapses _ _ h := h.elim

/-- A change of the value leaves the faults. -/
theorem map {x : Built α} (hx : LapsesAt x P) (f : α → β) : LapsesAt (x.map f) P :=
  ⟨hx.fails, hx.lapses⟩

/-- The faults of two values are those of either. -/
theorem both {x : Built α} {y : Built β} (hx : LapsesAt x P) (hy : LapsesAt y Q)
    (f : α → β → γ) : LapsesAt (Built.both f x y) fun d l => P d l ∨ Q d l := by
  constructor
  · intro g hg
    rcases List.mem_append.mp hg with hg | hg
    · exact (hx.fails g hg).imp_right (.imp_right fun ⟨l, hl, hP⟩ => ⟨l, hl, .inl hP⟩)
    · exact (hy.fails g hg).imp_right (.imp_right fun ⟨l, hl, hQ⟩ => ⟨l, hl, .inr hQ⟩)
  · intro d l h
    rcases h with hP | hQ
    · exact List.mem_append_left _ (hx.lapses d l hP)
    · exact List.mem_append_right _ (hy.lapses d l hQ)

/-- The faults of a list are those of its members. -/
theorem each {f : α → Built β} {R : α → Nat → Lapse → Prop} {as : List α}
    (hf : ∀ a ∈ as, LapsesAt (f a) (R a)) :
    LapsesAt (Built.each f as) fun d l => ∃ a ∈ as, R a d l := by
  induction as with
  | nil =>
    apply (pure []).of_never
    intro d l h
    obtain ⟨a, ha, -⟩ := h
    cases ha
  | cons a as ih =>
    have hrest := ih fun b hb => hf b (List.mem_cons_of_mem a hb)
    refine ((hf a List.mem_cons_self).both hrest List.cons).congr fun d l => ?_
    simp only [List.mem_cons, exists_eq_or_imp]

/-- A value that can be no key is one more fault, and that is answered for. -/
theorem keyOf {x : Built Data} (hx : LapsesAt x P) (depth : Nat) :
    LapsesAt (Node.keyOf depth x) P := by
  have more {k : Scalar} {e : Failure} (he : e.isOfDocument = true ∨ e = .outside) :
      LapsesAt (⟨k, x.faults ++ [(depth, e)]⟩ : Built Scalar) P := by
    refine ⟨fun f hf => ?_, fun d l h => List.mem_append_left _ (hx.lapses d l h)⟩
    rcases List.mem_append.mp hf with hf | hf
    · exact hx.fails f hf
    · rw [List.mem_singleton.mp hf]
      exact he.imp_right .inl
  unfold Node.keyOf
  split
  · exact ⟨hx.fails, hx.lapses⟩
  · exact more (.inr rfl)
  · exact more (.inl rfl)

end LapsesAt

end Built

namespace Node

/-- A lapse of some part of a node, by its depth. -/
def PartLapse (n : Node) (depth d : Nat) (l : Lapse) : Prop :=
  ∃ k m, Part n k m ∧ d = depth + k ∧ m.OwnLapse l

/-- A lapse of a node itself, or one that `R` tells of a child. -/
def StepLapse (R : Node → Nat → Lapse → Prop) (n : Node) (depth d : Nat) (l : Lapse) : Prop :=
  (d = depth ∧ n.OwnLapse l) ∨ ∃ c ∈ n.children, R c d l

/-- The lapses of a node's parts are its own and those of the parts of its children. -/
theorem partLapse_iff {n : Node} {depth d : Nat} {l : Lapse} :
    n.PartLapse depth d l ↔ n.StepLapse (·.PartLapse (depth + 1)) depth d l := by
  constructor
  · intro h
    obtain ⟨k, m, hpart, rfl, hl⟩ := h
    cases hpart with
    | self => exact .inl ⟨rfl, hl⟩
    | @child _ c k _ hc hm => exact .inr ⟨c, hc, k, m, hm, by omega, hl⟩
  · intro h
    rcases h with ⟨rfl, hl⟩ | ⟨c, hc, k, m, hm, rfl, hl⟩
    · exact ⟨0, n, .self, rfl, hl⟩
    · exact ⟨k + 1, m, .child hc hm, by omega, hl⟩

/-! ## Values of collections -/

section Steps

variable {b : Node → Built Data} {R : Node → Nat → Lapse → Prop}

/-- The lapses of a map are those of its keys and values, with what it takes in. -/
theorem entriesOf_lapsesAt (depth : Nat) {pairs : List (Node × Node)}
    (hb : ∀ c ∈ flatNodes pairs, (b c).LapsesAt (R c)) :
    (entriesOf depth b pairs).LapsesAt fun d l => ∃ c ∈ flatNodes pairs, R c d l := by
  unfold entriesOf
  unfold flatNodes at hb ⊢
  cases hflat : flatPairs pairs with
  | error e =>
    have hdoc := flatPairs_answered pairs e hflat
    apply (Built.LapsesAt.fault _ _ hdoc).of_never
    intro d l h
    obtain ⟨c, hc, -⟩ := h
    cases hc
  | ok flat =>
    rw [hflat] at hb
    simp only [exists_mem_ofPairs]
    refine Built.LapsesAt.each fun p hp => ?_
    exact ((hb p.1 (mem_ofPairs hp).1).keyOf depth).both (hb p.2 (mem_ofPairs hp).2) Prod.mk

/-- The lapses of a list of single pairs are those of the pairs before the first item that is none.
-/
theorem pairItems_lapsesAt (depth : Nat) {items : List Node}
    (hb : ∀ c ∈ ofPairs (leadingPairs items), (b c).LapsesAt (R c)) :
    (pairItems depth b items).LapsesAt fun d l =>
      ∃ c ∈ ofPairs (leadingPairs items), R c d l := by
  simp only [exists_mem_ofPairs]
  induction items using leadingPairs.induct with
  | case1 t k v ns ih =>
    rw [leadingPairs] at hb ⊢
    have hk := hb k List.mem_cons_self
    have hv := hb v (List.mem_cons_of_mem _ List.mem_cons_self)
    have hns := ih fun c hc => hb c (List.mem_cons_of_mem _ (List.mem_cons_of_mem _ hc))
    rw [pairItems]
    refine ((hk.both hv fun k v => .list [k, v]).both hns List.cons).congr fun d l => ?_
    simp only [List.mem_cons, exists_eq_or_imp]
  | case2 items hother =>
    rw [leadingPairs.eq_2 items hother]
    have none (d : Nat) (l : Lapse) : ¬ ∃ p ∈ ([] : List (Node × Node)), R p.1 d l ∨ R p.2 d l := by
      intro h
      obtain ⟨p, hp, -⟩ := h
      cases hp
    cases items with
    | nil => exact (Built.LapsesAt.pure []).of_never none
    | cons n ns =>
      rw [pairItems.eq_3 depth b n ns fun t k v h => hother t k v ns (congrArg (· :: ns) h)]
      exact (Built.LapsesAt.fault _ _ rfl).of_never none

/-! ## Values of nodes -/

/-- A node without children that is read as a scalar. -/
theorem single_lapsesAt {n : Node} (hchildren : n.children = []) (depth : Nat) :
    (match n.scalarData n.tag with
      | .ok d => Built.pure d
      | .error e => Built.fault (.scalar .null) depth e).LapsesAt (n.StepLapse R depth) := by
  have hown := scalarData_lapsesIn n
  cases hread : n.scalarData n.tag with
  | ok s =>
    apply (Built.LapsesAt.pure s).of_never
    intro d l h
    rcases h with ⟨-, hl⟩ | ⟨c, hc, -⟩
    · cases hread.symm.trans (hown.lapses l hl)
    · rw [hchildren] at hc
      cases hc
  | error e =>
    constructor
    · intro f hf
      rw [List.mem_singleton.mp hf]
      exact (hown.fails e hread).imp_right
        (.imp_right fun ⟨l, hl, h⟩ => ⟨l, hl, .inl ⟨rfl, h⟩⟩)
    · intro d l h
      rcases h with ⟨rfl, hl⟩ | ⟨c, hc, -⟩
      · cases hread.symm.trans (hown.lapses l hl)
        exact List.mem_cons_self
      · rw [hchildren] at hc
        cases hc

/-- The tags under which a text can lapse. -/
def canLapse : Tag → Bool
  | .flag | .whole | .real _ | .time => true
  | _ => false

/-- The tags whose values can lapse are known beforehand. -/
theorem OwnLapse.canLapse {n : Node} {l : Lapse} (h : n.OwnLapse l) : canLapse n.tag = true := by
  cases h with
  | scalar h => cases h <;> rfl
  | default htext htag h => cases h <;> rfl
  | time htext => rfl

/-- A node whose value is made from those of its children. -/
theorem made_lapsesAt {n : Node} {x : Built Data} {depth : Nat} (htag : canLapse n.tag = false)
    (hx : x.LapsesAt fun d l => ∃ c ∈ n.children, R c d l) :
    x.LapsesAt (n.StepLapse R depth) := by
  apply hx.congr
  intro d l
  constructor
  · exact .inr
  · intro h
    rcases h with ⟨-, hl⟩ | hc
    · cases htag.symm.trans hl.canLapse
    · exact hc

/-- A node that has no value. -/
theorem refused_lapsesAt {n : Node} {depth : Nat} (htag : canLapse n.tag = false)
    (hchildren : n.children = []) (depth' : Nat) :
    (Built.fault (Data.scalar .null) depth' badValue).LapsesAt (n.StepLapse R depth) := by
  apply made_lapsesAt htag
  rw [hchildren]
  apply (Built.LapsesAt.fault _ _ rfl).of_never
  intro d l h
  obtain ⟨c, hc, -⟩ := h
  cases hc

/-- What the value of a node holds, given what the values one level below it hold. -/
theorem build_succ_lapsesAt (n : Node) (depth fuel : Nat)
    (hparts : ∀ c ∈ n.children, (c.build (depth + 1) fuel).LapsesAt (R c)) :
    (n.build depth (fuel + 1)).LapsesAt (n.StepLapse R depth) := by
  have single (hchildren : n.children = []) := single_lapsesAt (R := R) hchildren depth
  cases n with
  | scalar t cs =>
    cases t with
    | null | flag | whole | real | binary | time | text => exact single rfl
    | list | map | set | omap | pairs | merge | value | other => exact refused_lapsesAt rfl rfl _
  | torn t points =>
    cases t with
    | null | flag | whole | real | binary | time | text => exact single rfl
    | list | map | set | omap | pairs | merge | value | other => exact refused_lapsesAt rfl rfl _
  | list t items =>
    cases t with
    | null | flag | whole | real | binary | time | text => exact single rfl
    | map | set | merge | value | other => exact refused_lapsesAt rfl rfl _
    | list => exact made_lapsesAt rfl ((Built.LapsesAt.each hparts).map _)
    | omap => exact made_lapsesAt rfl ((pairItems_lapsesAt _ hparts).map _)
    | pairs => exact made_lapsesAt rfl ((pairItems_lapsesAt _ hparts).map _)
  | map t pairs =>
    cases t with
    | null | flag | whole | real | binary | time | text => exact single rfl
    | list | omap | pairs | merge | value | other => exact refused_lapsesAt rfl rfl _
    | map => exact made_lapsesAt rfl ((entriesOf_lapsesAt (depth + 1) hparts).map fun es =>
        Data.map (Entries.ofList es))
    | set => exact made_lapsesAt rfl ((entriesOf_lapsesAt (depth + 1) hparts).map fun es =>
        Data.set (Scalar.distinct (es.map Prod.fst)))
  | back anchor => exact refused_lapsesAt rfl rfl _

end Steps

/-- The value of a node, built with enough fuel, holds the lapses of all parts of the node. -/
theorem build_lapsesAt {n : Node} {fuel : Nat} (hfuel : n.height ≤ fuel) (depth : Nat) :
    (n.build depth fuel).LapsesAt (n.PartLapse depth) := by
  induction fuel generalizing n depth with
  | zero => cases n <;> cases hfuel
  | succ fuel ih =>
    have hparts (c : Node) (hc : c ∈ n.children) :
        (c.build (depth + 1) fuel).LapsesAt (c.PartLapse (depth + 1)) :=
      ih (Nat.le_of_lt_succ (Nat.lt_of_lt_of_le (height_lt_of_mem_children hc) hfuel)) (depth + 1)
    exact (build_succ_lapsesAt n depth fuel hparts).congr fun d l => partLapse_iff.symm

/-- The value of a node lapses when the foremost of its faults is the lapse of a part. -/
theorem toData_lapsesIn (n : Node) :
    LapsesIn n.toData fun l =>
      ∃ d, n.PartLapse 0 d l ∧ Foremost (d, .lapse l) (n.build 0 n.height).faults := by
  have hbuild := build_lapsesAt (Nat.le_refl n.height) 0
  unfold toData Built.result
  constructor
  · intro e he
    split at he
    · cases he
    · next d e' hfirst =>
      cases he
      have hforemost := Built.first?_eq_some_iff.mp hfirst
      obtain hdoc | houtside | ⟨l, rfl, hl⟩ := hbuild.fails _ hforemost.mem
      · exact .inl hdoc
      · exact .inr (.inl houtside)
      · exact .inr (.inr ⟨l, rfl, d, hl, hforemost⟩)
  · intro l h
    obtain ⟨d, -, hforemost⟩ := h
    rw [Built.first?_eq_some_iff.mpr hforemost]

end Node

/-! ## Values of texts -/

/-- A text whose value lapses. Either an escape in it asks for a number beyond all machine words, no
other fault of its tokens is met before, and reading its document comes that far; or the parts of its
document lapse and one of these lapses is foremost among all faults of values. -/
inductive Lapses (text : String) : Lapse → Prop
  | escape (readable : text.toList.all isTextChar = true) (huge : Lexer.HasHugeEscape text.toList)
      (met : (Tokens.ofText text.toList).fault = some (.lapse .tooLarge))
      (asked : Compose.AsksBeyond (Tokens.ofText text.toList).tokens) : Lapses text .tooLarge
  | part {n d l} (node : Node.Composes text.toList n) (hpart : n.PartLapse 0 d l)
      (hfirst : Foremost (d, .lapse l) (n.build 0 n.height).faults) : Lapses text l

/-- A text for which it is described what loading does: its document is a tree, and no torn text and
no shared node stands where it would make a difference that values here cannot show. -/
structure Followed (text : String) : Prop where
  acyclic : Node.Acyclic text.toList
  described : load text ≠ .error .outside

/-- The nodes of a text lapse at an escape beyond all machine words only. -/
theorem compose_lapsesIn (text : List Char) :
    LapsesIn (Node.compose text) fun l => l = .tooLarge ∧ text.all isTextChar = true ∧
      Lexer.HasHugeEscape text ∧ (Tokens.ofText text).fault = some (.lapse .tooLarge) ∧
      Compose.AsksBeyond (Tokens.ofText text).tokens := by
  constructor
  · intro e he
    rcases Node.fault_compose he with rfl | rfl | rfl | ⟨hchars, met, asked⟩
    · exact .inl rfl
    · exact .inl rfl
    · exact .inl rfl
    · cases Lexer.fault_ofText met with
      | badToken => exact .inl rfl
      | noCharacter => exact .inl rfl
      | tooManyDigits _ => exact .inl rfl
      | tooLarge huge => exact .inr (.inr ⟨_, rfl, rfl, hchars, huge, met, asked⟩)
  · rintro l ⟨rfl, hchars, -, met, asked⟩
    exact Node.compose_of_asksBeyond hchars met asked

/-- What is made of the nodes afterwards is refused or not, and never lapses. -/
theorem tree_never (c : Node.Composition) : NeverLapses c.tree := by
  unfold Node.Composition.tree
  split
  · exact .ok none
  · split
    · exact .outside
    · exact .ok _

/-- What stands for a text is looked at for torn texts last. -/
theorem checked_never (d : Data) : NeverLapses
    (if d.isIntactBelow tornLevels then .ok d else .error .outside : Except Failure Data) := by
  split
  · exact .ok d
  · exact .outside

/-- The node of such a text's tokens is the one that its value is made of. -/
theorem Followed.ofText_eq {text : String} {n : Node} (followed : Followed text)
    (h : Node.Composes text.toList n) : Node.ofText text.toList = .ok (some n) := by
  refine h.ofText_eq.resolve_right fun houtside => followed.described ?_
  rw [load, houtside]
  rfl

/-- The value of what stands for a text: null, where nothing does. -/
def ofRoot : Option Node → Except Failure Data
  | none => .ok (.scalar .null)
  | some n => do
    let d ← n.toData
    if d.isIntactBelow tornLevels then return d else throw .outside

theorem load_eq (text : String) : load text = Node.ofText text.toList >>= ofRoot :=
  bind_congr fun root => by cases root <;> rfl

/-- Which roots have a value that lapses. -/
theorem ofRoot_lapsesIn (root : Option Node) :
    LapsesIn (ofRoot root) fun l => ∃ n, root = some n ∧ ∃ d,
      n.PartLapse 0 d l ∧ Foremost (d, .lapse l) (n.build 0 n.height).faults := by
  cases root with
  | none =>
    apply (LapsesIn.ok _).of_never
    intro l h
    obtain ⟨n, ⟨⟩, -⟩ := h
  | some n =>
    refine ((Node.toData_lapsesIn n).bind_left fun d _ => checked_never d).congr fun l =>
      ⟨fun h => ⟨n, rfl, h⟩, ?_⟩
    rintro ⟨_, ⟨⟩, h⟩
    exact h

/-- Which texts have a value that lapses. -/
theorem load_lapsesIn {text : String} (followed : Followed text) :
    LapsesIn (load text) (Lapses text) := by
  have hnode := (compose_lapsesIn text.toList).bind_left fun c _ => tree_never c
  rw [load_eq]
  refine (hnode.bind fun root _ => ofRoot_lapsesIn root).congr fun l => ⟨?_, ?_⟩
  · rintro (⟨rfl, readable, huge, met, asked⟩ | ⟨_, hnode, n, rfl, d, hpart, hfirst⟩)
    · exact .escape readable huge met asked
    · exact .part (Node.composes_of_ofText followed.acyclic hnode) hpart hfirst
  · intro h
    cases h with
    | escape readable huge met asked => exact .inl ⟨rfl, readable, huge, met, asked⟩
    | part node hpart hfirst =>
      exact .inr ⟨_, followed.ofText_eq node, _, rfl, _, hpart, hfirst⟩

end OpeningHand.Yaml
