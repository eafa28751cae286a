import OpeningHand.Proofs.Result
import OpeningHand.Yaml.Node

/-!
# Documents that are trees

An alias may name a node that it is part of. Such a document goes on for ever, and what stands below
its last unrolled level is not what it holds, so the laws of values are about documents in which
every alias names another node. These are trees: unrolling leaves them as they are
(`unroll_of_acyclic`), and the node that the tokens make is the one that the document stands for.
-/

namespace OpeningHand.Yaml.Node

variable {text : List Char} {n : Node}

mutual

/-- Without references back, there is nothing to replace. -/
theorem unroll_of_acyclic (replace : List Char → Node) :
    ∀ n : Node, n.hasBack = false → n.unroll replace = n
  | .scalar _ _, _ => rfl
  | .torn _ _, _ => rfl
  | .list t items, h => congrArg (list t) (unrollItems_of_acyclic replace items h)
  | .map t pairs, h => congrArg (map t) (unrollPairs_of_acyclic replace pairs h)
  | .back _, h => nomatch h

theorem unrollItems_of_acyclic (replace : List Char → Node) :
    ∀ ns : List Node, hasBackItems ns = false → unrollItems replace ns = ns
  | [], _ => rfl
  | n :: ns, h => by
    obtain ⟨hn, hns⟩ := Bool.or_eq_false_iff.mp h
    rw [unrollItems, unroll_of_acyclic replace n hn, unrollItems_of_acyclic replace ns hns]

theorem unrollPairs_of_acyclic (replace : List Char → Node) :
    ∀ ps : List (Node × Node), hasBackPairs ps = false → unrollPairs replace ps = ps
  | [], _ => rfl
  | (k, v) :: ps, h => by
    obtain ⟨hkv, hps⟩ := Bool.or_eq_false_iff.mp h
    obtain ⟨hk, hv⟩ := Bool.or_eq_false_iff.mp hkv
    rw [unrollPairs, unroll_of_acyclic replace k hk, unroll_of_acyclic replace v hv,
      unrollPairs_of_acyclic replace ps hps]

end

/-- The tokens of a text make this node, and no alias in it names a node that the alias is part of. -/
structure Composes (text : List Char) (n : Node) : Prop where
  composed : ∃ c, compose text = .ok c ∧ c.root = some n
  acyclic : n.hasBack = false

/-- No alias in the document of a text, if it has one, names a node that the alias is part of. -/
def Acyclic (text : List Char) : Prop :=
  ∀ c n, compose text = .ok c → c.root = some n → n.hasBack = false

/-- The tree of a document is its node, unless it is not described what the node stands for. -/
theorem tree_of_acyclic {c : Composition} (hroot : c.root = some n) (acyclic : n.hasBack = false) :
    c.tree = if c.aliased && n.isKnotted then .error .outside else .ok (some n) := by
  rw [Composition.tree, hroot]
  dsimp only
  rw [unroll_of_acyclic _ n acyclic]

theorem Composes.ofText_eq (h : Composes text n) :
    ofText text = .ok (some n) ∨ ofText text = .error .outside := by
  obtain ⟨⟨c, hcompose, hroot⟩, acyclic⟩ := h
  rw [ofText, hcompose]
  show c.tree = _ ∨ c.tree = _
  rw [tree_of_acyclic hroot acyclic]
  split
  · exact .inr rfl
  · exact .inl rfl

/-- Of a text without references back, the node that is found is composed of the tokens. -/
theorem composes_of_ofText (acyclic : Acyclic text) (h : ofText text = .ok (some n)) :
    Composes text n := by
  obtain ⟨c, hcompose, htree⟩ := bind_eq_ok.mp h
  cases hroot : c.root with
  | none =>
    rw [Composition.tree, hroot] at htree
    cases htree
  | some root =>
    rw [tree_of_acyclic hroot (acyclic c root hcompose hroot)] at htree
    split at htree
    · cases htree
    · cases htree
      exact ⟨⟨c, hcompose, hroot⟩, acyclic c n hcompose hroot⟩

end OpeningHand.Yaml.Node
