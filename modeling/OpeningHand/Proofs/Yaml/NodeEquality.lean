import OpeningHand.Yaml.Node

/-!
# Equality of nodes

Equality of nodes is decidable, part by part, so that the node of a given text can be told by
computing it.
-/

namespace OpeningHand.Yaml.Node

mutual

/-- Two nodes have the same tags, texts and parts. -/
def same : Node → Node → Bool
  | .scalar t cs, .scalar t' cs' => t = t' && cs = cs'
  | .torn t ps, .torn t' ps' => t = t' && ps = ps'
  | .list t items, .list t' items' => t = t' && sameItems items items'
  | .map t pairs, .map t' pairs' => t = t' && samePairs pairs pairs'
  | .back name, .back name' => name = name'
  | _, _ => false

/-- `same` on items. -/
def sameItems : List Node → List Node → Bool
  | [], [] => true
  | n :: ns, n' :: ns' => n.same n' && sameItems ns ns'
  | _, _ => false

/-- `same` on pairs. -/
def samePairs : List (Node × Node) → List (Node × Node) → Bool
  | [], [] => true
  | (k, v) :: ps, (k', v') :: ps' => k.same k' && v.same v' && samePairs ps ps'
  | _, _ => false

end

mutual

theorem eq_of_same : ∀ {n n' : Node}, n.same n' = true → n = n'
  | .scalar _ _, .scalar _ _, h => by
    simp only [same, Bool.and_eq_true, decide_eq_true_eq] at h
    rw [h.1, h.2]
  | .torn _ _, .torn _ _, h => by
    simp only [same, Bool.and_eq_true, decide_eq_true_eq] at h
    rw [h.1, h.2]
  | .list _ _, .list _ _, h => by
    simp only [same, Bool.and_eq_true, decide_eq_true_eq] at h
    rw [h.1, eq_of_sameItems h.2]
  | .map _ _, .map _ _, h => by
    simp only [same, Bool.and_eq_true, decide_eq_true_eq] at h
    rw [h.1, eq_of_samePairs h.2]
  | .back _, .back _, h => congrArg Node.back (of_decide_eq_true h)

theorem eq_of_sameItems : ∀ {ns ns' : List Node}, sameItems ns ns' = true → ns = ns'
  | [], [], _ => rfl
  | _ :: _, _ :: _, h => by
    rw [sameItems, Bool.and_eq_true] at h
    rw [eq_of_same h.1, eq_of_sameItems h.2]

theorem eq_of_samePairs : ∀ {ps ps' : List (Node × Node)}, samePairs ps ps' = true → ps = ps'
  | [], [], _ => rfl
  | (_, _) :: _, (_, _) :: _, h => by
    simp only [samePairs, Bool.and_eq_true] at h
    rw [eq_of_same h.1.1, eq_of_same h.1.2, eq_of_samePairs h.2]

end

mutual

theorem same_self : ∀ n : Node, n.same n = true
  | .scalar _ _ => by simp [same]
  | .torn _ _ => by simp [same]
  | .list _ items => by simp [same, sameItems_self items]
  | .map _ pairs => by simp [same, samePairs_self pairs]
  | .back _ => by simp [same]

theorem sameItems_self : ∀ ns : List Node, sameItems ns ns = true
  | [] => rfl
  | n :: ns => by rw [sameItems, same_self n, sameItems_self ns]; rfl

theorem samePairs_self : ∀ ps : List (Node × Node), samePairs ps ps = true
  | [] => rfl
  | (k, v) :: ps => by rw [samePairs, same_self k, same_self v, samePairs_self ps]; rfl

end

instance : DecidableEq Node := fun n n' =>
  decidable_of_iff (n.same n' = true) ⟨eq_of_same, fun h => h ▸ same_self n⟩

end OpeningHand.Yaml.Node
