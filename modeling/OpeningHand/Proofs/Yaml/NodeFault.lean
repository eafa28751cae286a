import OpeningHand.Proofs.Result
import OpeningHand.Proofs.Yaml.TokenFault
import OpeningHand.Yaml.Node

/-!
# Faults of nodes

Which failures reading the node of a text can end with: the tokens stand in an order that no
document has, an anchor or a document is wrong, or a fault of the tokens themselves is met. The steps
of the reading see that fault only where the tokens end. `Ends` tells how a step ends whatever the
fault is, and `Keeps` that it always ends so, with a law for each way that steps are put together;
the steps that read nodes call each other, so their laws are one induction on the fuel. Which texts
meet the fault of their tokens is then a matter of the tokens alone (`AsksBeyond`).
-/

namespace OpeningHand.Yaml

/-- A composer with another fault after its tokens. -/
def Composer.before (fault : Option Failure) (c : Composer) : Composer := { c with fault := fault }

namespace Compose

/-- How a step ends, whatever fault comes after the tokens: it goes on, it fails by itself, or it asks
for the token after the last one. -/
inductive Ends {α : Type} (m : Compose α) (c : Composer) : Prop
  | done (a : α) (c' : Composer) (h : ∀ fault, m.run (c.before fault) = .ok (a, c'.before fault))
  | refused (e : Failure) (own : e = badOrder ∨ e = badReference)
      (h : ∀ fault, m.run (c.before fault) = .error e)
  | asked (h : ∀ fault, m.run (c.before fault) = .error (fault.getD badOrder))

/-- A step that treats the fault after the tokens so wherever it starts. -/
def Keeps {α : Type} (m : Compose α) : Prop := ∀ c, Ends m c

variable {α β : Type}

/-- Answering takes no tokens. -/
theorem keeps_pure (a : α) : Keeps (pure a : Compose α) :=
  fun c => .done a c fun _ => rfl

/-- Of two steps, the second is left without tokens only where the first leaves it without. -/
theorem keeps_bind {m : Compose α} {f : α → Compose β} (hm : Keeps m) (hf : ∀ a, Keeps (f a)) :
    Keeps (m >>= f) := by
  intro c
  cases hm c with
  | done a c' h =>
    have hnext (fault : Option Failure) :
        (m >>= f).run (c.before fault) = (f a).run (c'.before fault) := by
      rw [StateT.run_bind, h]
      rfl
    cases hf a c' with
    | done b c'' h' => exact .done b c'' fun fault => (hnext fault).trans (h' fault)
    | refused e own h' => exact .refused e own fun fault => (hnext fault).trans (h' fault)
    | asked h' => exact .asked fun fault => (hnext fault).trans (h' fault)
  | refused e own h =>
    refine .refused e own fun fault => ?_
    rw [StateT.run_bind, h]
    rfl
  | asked h =>
    refine .asked fun fault => ?_
    rw [StateT.run_bind, h]
    rfl

/-- What is done with the state must not look at the fault. -/
theorem keeps_get {f : Composer → Compose β} (hf : ∀ c, Keeps (f c))
    (blind : ∀ c fault, f (c.before fault) = f c) : Keeps (get >>= f) := by
  intro c
  have hnext (fault : Option Failure) :
      (get >>= f).run (c.before fault) = (f c).run (c.before fault) := by
    show (f (c.before fault)).run (c.before fault) = _
    rw [blind]
  cases hf c c with
  | done b c' h => exact .done b c' fun fault => (hnext fault).trans (h fault)
  | refused e own h => exact .refused e own fun fault => (hnext fault).trans (h fault)
  | asked h => exact .asked fun fault => (hnext fault).trans (h fault)

/-- A change to the anchors or the handles is the same whatever fault is to come. -/
theorem keeps_modify {f : Composer → Composer}
    (hf : ∀ c fault, f (c.before fault) = (f c).before fault) :
    Keeps (modify f : Compose PUnit) :=
  fun c => .done ⟨⟩ (f c) fun fault => congrArg (fun c' => Except.ok (PUnit.unit, c')) (hf c fault)

/-- Refusing the order of tokens needs no more of them. -/
theorem keeps_badOrder : Keeps (throw badOrder : Compose α) :=
  fun _ => .refused _ (.inl rfl) fun _ => rfl

theorem keeps_badReference : Keeps (throw badReference : Compose α) :=
  fun _ => .refused _ (.inr rfl) fun _ => rfl

theorem keeps_ite {p : Prop} [Decidable p] {m n : Compose α} (hm : Keeps m) (hn : Keeps n) :
    Keeps (if p then m else n) := by
  split
  · exact hm
  · exact hn

/-- The fault of the tokens is met where they end. -/
theorem keeps_peek : Keeps peek := by
  intro c
  obtain ⟨rest, fault, anchors, handles⟩ := c
  cases rest with
  | nil => exact .asked fun _ => rfl
  | cons t rest => exact .done t ⟨t :: rest, fault, anchors, handles⟩ fun _ => rfl

/-- Taking a token comes only after looking at one. -/
theorem keeps_take : Keeps take :=
  keeps_modify fun _ _ => rfl

/-! ## Parts of nodes -/

/-- A handle stands for something or is refused, by what is known of handles. -/
theorem keeps_tagName (handle : Option (List Char)) (suffix : List Char) :
    Keeps (tagName handle suffix) := by
  cases handle with
  | none => exact keeps_pure _
  | some handle =>
    refine keeps_get (fun c => ?_) fun _ _ => rfl
    split
    · exact keeps_pure _
    · exact keeps_badOrder

/-- A node may have an anchor and a tag, in either order. -/
theorem keeps_marks : Keeps marks := by
  refine keeps_bind keeps_peek fun t => ?_
  split
  · refine keeps_bind keeps_take fun _ => keeps_bind keeps_peek fun t => ?_
    split
    · exact keeps_bind keeps_take fun _ => keeps_bind (keeps_tagName _ _) fun _ => keeps_pure _
    · exact keeps_pure _
  · refine keeps_bind keeps_take fun _ => keeps_bind keeps_peek fun t => ?_
    split
    · exact keeps_bind keeps_take fun _ => keeps_bind (keeps_tagName _ _) fun _ => keeps_pure _
    · exact keeps_bind (keeps_tagName _ _) fun _ => keeps_pure _
  · exact keeps_pure _

/-- An anchor is open while its node is read, so that aliases inside are known for such. -/
theorem keeps_openAnchor (anchor : Option (List Char)) : Keeps (openAnchor anchor) := by
  cases anchor with
  | none => exact keeps_pure _
  | some name =>
    exact keeps_get (fun c => keeps_ite keeps_badReference (keeps_modify fun _ _ => rfl))
      fun _ _ => rfl

/-- Then it stands for the node. -/
theorem keeps_close (anchor : Option (List Char)) (n : Node) : Keeps (close anchor n) := by
  refine keeps_get (fun c => ?_) fun _ _ => rfl
  cases anchor with
  | none => exact keeps_pure _
  | some name => exact keeps_bind (keeps_modify fun _ _ => rfl) fun _ => keeps_pure _

/-- An alias is refused if its anchor is not known. -/
theorem keeps_aliased (name : List Char) : Keeps (aliased name) := by
  refine keeps_get (fun c => ?_) fun _ _ => rfl
  split
  · exact keeps_badReference
  · exact keeps_pure _
  · exact keeps_pure _

/-- The comma before every part but the first of a flow collection. -/
theorem keeps_comma {rest : PUnit → Compose α} (h : ∀ u, Keeps (rest u)) (isFirst : Bool) :
    Keeps (if (!isFirst) = true then
        peek >>= fun t => if t = .flowEntry then take >>= rest else throw badOrder >>= rest
      else rest ()) :=
  keeps_ite
    (keeps_bind keeps_peek fun _ => keeps_ite (keeps_bind keeps_take h) (keeps_bind keeps_badOrder h))
    (h ())

/-! ## Nodes -/

mutual

/-- The composing of a node, of what is in it, and back: the induction is on the fuel, one law for
each procedure. -/
theorem keeps_node (block indentless : Bool) : ∀ fuel : Nat, Keeps (node block indentless fuel)
  | 0 => keeps_badOrder
  | fuel + 1 => by
    unfold node
    refine keeps_bind keeps_peek fun t => ?_
    split
    · exact keeps_bind keeps_take fun _ => keeps_aliased _
    · refine keeps_bind keeps_marks fun m => keeps_bind keeps_peek fun t => ?_
      split
      · exact keeps_bind keeps_take fun _ => keeps_bind (keeps_openAnchor _) fun _ =>
          keeps_close _ _
      · exact keeps_bind keeps_take fun _ => keeps_bind (keeps_openAnchor _) fun _ =>
          keeps_close _ _
      · exact keeps_bind (keeps_openAnchor _) fun _ => keeps_bind keeps_take fun _ =>
          keeps_bind (keeps_flowItems _ fuel) fun _ => keeps_close _ _
      · exact keeps_bind (keeps_openAnchor _) fun _ => keeps_bind keeps_take fun _ =>
          keeps_bind (keeps_flowPairs _ fuel) fun _ => keeps_close _ _
      · refine keeps_ite ?_ (keeps_ite ?_ (keeps_ite ?_ (keeps_ite ?_ keeps_badOrder)))
        · exact keeps_bind (keeps_openAnchor _) fun _ =>
            keeps_bind (keeps_blockItems _ fuel) fun _ => keeps_close _ _
        · exact keeps_bind (keeps_openAnchor _) fun _ => keeps_bind keeps_take fun _ =>
            keeps_bind (keeps_blockItems _ fuel) fun _ => keeps_close _ _
        · exact keeps_bind (keeps_openAnchor _) fun _ => keeps_bind keeps_take fun _ =>
            keeps_bind (keeps_blockPairs fuel) fun _ => keeps_close _ _
        · exact keeps_bind (keeps_openAnchor _) fun _ => keeps_close _ _

theorem keeps_blockItems (indentless : Bool) : ∀ fuel : Nat, Keeps (blockItems indentless fuel)
  | 0 => keeps_badOrder
  | fuel + 1 => by
    have more (item : Node) : Keeps (do return item :: (← blockItems indentless fuel)) :=
      keeps_bind (keeps_blockItems indentless fuel) fun _ => keeps_pure _
    unfold blockItems
    refine keeps_bind keeps_peek fun t => ?_
    split
    · refine keeps_bind keeps_take fun _ => keeps_bind keeps_peek fun t => keeps_ite ?_ ?_
      · exact keeps_bind (keeps_pure _) more
      · exact keeps_bind (keeps_node _ _ fuel) more
    · exact keeps_ite (keeps_pure _)
        (keeps_ite (keeps_bind keeps_take fun _ => keeps_pure _) keeps_badOrder)

theorem keeps_blockPairs : ∀ fuel : Nat, Keeps (blockPairs fuel)
  | 0 => keeps_badOrder
  | fuel + 1 => by
    have more (key value : Node) : Keeps (do return (key, value) :: (← blockPairs fuel)) :=
      keeps_bind (keeps_blockPairs fuel) fun _ => keeps_pure _
    unfold blockPairs
    refine keeps_bind keeps_peek fun t => ?_
    split
    · refine keeps_bind keeps_take fun _ => ?_
      extract_lets afterKey
      have hafter (key : Node) : Keeps (afterKey key) := by
        refine keeps_bind keeps_peek fun t => ?_
        split
        · refine keeps_bind keeps_take fun _ => keeps_bind keeps_peek fun t => keeps_ite ?_ ?_
          · exact keeps_bind (keeps_pure _) (more key)
          · exact keeps_bind (keeps_node _ _ fuel) (more key)
        · exact keeps_bind (keeps_pure _) (more key)
      refine keeps_bind keeps_peek fun t => keeps_ite ?_ ?_
      · exact keeps_bind (keeps_pure _) hafter
      · exact keeps_bind (keeps_node _ _ fuel) hafter
    · exact keeps_bind keeps_take fun _ => keeps_pure _
    · exact keeps_badOrder

theorem keeps_flowValue (closing : Token) : ∀ fuel : Nat, Keeps (flowValue closing fuel)
  | 0 => keeps_badOrder
  | fuel + 1 => by
    unfold flowValue
    refine keeps_bind keeps_peek fun t => ?_
    split
    · refine keeps_bind keeps_take fun _ => keeps_bind keeps_peek fun t => ?_
      exact keeps_ite (keeps_pure _) (keeps_node _ _ fuel)
    · exact keeps_pure _

theorem keeps_flowPair (closing : Token) : ∀ fuel : Nat, Keeps (flowPair closing fuel)
  | 0 => keeps_badOrder
  | fuel + 1 => by
    have more (key : Node) : Keeps (do return (key, ← flowValue closing fuel)) :=
      keeps_bind (keeps_flowValue closing fuel) fun _ => keeps_pure _
    unfold flowPair
    refine keeps_bind keeps_peek fun t => keeps_ite ?_ ?_
    · exact keeps_bind (keeps_pure _) more
    · exact keeps_bind (keeps_node _ _ fuel) more

theorem keeps_flowItems (isFirst : Bool) : ∀ fuel : Nat, Keeps (flowItems isFirst fuel)
  | 0 => keeps_badOrder
  | fuel + 1 => by
    have more (item : Node) : Keeps (do return item :: (← flowItems false fuel)) :=
      keeps_bind (keeps_flowItems false fuel) fun _ => keeps_pure _
    unfold flowItems
    refine keeps_bind keeps_peek fun t => keeps_ite ?_ ?_
    · exact keeps_bind keeps_take fun _ => keeps_pure _
    · extract_lets afterComma
      have hafter (u : PUnit) : Keeps (afterComma u) := by
        refine keeps_bind keeps_peek fun t => ?_
        split
        · exact keeps_bind keeps_take fun _ => keeps_bind (keeps_flowPair _ fuel) fun _ => more _
        · exact keeps_bind keeps_take fun _ => keeps_pure _
        · exact keeps_bind (keeps_node _ _ fuel) more
      exact keeps_comma hafter isFirst

theorem keeps_flowPairs (isFirst : Bool) : ∀ fuel : Nat, Keeps (flowPairs isFirst fuel)
  | 0 => keeps_badOrder
  | fuel + 1 => by
    have more (pair : Node × Node) : Keeps (do return pair :: (← flowPairs false fuel)) :=
      keeps_bind (keeps_flowPairs false fuel) fun _ => keeps_pure _
    unfold flowPairs
    refine keeps_bind keeps_peek fun t => keeps_ite ?_ ?_
    · exact keeps_bind keeps_take fun _ => keeps_pure _
    · extract_lets afterComma
      have hafter (u : PUnit) : Keeps (afterComma u) := by
        refine keeps_bind keeps_peek fun t => ?_
        split
        · exact keeps_bind keeps_take fun _ => keeps_bind (keeps_flowPair _ fuel) more
        · exact keeps_bind keeps_take fun _ => keeps_pure _
        · exact keeps_bind (keeps_node _ _ fuel) fun _ => more _
      exact keeps_comma hafter isFirst

end

/-! ## Documents -/

/-- Directives stand before a document, each handle at most once. -/
theorem keeps_directives (fuel : Nat) (hasVersion : Bool)
    (handles : List (List Char × List Char)) : Keeps (directives hasVersion handles fuel) := by
  induction fuel generalizing hasVersion handles with
  | zero => exact keeps_badOrder
  | succ fuel ih =>
    unfold directives
    refine keeps_bind keeps_peek fun t => ?_
    split
    · refine keeps_bind keeps_take fun _ => ?_
      split
      · exact keeps_ite keeps_badOrder (ih _ _)
      · exact keeps_ite keeps_badOrder (ih _ _)
      · exact ih _ _
    · exact keeps_pure _

theorem keeps_passEnds (fuel : Nat) : Keeps (passEnds fuel) := by
  induction fuel with
  | zero => exact keeps_pure _
  | succ fuel ih =>
    unfold passEnds
    refine keeps_bind keeps_peek fun t => ?_
    split
    · exact keeps_bind keeps_take fun _ => ih
    · exact keeps_pure _

theorem keeps_documentStart (fuel : Nat) : Keeps (documentStart fuel) := by
  refine keeps_bind (keeps_passEnds fuel) fun _ => keeps_bind keeps_peek fun t => ?_
  split
  · exact keeps_pure _
  · refine keeps_bind (keeps_directives fuel _ _) fun _ => keeps_bind keeps_peek fun t => ?_
    split
    · exact keeps_bind keeps_take fun _ => keeps_bind (keeps_modify fun _ _ => rfl) fun _ =>
        keeps_pure _
    · exact keeps_badOrder

/-- A document may be empty. -/
theorem keeps_documentContent (fuel : Nat) : Keeps (documentContent fuel) := by
  refine keeps_bind keeps_peek fun t => ?_
  split
  · exact keeps_pure _
  · exact keeps_pure _
  · exact keeps_pure _
  · exact keeps_pure _
  · exact keeps_node _ _ fuel

/-- A second document is refused, so the tokens are read to their end. -/
theorem keeps_onlyDocument (fuel : Nat) : Keeps (onlyDocument fuel) := by
  unfold onlyDocument
  extract_lets afterRoot
  have hafter (root : Option Node) : Keeps (afterRoot root) := by
    have last (root : Option Node) : Keeps (do
        if ← documentStart fuel then throw badReference
        return root) :=
      keeps_bind (keeps_documentStart fuel) fun _ =>
        keeps_ite (keeps_bind keeps_badReference fun _ => keeps_pure _) (keeps_pure _)
    refine keeps_ite ?_ (last root)
    refine keeps_bind keeps_peek fun t => ?_
    split
    · exact keeps_bind keeps_take fun _ => last root
    · exact last root
  refine keeps_bind keeps_peek fun t => ?_
  split
  · exact keeps_bind (keeps_pure _) hafter
  · exact keeps_bind (keeps_documentStart fuel) fun _ => keeps_ite
      (keeps_bind (keeps_documentContent fuel) fun _ => keeps_bind (keeps_pure _) hafter)
      (keeps_bind (keeps_pure _) hafter)
  · exact keeps_bind (keeps_documentStart fuel) fun _ => keeps_ite
      (keeps_bind (keeps_documentContent fuel) fun _ => keeps_bind (keeps_pure _) hafter)
      (keeps_bind (keeps_pure _) hafter)
  · exact keeps_bind (keeps_modify fun _ _ => rfl) fun _ =>
      keeps_bind (keeps_node _ _ fuel) fun _ => keeps_bind (keeps_pure _) hafter

/-- Reading the document of some tokens asks for a token after the last of them: whatever fault
stands there is the answer. -/
def AsksBeyond (ts : List Token) : Prop :=
  ∀ e, (onlyDocument (8 * ts.length + 8)).run ⟨ts, some e, [], []⟩ = .error e

/-- Tokens that are refused by themselves, or beyond which the reading asks. -/
theorem run_onlyDocument_eq_error {ts : List Token} {fault : Option Failure} {e : Failure}
    (h : (onlyDocument (8 * ts.length + 8)).run ⟨ts, fault, [], []⟩ = .error e) :
    e = badOrder ∨ e = badReference ∨ fault = some e ∧ AsksBeyond ts := by
  cases keeps_onlyDocument (8 * ts.length + 8) ⟨ts, fault, [], []⟩ with
  | done root c' hrun => cases (hrun fault).symm.trans h
  | refused e' own hrun =>
    cases (hrun fault).symm.trans h
    exact own.imp_right .inl
  | asked hrun =>
    cases fault with
    | none =>
      cases (hrun none).symm.trans h
      exact .inl rfl
    | some e' =>
      cases (hrun (some e')).symm.trans h
      exact .inr (.inr ⟨rfl, fun e => hrun (some e)⟩)

end Compose

namespace Node

/-- A text whose node cannot be read has a character that no YAML text holds, or fails in one of the
ways that nodes have, or else the reading meets the fault of its tokens. -/
theorem fault_compose {text : List Char} {e : Failure} (h : compose text = .error e) :
    e = .yaml .characters ∨ e = Compose.badOrder ∨ e = Compose.badReference ∨
      (text.all isTextChar = true ∧ (Tokens.ofText text).fault = some e ∧
        Compose.AsksBeyond (Tokens.ofText text).tokens) := by
  unfold compose at h
  split at h
  · cases h
    exact .inl rfl
  · next hchars =>
    dsimp only at h
    split at h
    · cases h
    · next e' hrun =>
      cases h
      rcases Compose.run_onlyDocument_eq_error hrun with horder | href | hfault
      · exact .inr (.inl horder)
      · exact .inr (.inr (.inl href))
      · exact .inr (.inr (.inr ⟨by simpa using hchars, hfault⟩))

/-- Where the reading of the tokens asks beyond them, it ends with their fault. -/
theorem compose_of_asksBeyond {text : List Char} {e : Failure} (hchars : text.all isTextChar = true)
    (met : (Tokens.ofText text).fault = some e)
    (asked : Compose.AsksBeyond (Tokens.ofText text).tokens) : compose text = .error e := by
  rw [compose, hchars]
  simp only [Bool.not_true, Bool.false_eq_true, if_false, met, asked e]

end Node

end OpeningHand.Yaml
