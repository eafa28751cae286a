import OpeningHand.Proofs.Result
import OpeningHand.Proofs.Yaml.Tree
import OpeningHand.Proofs.Yaml.Written.Numbers
import OpeningHand.Proofs.Yaml.Written.Outlines
import OpeningHand.Yaml.Value

/-!
# Nodes of written outlines

The tokens of an outline are composed to the node that says the same (`Outline.node`), with a tag
for each value by the form that it was written in. No anchors are involved, so a step of composing
is told by the tokens it takes off and what it hands out (`Gives`), and steps chain by the tokens
that one leaves for the next.
-/

namespace OpeningHand

open Yaml Yaml.Writer

/-! ## The nodes of outlines -/

namespace Outline

mutual

/-- The node that an outline is read as. -/
def node : Outline → Node
  | .text s => .scalar .text s.toList
  | .number n => .scalar .whole (Text.decimalDigits n)
  | .flag b => .scalar .flag (if b then "true" else "false").toList
  | .list items => .list .list (itemNodes items)
  | .record entries => .map .map (entryNodes entries)

/-- The nodes of items. -/
def itemNodes : List Outline → List Node
  | [] => []
  | o :: os => o.node :: itemNodes os

/-- The nodes of entries, in pairs. -/
def entryNodes : List (String × Outline) → List (Node × Node)
  | [] => []
  | (name, o) :: es => (.scalar .text name.toList, o.node) :: entryNodes es

end

end Outline

namespace Yaml.Node

mutual

/-- Nothing in the node of an outline is a reference back, or could be seen to be shared. -/
theorem plain_node : ∀ o : Outline, o.node.hasBack = false ∧ o.node.isKnotted = false
  | .text _ => ⟨rfl, rfl⟩
  | .number _ => ⟨rfl, rfl⟩
  | .flag _ => ⟨rfl, rfl⟩
  | .list os => plain_itemNodes os
  | .record es => plain_entryNodes es

/-- `plain_node` on items. -/
theorem plain_itemNodes : ∀ os : List Outline,
    hasBackItems (Outline.itemNodes os) = false ∧ isKnottedItems (Outline.itemNodes os) = false
  | [] => ⟨rfl, rfl⟩
  | o :: os => by
    obtain ⟨ho, ho'⟩ := plain_node o
    obtain ⟨hos, hos'⟩ := plain_itemNodes os
    rw [Outline.itemNodes, hasBackItems, isKnottedItems, ho, ho', hos, hos']
    exact ⟨rfl, rfl⟩

theorem plain_entryNodes : ∀ es : List (String × Outline),
    hasBackPairs (Outline.entryNodes es) = false ∧ isKnottedPairs (Outline.entryNodes es) = false
  | [] => ⟨rfl, rfl⟩
  | (name, o) :: es => by
    obtain ⟨ho, ho'⟩ := plain_node o
    obtain ⟨hes, hes'⟩ := plain_entryNodes es
    rw [Outline.entryNodes, hasBackPairs, isKnottedPairs, ho, ho', hes, hes']
    exact ⟨rfl, rfl⟩

end

end Yaml.Node

/-! ## Steps of composing -/

namespace Yaml.Compose

variable {α β : Type} {m : Compose α} {ts ts' rest rest' : List Token} {t : Token} {fuel : Nat}
  {indentless : Bool}

/-- Where no anchors are noted, a step takes the tokens before `rest`, hands out a value and notes
nothing. -/
def Gives (m : Compose α) (ts : List Token) (a : α) (rest : List Token) : Prop :=
  ∀ handles : List (List Char × List Char),
    m.run ⟨ts, none, [], handles⟩ = .ok (a, ⟨rest, none, [], handles⟩)

/-- Steps one after the other, each from the tokens that the one before leaves. -/
theorem gives_bind {f : α → Compose β} {a : α} {b : β} (hm : Gives m ts a ts')
    (hf : Gives (f a) ts' b rest) : Gives (m >>= f) ts b rest :=
  fun handles => bind_eq_ok.mpr ⟨_, hm handles, hf handles⟩

theorem gives_map {f : α → β} {a : α} (h : Gives m ts a rest) :
    Gives (m >>= fun a => pure (f a)) ts (f a) rest :=
  fun handles => bind_eq_ok.mpr ⟨_, h handles, rfl⟩

/-- A branch that the tokens do not ask for is not taken. -/
theorem gives_else {b : Bool} {m' : Compose α} {a : α} (hb : b = false) (h : Gives m ts a rest) :
    Gives (if b then m' else m) ts a rest := by
  rw [hb]
  exact h

theorem gives_peek : Gives peek (t :: ts) t (t :: ts) := fun _ => rfl

theorem gives_take : Gives take (t :: ts) () ts := fun _ => rfl

/-! ### Nodes -/

/-- A scalar whose tag has no place. -/
theorem gives_scalar {chars : List Char} {isPlain : Bool} {tag : Tag} (indentless : Bool)
    (htag : scalarTag none isPlain chars = tag)
    (hplaced : (Node.scalar tag chars).placed rest.length = .scalar tag chars) :
    Gives (node true indentless (fuel + 1)) (.scalar chars isPlain :: rest) (.scalar tag chars)
      rest := by
  rw [← hplaced, ← htag]
  exact fun _ => rfl

/-- A plain scalar whose form has no place. -/
theorem gives_plain {chars : List Char} {tag : Tag} (indentless : Bool)
    (htag : Tag.ofPlain chars = tag)
    (hplaced : (Node.scalar tag chars).placed rest.length = .scalar tag chars) :
    Gives (node true indentless (fuel + 1)) (.scalar chars true :: rest) (.scalar tag chars) rest :=
  gives_scalar indentless htag hplaced

theorem gives_emptyList (indentless : Bool) :
    Gives (node true indentless (fuel + 2)) (.flowSequenceStart :: .flowSequenceEnd :: rest)
      (.list .list []) rest :=
  fun _ => rfl

theorem gives_emptyMap (indentless : Bool) :
    Gives (node true indentless (fuel + 2)) (.flowMappingStart :: .flowMappingEnd :: rest)
      (.map .map []) rest :=
  fun _ => rfl

/-- A list in a block has its items between two marks. -/
theorem gives_list {items : List Node} (h : Gives (blockItems false fuel) ts items rest) :
    Gives (node true indentless (fuel + 1)) (.blockSequenceStart :: ts) (.list .list items) rest := by
  cases indentless <;> exact gives_map h

/-- A list under a name has no mark of its own: the first dash starts it. -/
theorem gives_bareList {items : List Node}
    (h : Gives (blockItems true fuel) (.blockEntry :: ts) items rest) :
    Gives (node true true (fuel + 1)) (.blockEntry :: ts) (.list .list items) rest :=
  gives_map h

/-- A map in a block has its pairs between two marks. -/
theorem gives_record {pairs : List (Node × Node)} (h : Gives (blockPairs fuel) ts pairs rest) :
    Gives (node true indentless (fuel + 1)) (.blockMappingStart :: ts) (.map .map pairs) rest := by
  cases indentless <;> exact gives_map h

/-! ### Items and pairs -/

/-- An item, with the tokens of a node after its hyphen. -/
theorem gives_item {n : Node} {ns : List Node} (hstart : t ≠ .blockEntry)
    (hpart : endsBlockPart t = false) (hitem : Gives (node true false fuel) (t :: ts) n ts')
    (hitems : Gives (blockItems indentless fuel) ts' ns rest) :
    Gives (blockItems indentless (fuel + 1)) (.blockEntry :: t :: ts) (n :: ns) rest := by
  have hend : t ≠ .blockEnd := by
    rintro rfl
    cases hpart
  have hempty : (t = .blockEntry || t = .blockEnd || (indentless && endsBlockPart t)) = false := by
    rw [decide_eq_false hstart, decide_eq_false hend, hpart, Bool.and_false]
    rfl
  exact gives_bind gives_peek (gives_bind gives_take (gives_bind gives_peek
    (gives_else hempty (gives_bind hitem (gives_map hitems)))))

/-- Items without a block of their own end before any other token than a hyphen. -/
theorem gives_noItem (hentry : t ≠ .blockEntry) :
    Gives (blockItems true (fuel + 1)) (t :: rest) [] (t :: rest) := by
  intro handles
  cases t with
  | blockEntry => exact absurd rfl hentry
  | _ => rfl

theorem gives_itemsEnd : Gives (blockItems false (fuel + 1)) (.blockEnd :: rest) [] rest :=
  fun _ => rfl

/-- A pair, with the tokens of a node after each mark. -/
theorem gives_pair {k v : Node} {ps : List (Node × Node)} {t' : Token}
    (hkeyPart : endsBlockPart t = false) (hpart : endsBlockPart t' = false)
    (hkey : Gives (node true true fuel) (t :: ts) k (.value :: t' :: ts'))
    (hvalue : Gives (node true true fuel) (t' :: ts') v rest)
    (hpairs : Gives (blockPairs fuel) rest ps rest') :
    Gives (blockPairs (fuel + 1)) (.key :: t :: ts) ((k, v) :: ps) rest' := by
  have hread : Gives (do
      let v ← node true true fuel
      let ps ← blockPairs fuel
      return (k, v) :: ps) (t' :: ts') ((k, v) :: ps) rest' := gives_bind hvalue (gives_map hpairs)
  exact gives_bind gives_peek (gives_bind gives_take (gives_bind gives_peek
    (gives_else hkeyPart (gives_bind hkey (gives_bind gives_peek (gives_bind gives_take
      (gives_bind gives_peek (gives_else hpart hread))))))))

theorem gives_pairsEnd : Gives (blockPairs (fuel + 1)) (.blockEnd :: rest) [] rest :=
  fun _ => rfl

/-! ## Composing outlines -/

/-- A plain text has the form of a text. -/
theorem scalarTag_scalarToken (cs : List Char) :
    scalarTag none (styleOf cs = .plain : Bool) cs = .text := by
  by_cases h : styleOf cs = .plain
  · have hplain := styleOf_eq_plain h
    simp only [allowsPlain, Bool.and_eq_true, decide_eq_true_eq] at hplain
    rw [decide_eq_true h]
    exact hplain.1.1.1.1.1.1.2
  · rw [decide_eq_false h]
    rfl

/-- A text is written so that it is read as one, whatever it looks like. -/
theorem gives_text (cs : List Char) (indentless : Bool) :
    Gives (node true indentless (fuel + 1)) (scalarToken cs :: rest) (.scalar .text cs) rest :=
  gives_scalar indentless (scalarTag_scalarToken cs) rfl

/-- The digits of a number are read as a whole number. -/
theorem gives_number (n : Nat) (indentless : Bool) :
    Gives (node true indentless (fuel + 1)) (.scalar (Text.decimalDigits n) true :: rest)
      (.scalar .whole (Text.decimalDigits n)) rest :=
  gives_plain indentless (ofPlain_decimalDigits n) rfl

/-- So is a truth value, by one of the words for it. -/
theorem gives_flag (b : Bool) (indentless : Bool) :
    Gives (node true indentless (fuel + 1))
      (.scalar (if b then "true" else "false").toList true :: rest)
      (.scalar .flag (if b then "true" else "false").toList) rest :=
  gives_plain indentless (ofPlain_flag b) rfl

/-- The tokens of a value start with one that starts a node, and with no hyphen if a list has a
block of its own. -/
theorem exists_valueTokens (own : Bool) (o : Outline) : ∃ t ts, o.valueTokens own = t :: ts ∧
    endsBlockPart t = false ∧ (own = true → t ≠ .blockEntry) := by
  cases o with
  | text | number | flag => exact ⟨_, _, rfl, rfl, nofun⟩
  | list os =>
    cases os with
    | nil => exact ⟨_, _, rfl, rfl, nofun⟩
    | cons o os =>
      cases own with
      | true => exact ⟨_, _, rfl, rfl, nofun⟩
      | false => exact ⟨_, _, rfl, rfl, nofun⟩
  | record es => cases es <;> exact ⟨_, _, rfl, rfl, nofun⟩

mutual

/-- The tokens of a value are read as its node. What comes after a list without a block of its own
must end it. -/
theorem gives_node : ∀ (o : Outline) (own indentless : Bool) (fuel : Nat) (rest : List Token),
    2 * (o.valueTokens own).length + 2 ≤ fuel →
    (own = false → indentless = true ∧ ∀ k, Gives (blockItems true (k + 1)) rest [] rest) →
    Gives (node true indentless fuel) (o.valueTokens own ++ rest) o.node rest
  | .text s, _, indentless, fuel + 1, _, _, _ => gives_text s.toList indentless
  | .number n, _, indentless, fuel + 1, _, _, _ => gives_number n indentless
  | .flag b, _, indentless, fuel + 1, _, _, _ => gives_flag b indentless
  | .list [], _, indentless, fuel + 2, _, _, _ => gives_emptyList indentless
  | .record [], _, indentless, fuel + 2, _, _, _ => gives_emptyMap indentless
  | .list (o :: os), true, indentless, fuel + 1, rest, hfuel, _ => by
    rw [Outline.valueTokens, if_pos rfl, List.length_cons, List.length_append] at hfuel
    rw [Outline.valueTokens, if_pos rfl, List.cons_append, List.append_assoc]
    exact gives_list (gives_items (o :: os) false fuel _ rest (by omega) fun _ => gives_itemsEnd)
  | .list (o :: os), false, indentless, fuel + 1, rest, hfuel, hends => by
    obtain ⟨rfl, hstop⟩ := hends rfl
    rw [Outline.valueTokens, if_neg Bool.false_ne_true] at hfuel
    rw [Outline.valueTokens, if_neg Bool.false_ne_true]
    exact gives_bareList (gives_items (o :: os) true fuel rest rest (by omega) hstop)
  | .record (e :: es), own, indentless, fuel + 1, rest, hfuel, _ => by
    rw [Outline.valueTokens, List.length_cons, List.length_append] at hfuel
    rw [Outline.valueTokens, List.cons_append, List.append_assoc]
    exact gives_record (gives_entries (e :: es) fuel rest (by omega))

/-- The tokens of items are read as their nodes, up to what ends them. -/
theorem gives_items : ∀ (os : List Outline) (indentless : Bool) (fuel : Nat)
    (rest rest' : List Token), 2 * (Outline.itemsTokens os).length + 1 ≤ fuel →
    (∀ k, Gives (blockItems indentless (k + 1)) rest [] rest') →
    Gives (blockItems indentless fuel) (Outline.itemsTokens os ++ rest) (Outline.itemNodes os) rest'
  | [], _, fuel + 1, _, _, _, hends => hends fuel
  | o :: os, indentless, fuel + 1, rest, rest', hfuel, hends => by
    obtain ⟨t, ts, htokens, hpart, hentry⟩ := exists_valueTokens true o
    rw [Outline.itemsTokens, List.length_cons, List.length_append] at hfuel
    have hitem := gives_node o true false fuel (Outline.itemsTokens os ++ rest) (by omega) nofun
    have hitems := gives_items os indentless fuel rest rest' (by omega) hends
    rw [Outline.itemsTokens, List.cons_append, List.append_assoc]
    rw [htokens] at hitem ⊢
    exact gives_item (hentry rfl) hpart hitem hitems

/-- The tokens of entries are read as their nodes, up to the end of their block. -/
theorem gives_entries : ∀ (es : List (String × Outline)) (fuel : Nat) (rest : List Token),
    2 * (Outline.entriesTokens es).length + 1 ≤ fuel →
    Gives (blockPairs fuel) (Outline.entriesTokens es ++ .blockEnd :: rest) (Outline.entryNodes es)
      rest
  | [], fuel + 1, _, _ => gives_pairsEnd
  | (name, o) :: es, fuel + 2, rest, hfuel => by
    obtain ⟨t, ts, htokens, hpart, -⟩ := exists_valueTokens (!isSimpleKey name.toList) o
    rw [Outline.entriesTokens] at hfuel ⊢
    simp only [List.length_cons, List.length_append] at hfuel
    have hends (k : Nat) : Gives (blockItems true (k + 1))
        (Outline.entriesTokens es ++ .blockEnd :: rest) []
        (Outline.entriesTokens es ++ .blockEnd :: rest) := by
      cases es <;> exact gives_noItem nofun
    have hvalue := gives_node o (!isSimpleKey name.toList) true (fuel + 1)
      (Outline.entriesTokens es ++ .blockEnd :: rest) (by omega) fun _ => ⟨rfl, hends⟩
    have hentries := gives_entries es (fuel + 1) rest (by omega)
    simp only [List.cons_append, List.append_assoc]
    rw [htokens] at hvalue ⊢
    exact gives_pair rfl hpart (gives_text name.toList true) hvalue hentries

end

/-- A document that is one block has the node of the block. -/
theorem onlyDocument_of_gives {n : Node}
    (h : Gives (node true false (fuel + 1)) (.blockMappingStart :: ts) n [.streamEnd]) :
    (onlyDocument (fuel + 1)).run ⟨.blockMappingStart :: ts, none, [], []⟩ =
      .ok (some n, ⟨[.streamEnd], none, [], ownHandles⟩) :=
  bind_eq_ok.mpr ⟨_, h ownHandles, rfl⟩

/-- A document that is one record has the node of the record. -/
theorem onlyDocument_entries {es : List (String × Outline)}
    (hfuel : 2 * (Outline.entriesTokens es).length + 8 ≤ fuel) :
    (onlyDocument fuel).run ⟨.blockMappingStart :: (Outline.entriesTokens es ++
      [.blockEnd, .streamEnd]), none, [], []⟩ =
        .ok (some (Outline.record es).node, ⟨[.streamEnd], none, [], ownHandles⟩) := by
  obtain ⟨fuel, rfl⟩ : ∃ k, fuel = k + 1 := ⟨fuel - 1, by omega⟩
  exact onlyDocument_of_gives (gives_record (gives_entries es fuel [.streamEnd] (by omega)))

end Yaml.Compose

/-! ## Characters of written outlines -/

namespace Yaml.Writer

/-- Characters that a document may not hold are escaped where a text is written. -/
theorem all_scalarText (l : Layout) (column : Nat) (cs : List Char) :
    (scalarText l column cs).all isTextChar = true :=
  List.all_eq_true.mpr fun _ => isTextChar_scalarText

/-- A new line is indented with spaces. -/
theorem all_newLine (q : Nat) : (newLine q).all isTextChar = true := by
  rw [newLine, List.all_cons, List.all_eq_true.mpr]
  · rfl
  · intro ch hch
    rw [List.eq_of_mem_replicate hch]
    rfl

theorem all_decimalDigits (n : Nat) : (Text.decimalDigits n).all isTextChar = true :=
  List.all_eq_true.mpr fun _ hch => Text.forall_isDigit (P := fun ch => isTextChar ch = true)
    (by decide) (Text.isDigit_of_mem_decimalDigits hch)

theorem all_flag (b : Bool) : (if b then "true" else "false").toList.all isTextChar = true := by
  cases b <;> decide

mutual

/-- The induction is on the outline, as the writer's recursion is. -/
theorem all_afterName : ∀ (o : Outline) (q column : Nat),
    (afterName q column o).all isTextChar = true
  | .text s, _, _ => by
    rw [afterName, List.all_cons, all_scalarText]
    rfl
  | .number n, _, _ => by
    rw [afterName, List.all_cons, all_decimalDigits]
    rfl
  | .flag b, _, _ => by
    rw [afterName, List.all_cons, all_flag]
    rfl
  | .list [], _, _ => rfl
  | .record [], _, _ => rfl
  | .list (o :: os), q, _ => by
    rw [afterName, List.all_append, all_newLine, all_items (o :: os) q]
    rfl
  | .record (e :: es), q, _ => by
    rw [afterName, List.all_append, all_newLine, all_entries (e :: es) (q + 2)]
    rfl

theorem all_afterMark : ∀ (o : Outline) (q : Nat), (afterMark q o).all isTextChar = true
  | .text s, _ => by
    rw [afterMark, List.all_cons, all_scalarText]
    rfl
  | .number n, _ => by
    rw [afterMark, List.all_cons, all_decimalDigits]
    rfl
  | .flag b, _ => by
    rw [afterMark, List.all_cons, all_flag]
    rfl
  | .list [], _ => rfl
  | .record [], _ => rfl
  | .list (o :: os), q => by
    rw [afterMark, List.all_cons, all_items (o :: os) (q + 2)]
    rfl
  | .record (e :: es), q => by
    rw [afterMark, List.all_cons, all_entries (e :: es) (q + 2)]
    rfl

theorem all_items : ∀ (os : List Outline) (q : Nat), (items q os).all isTextChar = true
  | [], _ => rfl
  | [o], q => by
    rw [Lexer.items_singleton, List.append_nil, List.all_cons, all_afterMark o q]
    rfl
  | o :: o' :: os, q => by
    rw [Lexer.items_cons, List.all_cons, List.all_append, List.all_append, all_afterMark o q,
      all_newLine, all_items (o' :: os) q]
    rfl

theorem all_entries : ∀ (es : List (String × Outline)) (q : Nat),
    (entries q es).all isTextChar = true
  | [], _ => rfl
  | [(name, o)], q => by
    rw [Lexer.entries_singleton, List.append_nil, all_entryText name o q]
  | (name, o) :: e :: es, q => by
    rw [Lexer.entries_cons, List.all_append, List.all_append, all_entryText name o q, all_newLine,
      all_entries (e :: es) q]
    rfl

/-- A name is written like any text, and what follows it was looked at already. -/
theorem all_entryText (name : String) (o : Outline) (q : Nat) :
    (Lexer.entryText q name o).all isTextChar = true := by
  rw [Lexer.entryText]
  split
  · rw [List.all_append, simpleName, all_scalarText, List.all_cons, all_afterName o]
    rfl
  · rw [List.all_append, longName, List.all_append, List.all_cons, List.all_cons, all_scalarText,
      all_newLine, List.all_cons, all_afterMark o]
    rfl

end

end Yaml.Writer

/-! ## Documents -/

namespace Yaml

/-- What is written for a record is read as its node. -/
theorem ofText_render {es : List (String × Outline)} (hread : Outline.ReadableEntries es)
    (hne : es ≠ []) (hdepth : 2 * Outline.depthEntries es + 2 < maxWidth) :
    Node.ofText (render es).toList = .ok (some (Outline.record es).node) := by
  have hchars : (entries 0 es ++ ['\n']).all isTextChar = true := by
    rw [List.all_append, all_entries]
    rfl
  have htokens := Lexer.tokens_entries hread hne hdepth
  have hfuel : 2 * (Outline.entriesTokens es).length + 8 ≤ 8 * (Token.blockMappingStart ::
      (Outline.entriesTokens es ++ [.blockEnd, .streamEnd])).length + 8 := by
    rw [List.length_cons, List.length_append]
    omega
  have hcompose : Node.compose (entries 0 es ++ ['\n']) = .ok ⟨some (Outline.record es).node, [],
      (Token.blockMappingStart :: (Outline.entriesTokens es ++
        [.blockEnd, .streamEnd])).any Node.isAlias⟩ := by
    rw [Node.compose, hchars, htokens]
    simp only [Compose.onlyDocument_entries hfuel]
    rfl
  obtain ⟨acyclic, simple⟩ := Node.plain_node (.record es)
  rw [render, String.toList_ofList, Node.ofText]
  refine bind_eq_ok.mpr ⟨_, hcompose, ?_⟩
  rw [Node.tree_of_acyclic rfl acyclic, simple, Bool.and_false, if_neg Bool.false_ne_true]

end Yaml

end OpeningHand
