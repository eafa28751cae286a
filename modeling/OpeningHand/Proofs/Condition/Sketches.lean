import Mathlib.Data.List.Forall2
import OpeningHand.Condition.Sketch
import OpeningHand.Proofs.Number.Whole
import OpeningHand.Proofs.Result

/-!
# Texts of sketches

Sketches whose quantities can be written have texts exactly if no strange value stands in them,
however deep. Otherwise writing them fails, and names the first strange value from left to right. In
the text of a sketch its card tests stand as they are written alone, from left to right, with nothing
but connectives and parentheses around them. A quantity with too many digits is a fault like a strange
value (`renderAll_eq_error_iff`).
-/

namespace OpeningHand.Sketch

/-! ## What is in a sketch -/

mutual

/-- A sketch and all that is in it: each group before its members, and these from left to right. -/
def nodes : Sketch → List Sketch
  | .card name quantity operator => [.card name quantity operator]
  | .group connective members => .group connective members :: nodesAll members
  | .other typeName => [.other typeName]

/-- All that is in sketches, from left to right. -/
def nodesAll : List Sketch → List Sketch
  | [] => []
  | s :: ss => s.nodes ++ nodesAll ss

end

/-- The text of a card test alone. -/
def testText? : Sketch → Option (List Char)
  | .card name quantity operator => (Sketch.card name quantity operator).chars?.toOption
  | .group .. | .other _ => none

/-- The texts of the card tests among nodes, in order. -/
def testTexts (nodes : List Sketch) : List (List Char) :=
  nodes.filterMap testText?

/-- What stands around card tests: parentheses, connectives and spaces. -/
def glue : List Char :=
  ['(', ')', ' '] ++ Connective.and.word.toList ++ Connective.or.word.toList

/-- Pieces stand in a text one after the other, and the rest of the text is glue. -/
inductive Strung : List (List Char) → List Char → Prop
  | done {gap} (isGlue : ∀ c ∈ gap, c ∈ glue) : Strung [] gap
  | piece {gap piece pieces rest} (isGlue : ∀ c ∈ gap, c ∈ glue) (more : Strung pieces rest) :
      Strung (piece :: pieces) (gap ++ (piece ++ rest))

/-- The first strange value among nodes has a type of that name. -/
def FirstOther (nodes : List Sketch) (typeName : String) : Prop :=
  ∃ before after, nodes = before ++ .other typeName :: after ∧ ∀ other, .other other ∉ before

/-- No card test among nodes has a quantity with too many digits to be written. -/
def ShortQuantities (nodes : List Sketch) : Prop :=
  ∀ name quantity operator, .card name quantity operator ∈ nodes →
    quantity.natAbs < 10 ^ Number.maxDigits

/-! ## The first fault -/

/-- What is wrong with a node by itself, whatever is in it. -/
def fault? : Sketch → Option SketchFault
  | .card _ quantity _ =>
    match Number.writeWhole? quantity with
    | none => some .tooLong
    | some _ => none
  | .group .. => none
  | .other typeName => some (.unknown typeName)

/-- A card test without a fault has a text, and one with a fault fails with it. -/
theorem chars?_card (name : String) (quantity : Int) (operator : String) :
    ((Sketch.card name quantity operator).fault? = none ∧
        ∃ cs, (Sketch.card name quantity operator).chars? = .ok cs) ∨
      ∃ e, (Sketch.card name quantity operator).fault? = some e ∧
        (Sketch.card name quantity operator).chars? = .error e := by
  unfold fault? chars?
  dsimp only
  cases Number.writeWhole? quantity with
  | none => exact .inr ⟨_, rfl, rfl⟩
  | some _ => exact .inl ⟨rfl, _, rfl⟩

/-- Where quantities are short, the strange values are the only faults. -/
theorem fault?_eq_some_iff {nodes : List Sketch} (short : ShortQuantities nodes) {s : Sketch}
    (hs : s ∈ nodes) {e : SketchFault} :
    s.fault? = some e ↔ ∃ typeName, s = .other typeName ∧ e = .unknown typeName := by
  cases s with
  | card name quantity operator =>
    have hnone : (Sketch.card name quantity operator).fault? = none := by
      unfold fault?
      dsimp only
      rw [Number.writeWhole?_of_lt (short name quantity operator hs)]
    rw [hnone]
    exact iff_of_false nofun fun ⟨_, h, _⟩ => nomatch h
  | group => exact iff_of_false nofun fun ⟨_, h, _⟩ => nomatch h
  | other typeName =>
    constructor
    · intro h
      cases h
      exact ⟨typeName, rfl, rfl⟩
    · rintro ⟨_, ⟨⟩, rfl⟩
      rfl

theorem no_fault_iff {nodes : List Sketch} (short : ShortQuantities nodes) :
    nodes.findSome? fault? = none ↔ ∀ other, .other other ∉ nodes := by
  rw [List.findSome?_eq_none_iff]
  constructor
  · intro h other hmem
    cases h _ hmem
  · intro h s hs
    rw [Option.eq_none_iff_forall_ne_some]
    intro e he
    obtain ⟨other, rfl, -⟩ := (fault?_eq_some_iff short hs).mp he
    exact h other hs

theorem first_fault_iff {nodes : List Sketch} (short : ShortQuantities nodes) {e : SketchFault} :
    nodes.findSome? fault? = some e ↔
      ∃ typeName, FirstOther nodes typeName ∧ e = .unknown typeName := by
  have shortBefore {before after : List Sketch} {s : Sketch} (h : nodes = before ++ s :: after) :
      ShortQuantities before := fun name quantity operator hmem =>
    short name quantity operator (h ▸ List.mem_append_left _ hmem)
  rw [List.findSome?_eq_some_iff]
  constructor
  · rintro ⟨before, s, after, hnodes, hs, hbefore⟩
    have hmem : s ∈ nodes := hnodes ▸ List.mem_append_right before List.mem_cons_self
    obtain ⟨typeName, rfl, rfl⟩ := (fault?_eq_some_iff short hmem).mp hs
    refine ⟨typeName, ⟨before, after, hnodes, ?_⟩, rfl⟩
    exact (no_fault_iff (shortBefore hnodes)).mp (List.findSome?_eq_none_iff.mpr hbefore)
  · rintro ⟨typeName, ⟨before, after, hnodes, hbefore⟩, rfl⟩
    refine ⟨before, _, after, hnodes, rfl, ?_⟩
    exact List.findSome?_eq_none_iff.mp ((no_fault_iff (shortBefore hnodes)).mpr hbefore)

/-! ## Pieces of a text -/

theorem Strung.glue_append {gap cs : List Char} {pieces : List (List Char)}
    (isGlue : ∀ c ∈ gap, c ∈ glue) (h : Strung pieces cs) : Strung pieces (gap ++ cs) := by
  cases h with
  | done isGlue' => exact .done (List.forall_mem_append.mpr ⟨isGlue, isGlue'⟩)
  | piece isGlue' more =>
    rw [← List.append_assoc]
    exact .piece (List.forall_mem_append.mpr ⟨isGlue, isGlue'⟩) more

theorem Strung.single (piece : List Char) : Strung [piece] piece := by
  have h : Strung [piece] ([] ++ (piece ++ [])) :=
    .piece (List.forall_mem_nil _) (.done (List.forall_mem_nil _))
  rwa [List.append_nil] at h

theorem Strung.append {ps qs : List (List Char)} {a b : List Char} (ha : Strung ps a)
    (hb : Strung qs b) : Strung (ps ++ qs) (a ++ b) := by
  induction ha with
  | done isGlue => exact hb.glue_append isGlue
  | piece isGlue _ ih =>
    rw [List.append_assoc, List.append_assoc]
    exact .piece isGlue ih

theorem isGlue_mark {c : Char} (h : c ∈ ['(', ')', ' ']) : c ∈ glue :=
  List.mem_append_left _ (List.mem_append_left _ h)

theorem isGlue_word (k : Connective) : ∀ c ∈ k.word.toList, c ∈ glue := by
  intro c hc
  cases k with
  | and => exact List.mem_append_left _ (List.mem_append_right _ hc)
  | or => exact List.mem_append_right _ hc

/-- Members strung one by one are strung with a connective between them. -/
theorem Strung.intercalate {sep : List Char} (isGlue : ∀ c ∈ sep, c ∈ glue)
    {pss : List (List (List Char))} {css : List (List Char)} (h : List.Forall₂ Strung pss css) :
    Strung pss.flatten (List.intercalate sep css) := by
  induction h with
  | nil => exact .done (List.forall_mem_nil _)
  | cons first more ih =>
    cases more with
    | nil =>
      rw [List.flatten_cons, List.flatten_nil, List.append_nil, List.intercalate_singleton]
      exact first
    | cons _ _ =>
      rw [List.intercalate_cons_cons, List.append_assoc]
      exact first.append (ih.glue_append isGlue)

/-! ## Writing -/

theorem testTexts_nodesAll (ss : List Sketch) :
    testTexts (nodesAll ss) = (ss.map fun s => testTexts s.nodes).flatten := by
  induction ss with
  | nil => rfl
  | cons s ss ih =>
    rw [nodesAll, testTexts, List.filterMap_append, List.map_cons, List.flatten_cons, ← ih]
    rfl

/-- The text of a group, from those of its members. -/
theorem strung_groupText {k : Connective} {members : List Sketch} {css : List (List Char)}
    (h : List.Forall₂ (fun s cs => s.chars? = .ok cs ∧ Strung (testTexts s.nodes) cs) members css) :
    Strung (testTexts (Sketch.group k members).nodes) (Condition.groupText k css) := by
  have hspace : ' ' ∈ glue := isGlue_mark (by decide)
  have hwords : ∀ c ∈ ' ' :: k.word.toList ++ [' '], c ∈ glue :=
    List.forall_mem_cons.mpr ⟨hspace,
      List.forall_mem_append.mpr ⟨isGlue_word k, List.forall_mem_singleton.mpr hspace⟩⟩
  have hmembers : List.Forall₂ Strung (members.map fun s => testTexts s.nodes) css :=
    List.forall₂_map_left_iff.mpr (h.imp fun _ _ h => h.2)
  have hopen : ∀ c ∈ ['('], c ∈ glue := List.forall_mem_singleton.mpr (isGlue_mark (by decide))
  have hclose : Strung [] [')'] := .done (List.forall_mem_singleton.mpr (isGlue_mark (by decide)))
  have hjoined := (Strung.intercalate hwords hmembers).append hclose
  rw [List.append_nil, ← testTexts_nodesAll] at hjoined
  have hopened := hjoined.glue_append hopen
  rw [nodes, testTexts, List.filterMap_cons_none rfl]
  exact hopened

mutual

/-- A sketch without a fault has a text. -/
theorem chars?_ok : ∀ {s : Sketch}, s.nodes.findSome? fault? = none →
    ∃ cs, s.chars? = .ok cs ∧ Strung (testTexts s.nodes) cs
  | .card name quantity operator => by
    intro h
    have hfault : (Sketch.card name quantity operator).fault? = none :=
      List.findSome?_eq_none_iff.mp h _ (List.mem_singleton_self _)
    obtain ⟨-, cs, hcs⟩ | ⟨e, he, -⟩ := chars?_card name quantity operator
    case inr => cases hfault.symm.trans he
    have htests : testTexts (Sketch.card name quantity operator).nodes = [cs] := by
      rw [nodes, testTexts, List.filterMap_cons, testText?, hcs]
      rfl
    exact ⟨cs, hcs, htests ▸ .single cs⟩
  | .group k members => by
    intro h
    have hmembers : (nodesAll members).findSome? fault? = none := h
    obtain ⟨css, hcss, hall⟩ := charsAll?_ok hmembers
    refine ⟨_, ?_, strung_groupText hall⟩
    show (charsAll? members).map _ = _
    rw [hcss]
    rfl
  | .other _ => by
    intro h
    cases h

theorem charsAll?_ok : ∀ {ss : List Sketch}, (nodesAll ss).findSome? fault? = none →
    ∃ css, charsAll? ss = .ok css ∧
      List.Forall₂ (fun s cs => s.chars? = .ok cs ∧ Strung (testTexts s.nodes) cs) ss css
  | [] => fun _ => ⟨[], rfl, .nil⟩
  | s :: ss => by
    intro h
    rw [nodesAll, List.findSome?_append, Option.or_eq_none_iff] at h
    obtain ⟨cs, hcs, hstrung⟩ := chars?_ok h.1
    obtain ⟨css, hcss, hall⟩ := charsAll?_ok h.2
    refine ⟨cs :: css, ?_, .cons ⟨hcs, hstrung⟩ hall⟩
    rw [charsAll?, hcs, hcss]
    rfl

end

mutual

/-- A fault in a sketch leaves it without a text, and the first one tells why. -/
theorem chars?_error {e : SketchFault} : ∀ {s : Sketch},
    s.nodes.findSome? fault? = some e → s.chars? = .error e
  | .card name quantity operator => by
    intro h
    rw [nodes, List.findSome?_singleton] at h
    obtain ⟨hnone, -⟩ | ⟨e', he', hfails⟩ := chars?_card name quantity operator
    · cases hnone.symm.trans h
    · cases he'.symm.trans h
      exact hfails
  | .group k members => by
    intro h
    have hmembers : (nodesAll members).findSome? fault? = some e := h
    show (charsAll? members).map _ = _
    rw [charsAll?_error hmembers]
    rfl
  | .other _ => by
    intro h
    cases h
    rfl

theorem charsAll?_error {e : SketchFault} : ∀ {ss : List Sketch},
    (nodesAll ss).findSome? fault? = some e → charsAll? ss = .error e
  | [] => by
    intro h
    cases h
  | s :: ss => by
    intro h
    rw [nodesAll, List.findSome?_append, Option.or_eq_some_iff] at h
    rcases h with h | ⟨hnone, h⟩
    · rw [charsAll?, chars?_error h]
    · obtain ⟨cs, hcs, -⟩ := chars?_ok hnone
      rw [charsAll?, hcs, charsAll?_error h]
      rfl

end

theorem renderAll_ok {ss : List Sketch} (h : (nodesAll ss).findSome? fault? = none) :
    ∃ texts, renderAll ss = .ok texts ∧
      List.Forall₂ (fun s text => s.render? = .ok text ∧ Strung (testTexts s.nodes) text.toList)
        ss texts := by
  obtain ⟨css, hcss, hall⟩ := charsAll?_ok h
  refine ⟨css.map String.ofList, by rw [renderAll, hcss]; rfl, ?_⟩
  refine List.forall₂_map_right_iff.mpr (hall.imp fun s cs h => ⟨?_, ?_⟩)
  · rw [render?, h.1]
    rfl
  · rw [String.toList_ofList]
    exact h.2

/-- Writing sketches fails with the first fault in them, and with nothing else. -/
theorem renderAll_eq_error_iff {ss : List Sketch} {e : SketchFault} :
    renderAll ss = .error e ↔ (nodesAll ss).findSome? fault? = some e := by
  constructor
  · intro h
    cases hfirst : (nodesAll ss).findSome? fault? with
    | none =>
      obtain ⟨texts, htexts, -⟩ := renderAll_ok hfirst
      cases htexts.symm.trans h
    | some e' =>
      rw [renderAll, charsAll?_error hfirst] at h
      cases h
      rfl
  · intro h
    rw [renderAll, charsAll?_error h]
    rfl

/-- Sketches with short quantities are refused exactly if a strange value stands somewhere in them,
and the refusal names the type of the first one, whatever comes before and after it. Otherwise each
has its text, in order, and in it the texts of its card tests in order. -/
theorem renderAll_ends {ss : List Sketch} (short : ShortQuantities (nodesAll ss)) :
    ((∃ e, renderAll ss = .error e) ↔ ∃ other, .other other ∈ nodesAll ss) ∧
    (∀ e, renderAll ss = .error e ↔ ∃ typeName, FirstOther (nodesAll ss) typeName ∧
      e = .unknown typeName ∧ e.message = "Unknown condition type: " ++ typeName) ∧
    ((∀ other, .other other ∉ nodesAll ss) → ∃ texts, renderAll ss = .ok texts ∧
      List.Forall₂ (fun s text => s.render? = .ok text ∧ Strung (testTexts s.nodes) text.toList)
        ss texts) := by
  refine ⟨?_, fun e => ?_, fun h => renderAll_ok ((no_fault_iff short).mpr h)⟩
  · simp only [renderAll_eq_error_iff]
    rw [← Option.isSome_iff_exists, ← Option.ne_none_iff_isSome, Ne, no_fault_iff short]
    push Not
    rfl
  · rw [renderAll_eq_error_iff, first_fault_iff short]
    constructor
    · rintro ⟨typeName, first, rfl⟩
      exact ⟨typeName, first, rfl, rfl⟩
    · rintro ⟨typeName, first, rfl, -⟩
      exact ⟨typeName, first, rfl⟩

/-- A sketch with a strange value in the second member of a group, and another one. -/
def strangeSketches : List Sketch :=
  [.group .and [.card "A" 2 ">=", .group .or [.other "int"]], .other "str"]

/-- The first strange value is the member's member, and writing the sketches names its type. -/
theorem renderAll_ends_strange : ShortQuantities (nodesAll strangeSketches) ∧
    renderAll strangeSketches = .error (.unknown "int") := by
  have short : ShortQuantities (nodesAll strangeSketches) := by
    intro name quantity operator hmem
    simp only [strangeSketches, nodesAll, nodes, List.append_nil, List.cons_append,
      List.nil_append, List.mem_cons, List.not_mem_nil, or_false, reduceCtorEq, false_or,
      Sketch.card.injEq] at hmem
    obtain ⟨-, rfl, -⟩ := hmem
    decide +kernel
  have first : FirstOther (nodesAll strangeSketches) "int" :=
    ⟨[.group .and [.card "A" 2 ">=", .group .or [.other "int"]], .card "A" 2 ">=",
      .group .or [.other "int"]], [.other "str"], rfl, by simp⟩
  exact ⟨short, ((renderAll_ends short).2.1 _).mpr ⟨"int", first, rfl, rfl⟩⟩

/-- A quantity with too many digits is a fault of its own. -/
example : renderAll [.card "A" (10 ^ Number.maxDigits : Nat) "=", .other "int"] =
    .error .tooLong := by
  decide +kernel

end OpeningHand.Sketch
