import Mathlib.Algebra.GroupWithZero.Nat
import OpeningHand.PasscodeList
import OpeningHand.Proofs.Data.Distinct
import OpeningHand.Proofs.Document.Reload
import OpeningHand.Proofs.Text.Numeral

/-!
# Converted lists load as the same deck

A passcode list is counted and its counts are added up by name before they are written; a load takes
the document apart again, checks it and expands it into slots. The two agree: the deck that is loaded
counts each resulting name once, in order of first appearance, with the copies of all passcodes that
the name stands for. No line is lost on the way, so the real cards of the deck are the passcode lines
of the main section.

That the converted text says what was converted is a hypothesis on the text, `Yaml.load` of it.
-/

namespace OpeningHand.PasscodeList

/-! ## Sums of counts -/

/-- The copies of a name in counts that may have it more than once. -/
def copies (name : String) (es : List (String × Nat)) : Nat :=
  ((es.filter fun e => e.1 = name).map Prod.snd).sum

theorem copies_concat (name : String) (es : List (String × Nat)) (e : String × Nat) :
    copies name (es ++ [e]) = if name = e.1 then copies name es + e.2 else copies name es := by
  simp only [copies, List.filter_append, List.map_append, List.sum_append]
  split
  next h => simp [h]
  next h => simp [Ne.symm h]

theorem copies_of_not_mem {name : String} {es : List (String × Nat)}
    (h : name ∉ es.map Prod.fst) : copies name es = 0 := by
  have hnone : es.filter (fun e => e.1 = name) = [] := by
    refine List.filter_eq_nil_iff.mpr fun e he hname => h ?_
    exact of_decide_eq_true hname ▸ List.mem_map_of_mem he
  rw [copies, hnone]
  rfl

/-- A name that is counted has copies. -/
theorem copies_ne_zero {name : String} {es : List (String × Nat)} (pos : ∀ e ∈ es, e.2 ≠ 0)
    (h : name ∈ es.map Prod.fst) : copies name es ≠ 0 := by
  obtain ⟨e, he, rfl⟩ := List.mem_map.mp h
  have hmem : e.2 ∈ (es.filter fun e' => e'.1 = e.1).map Prod.snd :=
    List.mem_map_of_mem (List.mem_filter.mpr ⟨he, decide_eq_true rfl⟩)
  exact Nat.ne_of_gt (List.sum_pos_iff_exists_pos_nat.mpr
    ⟨e.2, hmem, Nat.pos_of_ne_zero (pos e he)⟩)

/-- Adding to counts with different names changes the count of one name, which comes last if it is
new. -/
theorem addCount_map {names : List String} (distinct : names.Nodup) {f : String → Nat}
    {name : String} (new : name ∉ names → f name = 0) (n : Nat) :
    addCount name n (names.map fun name' => (name', f name')) =
      (if name ∈ names then names else names ++ [name]).map fun name' =>
        (name', if name' = name then f name' + n else f name') := by
  induction names with
  | nil =>
    rw [List.map_nil, addCount, if_neg List.not_mem_nil, List.nil_append, List.map_singleton,
      if_pos rfl, new List.not_mem_nil, Nat.zero_add]
  | cons name' names ih =>
    obtain ⟨hname', distinct⟩ := List.nodup_cons.mp distinct
    rw [List.map_cons, addCount]
    by_cases heq : name' = name
    · subst heq
      have hrest : names.map (fun m => (m, if m = name' then f m + n else f m)) =
          names.map fun m => (m, f m) :=
        List.map_congr_left fun m hm => by rw [if_neg fun h : m = name' => hname' (h ▸ hm)]
      rw [if_pos rfl, if_pos List.mem_cons_self, List.map_cons, if_pos rfl, hrest]
    · have hmem : name ∈ name' :: names ↔ name ∈ names := by
        rw [List.mem_cons, or_iff_right (Ne.symm heq)]
      rw [if_neg heq, ih distinct fun h => new (mt hmem.mp h)]
      simp only [hmem]
      split <;> simp [heq]

theorem sumCounts_concat (es : List (String × Nat)) (e : String × Nat) :
    sumCounts (es ++ [e]) = addCount e.1 e.2 (sumCounts es) := by
  rw [sumCounts, List.foldl_append]
  rfl

/-- Counts that are added up have each name once, in order of first appearance, with all its
copies. The induction is on the last of them. -/
theorem sumCounts_eq (es : List (String × Nat)) :
    sumCounts es = (es.map Prod.fst).eraseDups.map fun name => (name, copies name es) := by
  induction es using List.reverseRecOn with
  | nil => rfl
  | append_singleton es e ih =>
    have new : e.1 ∉ (es.map Prod.fst).eraseDups → copies e.1 es = 0 :=
      fun h => copies_of_not_mem fun hmem => h (List.mem_eraseDups.mpr hmem)
    rw [sumCounts_concat, ih, addCount_map (nodup_eraseDups _) new, List.map_append,
      List.map_singleton, eraseDups_concat]
    simp only [List.mem_eraseDups, copies_concat]

theorem sum_addCount (name : String) (n : Nat) (counts : List (String × Nat)) :
    ((addCount name n counts).map Prod.snd).sum = (counts.map Prod.snd).sum + n := by
  induction counts with
  | nil => rw [addCount, List.map_singleton, List.sum_singleton, List.map_nil, List.sum_nil,
      Nat.zero_add]
  | cons e counts ih =>
    rw [addCount]
    split
    · simp only [List.map_cons, List.sum_cons]
      omega
    · rw [List.map_cons, List.sum_cons, ih, List.map_cons, List.sum_cons, Nat.add_assoc]

/-- Adding up loses no copy. -/
theorem sum_sumCounts (es : List (String × Nat)) :
    ((sumCounts es).map Prod.snd).sum = (es.map Prod.snd).sum := by
  induction es using List.reverseRecOn with
  | nil => rfl
  | append_singleton es e ih =>
    rw [sumCounts_concat, sum_addCount, ih, List.map_append, List.sum_append, List.map_singleton,
      List.sum_singleton]

/-- Names that are counted have copies after counts are added up. -/
theorem sumCounts_pos {es : List (String × Nat)} (pos : ∀ e ∈ es, e.2 ≠ 0) :
    ∀ e ∈ sumCounts es, e.2 ≠ 0 := by
  rw [sumCounts_eq]
  refine List.forall_mem_map.mpr fun name hname => ?_
  exact copies_ne_zero pos (List.mem_eraseDups.mp hname)

/-! ## Lists -/

/-- The passcode lines among lines: those that are numbers. -/
def passcodeLines (lines : List (List Char)) : List (List Char) :=
  lines.filter fun line => line.all Text.isDigitSign

/-- A comment is no passcode line. -/
theorem head?_ne_of_signs {line : List Char} (signs : line.all Text.isDigitSign = true) :
    line.head? ≠ some '#' := by
  intro h
  have hsign := List.all_eq_true.mp signs _ (List.mem_of_mem_head? h)
  revert hsign
  decide

/-- Each passcode line is read, and no other line counts. -/
theorem passcodes_eq_ok_iff {lines : List (List Char)} {codes : List String} :
    (passcodes lines).result = .ok codes ↔
      List.Forall₂ (fun line code => passcodeOf line = .ok code) (passcodeLines lines) codes := by
  induction lines generalizing codes with
  | nil =>
    rw [passcodes, passcodeLines, List.filter_nil, List.forall₂_nil_left_iff]
    exact ⟨fun h => by cases h; rfl, fun h => by cases h; rfl⟩
  | cons line lines ih =>
    rw [passcodes, passcodeLines, List.filter_cons]
    by_cases hnumber : line.all Text.isDigitSign = true
    · rw [if_neg (head?_ne_of_signs hnumber), if_neg (by simp [hnumber]), if_pos hnumber,
        List.forall₂_cons_left_iff]
      simp only [Recorded.result_bind, bind_eq_ok]
      constructor
      · rintro ⟨code, hcode, codes', hcodes, h⟩
        cases h
        exact ⟨code, codes', hcode, ih.mp hcodes, rfl⟩
      · rintro ⟨code, codes', hcode, hcodes, rfl⟩
        exact ⟨code, hcode, codes', ih.mpr hcodes, rfl⟩
    · rw [if_neg hnumber]
      refine Iff.trans ?_ ih
      split
      next => rfl
      next =>
        rw [if_pos (by simp [Bool.eq_false_iff.mpr hnumber]), Recorded.result_bind]
        rfl

/-- A list is read if it has a main section whose passcode lines are; each counts as one copy. -/
theorem read_eq_ok_iff {text : String} {counts : List (String × Nat)} :
    (read text).result = .ok counts ↔ ∃ lines codes, mainLines text.toList = some lines ∧
      List.Forall₂ (fun line code => passcodeOf line = .ok code) (passcodeLines lines) codes ∧
      counts = sumCounts (codes.map fun code => (code, 1)) := by
  unfold read
  cases hlines : mainLines text.toList with
  | none =>
    refine iff_of_false (nomatch ·) ?_
    rintro ⟨_, _, h, -⟩
    cases h
  | some lines =>
    simp only [Recorded.result_bind, bind_eq_ok, passcodes_eq_ok_iff]
    constructor
    · rintro ⟨codes, hcodes, h⟩
      cases h
      exact ⟨lines, codes, rfl, hcodes, rfl⟩
    · rintro ⟨_, codes, h, hcodes, rfl⟩
      cases h
      exact ⟨codes, hcodes, rfl⟩

/-- A passcode may be the name of a card. -/
theorem named_of_passcodeOf {line : List Char} {code : String} (h : passcodeOf line = .ok code) :
    code ≠ Card.emptyName ∧ Text.isBlankText code.toList = false := by
  unfold passcodeOf at h
  split at h
  next n _ =>
    cases h
    have hsigns : ∀ c ∈ Number.wholeDigits n, c.isDigit = true ∨ c = '-' := by
      cases n with
      | ofNat n => exact fun c hc => .inl (Text.isDigit_of_mem_decimalDigits hc)
      | negSucc n =>
        exact List.forall_mem_cons.mpr
          ⟨.inr rfl, fun c hc => .inl (Text.isDigit_of_mem_decimalDigits hc)⟩
    have hne : Number.wholeDigits n ≠ [] := by
      cases n with
      | ofNat n => exact Text.decimalDigits_ne_nil n
      | negSucc n => exact List.cons_ne_nil _ _
    rw [String.toList_ofList]
    constructor
    · intro heq
      have hmem : 'E' ∈ Number.wholeDigits n := by
        rw [← String.toList_ofList (l := Number.wholeDigits n), heq]
        decide
      rcases hsigns 'E' hmem with h | h <;> revert h <;> decide
    · obtain ⟨c, cs, heq⟩ := List.exists_cons_of_ne_nil hne
      have hblank : Text.isBlank c = false := by
        rcases hsigns c (heq ▸ List.mem_cons_self) with h | rfl
        · exact Text.forall_isDigit (P := fun c => Text.isBlank c = false) (by decide) h
        · decide
      rw [heq, Text.isBlankText, List.all_cons, hblank, Bool.false_and]
  next => cases h

theorem forall_named {lines : List (List Char)} {codes : List String}
    (h : List.Forall₂ (fun line code => passcodeOf line = .ok code) lines codes) :
    ∀ code ∈ codes, code ≠ Card.emptyName ∧ Text.isBlankText code.toList = false := by
  induction h with
  | nil => exact List.forall_mem_nil _
  | cons hcode _ ih => exact List.forall_mem_cons.mpr ⟨named_of_passcodeOf hcode, ih⟩

/-! ## Conversion -/

/-- Counts under the names of their passcodes; a name may be there more than once. -/
def resolved (names : List (String × String)) (counts : List (String × Nat)) :
    List (String × Nat) :=
  counts.map fun e => (nameOf names e.1, e.2)

/-- What a deck holds that has counts of cards without labels. -/
def holdingsOf (counts : List (String × Nat)) : List Holding :=
  counts.map fun e => ⟨e.1, e.2, [], false⟩

/-- The data of a converted document. -/
def documentData (counts : List (String × Nat)) : Data :=
  .map [
    (.text "deck", .map (counts.map fun e =>
      (.text e.1, .map [(.text "qty", .scalar (.whole e.2)), (.text "tags", .list [])]))),
    (.text "conditions", .list [])]

theorem toData_document (counts : List (String × Nat)) :
    (Outline.record (document counts)).toData = documentData counts := by
  rw [document, Outline.toData, Outline.entriesData, Outline.toData, Outline.entriesData_eq_map,
    List.map_map]
  rfl

theorem result_convert (names : List (String × String)) (text : String) :
    (convert names text).result = do
      let counts ← (read text).result
      return Yaml.render (document (countsByName names counts)) := by
  rw [convert, Recorded.result_bind]
  rfl

/-- The entries of a converted deck are read as what the counts say. -/
theorem fits_counts (counts : List (String × Nat)) :
    List.Forall₂ Document.Fits (counts.map fun e =>
      (.text e.1, .map [(.text "qty", .scalar (.whole e.2)), (.text "tags", .list [])]))
      (holdingsOf counts) := by
  refine List.forall₂_map_left_iff.mpr (List.forall₂_map_right_iff.mpr ?_)
  exact List.forall₂_same.mpr fun e _ => ⟨rfl, rfl, rfl⟩

/-- Counts that are added up can be built as a deck if their names may be given to cards. -/
theorem listed_sumCounts {es : List (String × Nat)} (pos : ∀ e ∈ es, e.2 ≠ 0)
    (named : ∀ e ∈ es, e.1 ≠ Card.emptyName ∧ Text.isBlankText e.1.toList = false) :
    Deck.Listed (holdingsOf (sumCounts es)) where
  distinct := by
    have hnames : (holdingsOf (sumCounts es)).map Holding.name = (es.map Prod.fst).eraseDups := by
      rw [holdingsOf, sumCounts_eq, List.map_map, List.map_map]
      exact List.map_id _
    rw [hnames]
    exact nodup_eraseDups _
  named := by
    refine List.forall_mem_map.mpr ?_
    rw [sumCounts_eq]
    refine List.forall_mem_map.mpr fun name hname => ?_
    obtain ⟨e, he, rfl⟩ := List.mem_map.mp (List.mem_eraseDups.mp hname)
    exact named e he
  copies := List.forall_mem_map.mpr fun e he => sumCounts_pos pos e he

/-- The name of a passcode may be given to a card, if those of the lookup may. -/
theorem named_nameOf {names : List (String × String)} {code : String}
    (hnames : ∀ e ∈ names, Text.isBlankText e.2.toList = false ∧ e.2 ≠ Card.emptyName)
    (hcode : code ≠ Card.emptyName ∧ Text.isBlankText code.toList = false) :
    nameOf names code ≠ Card.emptyName ∧ Text.isBlankText (nameOf names code).toList = false := by
  unfold nameOf
  cases hlookup : names.lookup code with
  | none => exact hcode
  | some name =>
    obtain ⟨before, after, rfl, -⟩ := List.lookup_eq_some_iff.mp hlookup
    exact (hnames (code, name) (List.mem_append_right _ List.mem_cons_self)).symm

/-- A list that can be read is converted, under a lookup whose names may be given to cards. If the
converted text says what was converted, then it is loaded, without conditions; the deck counts each
resulting name once, in order of first appearance, with the copies of all passcodes of that name; its
real cards are the passcode lines of the main section, and it is filled up to forty slots. -/
theorem load_convert {names : List (String × String)} {text : String}
    {counts : List (String × Nat)} (hread : (read text).result = .ok counts)
    (hnames : ∀ e ∈ names, Text.isBlankText e.2.toList = false ∧ e.2 ≠ Card.emptyName) :
    ∃ saved lines, (convert names text).result = .ok saved ∧
      mainLines text.toList = some lines ∧
      (Yaml.load saved =
          .ok (Outline.record (document (countsByName names counts))).toData → ∀ source,
        ∃ s, (Library.load .default Deck.ofEntries source saved).result = .ok s ∧
          s.conditions = [] ∧
          s.deck.counts = ((resolved names counts).map Prod.fst).eraseDups.map
            (fun name => (name, copies name (resolved names counts))) ∧
          s.deck.realSize = (passcodeLines lines).length ∧
          s.deck.size = max 40 (passcodeLines lines).length) := by
  obtain ⟨lines, codes, hlines, hcodes, rfl⟩ := read_eq_ok_iff.mp hread
  generalize hcounts : sumCounts (codes.map fun code => (code, 1)) = counts at hread ⊢
  refine ⟨_, lines, by rw [result_convert, hread]; rfl, hlines, fun hsays source => ?_⟩
  have hpos : ∀ e ∈ resolved names counts, e.2 ≠ 0 := by
    refine List.forall_mem_map.mpr ?_
    rw [← hcounts]
    exact sumCounts_pos (List.forall_mem_map.mpr fun _ _ => Nat.one_ne_zero)
  have hnamed : ∀ e ∈ resolved names counts,
      e.1 ≠ Card.emptyName ∧ Text.isBlankText e.1.toList = false := by
    refine List.forall_mem_map.mpr ?_
    rw [← hcounts, sumCounts_eq]
    refine List.forall_mem_map.mpr fun code hcode => named_nameOf hnames ?_
    rw [List.mem_eraseDups, List.map_map] at hcode
    obtain ⟨code', hmem, rfl⟩ := List.mem_map.mp hcode
    exact forall_named hcodes code' hmem
  have hlisted := listed_sumCounts hpos hnamed
  rw [toData_document] at hsays
  have hconditions : some (Data.list []) =
      some (.list (([] : List String).map fun s => .scalar (.text s))) := rfl
  obtain ⟨deck, hholdings, hsize, hresult⟩ := Document.result_read_of_fits 40 hsays rfl
    (fits_counts _) hconditions hlisted
  have hreal : deck.realSize = (passcodeLines lines).length := by
    have hones : ((codes.map fun code => (code, 1)).map Prod.snd).sum = codes.length := by
      rw [List.map_map]
      show (codes.map fun _ => 1).sum = _
      rw [List.map_const', List.sum_replicate_nat, Nat.mul_one]
    calc deck.realSize
        = ((countsByName names counts).map Prod.snd).sum := by
          rw [← Deck.sum_qty_holdings, hholdings, holdingsOf, List.map_map]
          rfl
      _ = (counts.map Prod.snd).sum := by
          rw [countsByName, sum_sumCounts, List.map_map]
          rfl
      _ = (passcodeLines lines).length := by
          rw [← hcounts, sum_sumCounts, hones, hcodes.length_eq]
  refine ⟨⟨deck, []⟩, ?_, rfl, ?_, hreal, hreal ▸ hsize⟩
  · refine Library.result_load_eq_ok_iff.mpr ⟨40, rfl, ?_⟩
    rw [hresult]
    rfl
  · rw [Deck.counts_eq_map_holdings, hholdings, holdingsOf, List.map_map, ← sumCounts_eq]
    exact List.map_id _

/-- A list with three passcodes, one of them twice, and a line that is no number. -/
def threeCodes : String :=
  "#main\n1\n02\nx\n3\n1\n!side\n4\n"

/-- A lookup that gives one passcode the text of another, one a name, and one none. -/
def threeNames : List (String × String) :=
  [("1", "3"), ("2", "A")]

/-- The list as it is converted. -/
def threeSaved : String :=
  "deck:\n  '3':\n    qty: 3\n    tags: []\n  A:\n    qty: 1\n    tags: []\nconditions: []\n"

/-- The node of the converted document. -/
def threeNode : Yaml.Node :=
  .map .map [
    (.scalar .text "deck".toList, .map .map [
      (.scalar .text ['3'], .map .map [(.scalar .text "qty".toList, .scalar .whole ['3']),
        (.scalar .text "tags".toList, .list .list [])]),
      (.scalar .text ['A'], .map .map [(.scalar .text "qty".toList, .scalar .whole ['1']),
        (.scalar .text "tags".toList, .list .list [])])]),
    (.scalar .text "conditions".toList, .list .list [])]

/-- The list is converted and loaded with the copies of two passcodes under one name. -/
theorem load_convert_threeCodes :
    (read threeCodes).result = .ok [("1", 2), ("2", 1), ("3", 1)] ∧
      (∀ e ∈ threeNames, Text.isBlankText e.2.toList = false ∧ e.2 ≠ Card.emptyName) ∧
      (convert threeNames threeCodes).result = .ok threeSaved ∧
      ∃ s, (Library.load .default Deck.ofEntries "YAML" threeSaved).result = .ok s ∧
        s.conditions = [] ∧ s.deck.counts = [("3", 3), ("A", 1)] ∧ s.deck.realSize = 4 ∧
        s.deck.size = 40 := by
  have hread : (read threeCodes).result = .ok [("1", 2), ("2", 1), ("3", 1)] :=
    toOption_eq_some.mp (by decide +kernel)
  have hnames : ∀ e ∈ threeNames, Text.isBlankText e.2.toList = false ∧ e.2 ≠ Card.emptyName := by
    decide +kernel
  have hconvert : (convert threeNames threeCodes).result = .ok threeSaved :=
    toOption_eq_some.mp (by decide +kernel)
  have hlines : mainLines threeCodes.toList = some [['1'], ['0', '2'], ['x'], ['3'], ['1']] := by
    decide +kernel
  obtain ⟨saved, lines, hsaved, hlines', hload⟩ := load_convert hread hnames
  cases hconvert.symm.trans hsaved
  cases hlines.symm.trans hlines'
  have hnode : Yaml.Node.ofText threeSaved.toList = .ok (some threeNode) :=
    toOption_eq_some.mp (by decide +kernel)
  have hsays : Yaml.load threeSaved = .ok (Outline.record
      (document (countsByName threeNames [("1", 2), ("2", 1), ("3", 1)]))).toData := by
    rw [Yaml.load, hnode]
    rfl
  obtain ⟨s, hs, hconditions, hcounts, hreal, hsize⟩ := hload hsays "YAML"
  refine ⟨hread, hnames, hconvert, s, hs, hconditions, hcounts.trans ?_, hreal, hsize⟩
  decide +kernel

end OpeningHand.PasscodeList
