import Mathlib.Data.List.Count
import OpeningHand.Proofs.PasscodeList.Section

/-!
# What is counted

Reading a list counts the numbers on the passcode lines of its main section: each number once, in
order of first appearance, under its canonical numeral (`counts_of_read`). Two lines with one number
count together, however they are written, since a numeral has one number.

Conversion adds the counts up by name. A name may stand for several passcodes, by the lookup or
because a passcode without a name is the name of another; no copy is lost or moved by that
(`convert_conserves`).
-/

namespace OpeningHand.PasscodeList

/-! ## Numbers and their numerals -/

/-- The numeral of a number is its own. -/
theorem toString_injective : Function.Injective (toString : Nat → String) := by
  intro m n h
  have hdigits : Text.decimalDigits m = Text.decimalDigits n :=
    String.ofList_injective h
  rw [← Text.decimalValue_decimalDigits m, hdigits, Text.decimalValue_decimalDigits]

/-! ## Counts of single copies -/

theorem copies_ones (name : String) (codes : List String) :
    copies name (codes.map fun code => (code, 1)) = codes.count name := by
  induction codes using List.reverseRecOn with
  | nil => rfl
  | append_singleton codes code ih =>
    rw [List.map_append, List.map_singleton, copies_concat, ih, List.count_append,
      List.count_singleton]
    by_cases hname : name = code
    · simp [hname]
    · simp [hname, Ne.symm hname]

/-- One copy of each item, added up: the items once each, with how often they are there. -/
theorem sumCounts_ones (codes : List String) :
    sumCounts (codes.map fun code => (code, 1)) =
      codes.eraseDups.map fun code => (code, codes.count code) := by
  have hcodes : (codes.map fun code => (code, 1)).map Prod.fst = codes := by
    rw [List.map_map]
    exact List.map_id codes
  rw [sumCounts_eq, hcodes]
  simp only [copies_ones]

theorem sum_ones (codes : List String) :
    ((sumCounts (codes.map fun code => (code, 1))).map Prod.snd).sum = codes.length := by
  rw [sum_sumCounts, List.map_map]
  show (codes.map fun _ => 1).sum = codes.length
  rw [List.map_const', List.sum_replicate_nat, Nat.mul_one]

/-- The numbers on the passcode lines among lines, in order. -/
def numbers (lines : List (List Char)) : List Nat :=
  (passcodeLines lines).map Text.decimalValue

/-- Passcode lines are counted by their numbers. -/
theorem sumCounts_passcodes (lines : List (List Char)) :
    sumCounts ((passcodeLines lines).map fun line => (passcode line, 1)) =
      (numbers lines).eraseDups.map fun n => (toString n, (numbers lines).count n) := by
  have hcodes : (passcodeLines lines).map (fun line => (passcode line, 1)) =
      ((numbers lines).map toString).map fun code => (code, 1) := by
    rw [numbers, List.map_map, List.map_map]
    rfl
  rw [hcodes, sumCounts_ones, eraseDups_map toString_injective, List.map_map]
  refine List.map_congr_left fun n _ => ?_
  exact congrArg (toString n, ·) (List.count_map_of_injective _ _ toString_injective n)

theorem nodup_keys_sumCounts (es : List (String × Nat)) : ((sumCounts es).map Prod.fst).Nodup := by
  rw [sumCounts_eq, List.map_map]
  exact (List.map_id _).symm ▸ nodup_eraseDups (es.map Prod.fst)

/-! ## Reading -/

variable {text : String} {counts : List (String × Nat)}

theorem nodup_of_read (h : (read text).result = .ok counts) : (counts.map Prod.fst).Nodup := by
  obtain ⟨_, -, -, -, rfl⟩ := read_of_ok h
  exact nodup_keys_sumCounts _

/-- The counts of a list that is read add up to the passcode lines of its main section. -/
theorem sum_of_read {lines : List (List Char)} (h : (read text).result = .ok counts)
    (hlines : mainLines text.toList = some lines) :
    (counts.map Prod.snd).sum = (passcodeLines lines).length := by
  obtain ⟨lines', hlines', -, -, rfl⟩ := read_of_ok h
  obtain rfl : lines = lines' := Option.some.inj (hlines.symm.trans hlines')
  have hcodes : (passcodeLines lines).map (fun line => (passcode line, 1)) =
      ((passcodeLines lines).map passcode).map fun code => (code, 1) := by
    rw [List.map_map]
    rfl
  rw [hcodes, sum_ones, List.length_map]

/-- A list that is read is counted exactly. Its main section is what stands between the first main
header and the first line after it that starts another deck. The lines there that are no comments
and consist of digits are numerals, and the counts hold the number of each once, in order of first
appearance, under its canonical numeral, with how many of the lines denote it. So the counts add up
to these lines. Every other line that is no comment is warned of. -/
theorem counts_of_read (h : (read text).result = .ok counts) :
    ∃ lines, IsMain (contentLines text.toList) lines ∧
      passcodeLines lines =
        lines.filter (fun line => line.head? ≠ some '#' && line.all Text.isDigitSign) ∧
      (∀ line ∈ passcodeLines lines, IsPasscode line) ∧
      counts = (numbers lines).eraseDups.map (fun n => (toString n, (numbers lines).count n)) ∧
      (counts.map Prod.fst).Nodup ∧
      (counts.map Prod.snd).sum = (passcodeLines lines).length ∧
      (read text).records = (lines.filter fun line =>
        line.head? ≠ some '#' && !line.all Text.isDigitSign).map warning := by
  obtain ⟨lines, hlines, hpasscodes, hrecords, hcounts⟩ := read_of_ok h
  refine ⟨lines, mainLines_eq_some_iff.mp hlines, ?_, hpasscodes, ?_, nodup_of_read h,
    sum_of_read h hlines, hrecords⟩
  · refine List.filter_congr fun line _ => ?_
    cases hsigns : line.all Text.isDigitSign with
    | false => rw [Bool.and_false]
    | true => rw [Bool.and_true, decide_eq_true (head?_ne_of_signs hsigns)]
  · rw [hcounts, sumCounts_passcodes]

/-- A list with lines before its header and after its main section, one passcode written in three
ways, a comment, and a line that is no number. -/
def mixedList : String :=
  "7\n#created by\r\n #main \n007\n#note\n12\n\n7\n1-2\n٧\n#main\n!side\n7\n"

theorem counts_of_read_mixedList :
    (read mixedList).result = .ok [("7", 3), ("12", 1)] ∧
      ∃ lines, IsMain (contentLines mixedList.toList) lines ∧ numbers lines = [7, 12, 7, 7] ∧
        (read mixedList).records = [warning "1-2".toList] := by
  have hread : (read mixedList).result = .ok [("7", 3), ("12", 1)] :=
    toOption_eq_some.mp (by decide +kernel)
  obtain ⟨lines, hmain, -, -, -, -, -, hrecords⟩ := counts_of_read hread
  have hlines : mainLines mixedList.toList = some
      ["007".toList, "#note".toList, "12".toList, "7".toList, "1-2".toList, "٧".toList,
        "#main".toList] := by
    decide +kernel
  obtain rfl := Option.some.inj (hlines.symm.trans (mainLines_eq_some_iff.mpr hmain))
  exact ⟨hread, _, hmain, by decide +kernel, hrecords.trans (by decide +kernel)⟩

/-! ## Conversion -/

theorem total_eq_sum (counts : List (String × Nat)) : total counts = (counts.map Prod.snd).sum := by
  rw [total, List.sum_eq_foldl, List.foldl_map]

theorem convert_of_read (h : (read text).result = .ok counts) (names : List (String × String)) :
    convert names text = ⟨(read text).records ++ (unknownNames names counts ++
        [⟨.passcodes, .info,
          "Converted YDK main deck with " ++ toString (total counts) ++ " cards"⟩]),
      .ok (Yaml.render (document (countsByName names counts)))⟩ :=
  Recorded.bind_of_ok h

/-- The passcodes that a lookup should know and does not. -/
def unnamed (names : List (String × String)) (counts : List (String × Nat)) : List String :=
  if names.isEmpty then [] else (counts.map Prod.fst).filter fun code => (names.lookup code).isNone

theorem unknownNames_eq (names : List (String × String)) (counts : List (String × Nat)) :
    unknownNames names counts = (unnamed names counts).map fun code =>
      ⟨.passcodes, .warning, "No card name known for passcode " ++ code⟩ := by
  unfold unknownNames unnamed
  split
  · rfl
  · rw [List.filter_map, List.map_map]
    rfl

theorem mem_unnamed_iff {names : List (String × String)} {code : String} :
    code ∈ unnamed names counts ↔
      names ≠ [] ∧ code ∈ counts.map Prod.fst ∧ names.lookup code = none := by
  unfold unnamed
  split
  next h => exact iff_of_false List.not_mem_nil fun hne => hne.1 (List.isEmpty_iff.mp h)
  next h =>
    rw [List.mem_filter, Option.isNone_iff_eq_none]
    exact (and_iff_right fun hnil => h (List.isEmpty_iff.mpr hnil)).symm

theorem nodup_unnamed (names : List (String × String)) (distinct : (counts.map Prod.fst).Nodup) :
    (unnamed names counts).Nodup := by
  unfold unnamed
  split
  · exact List.nodup_nil
  · exact distinct.filter _

/-- A list that is read is converted without losing a card, whatever the lookup. The deck that is
written has the names of the passcodes, each once and in order of first appearance; a name has all
the copies of the passcodes that it stands for, so there are as many copies in all as before; no
card has labels. Beside what reading records there is one warning for each passcode that a lookup
with names does not know, and one note of the cards in all. -/
theorem convert_conserves (h : (read text).result = .ok counts) (names : List (String × String)) :
    ∃ deck : List (String × Nat),
      (convert names text).result = .ok (Yaml.render [
        ("deck", .record (deck.map fun e =>
          (e.1, .record [("qty", .number e.2), ("tags", .list [])]))),
        ("conditions", .list [])]) ∧
      deck.map Prod.fst = (counts.map fun e => nameOf names e.1).eraseDups ∧
      (deck.map Prod.fst).Nodup ∧
      (∀ e ∈ deck, e.2 = ((counts.filter fun c => nameOf names c.1 = e.1).map Prod.snd).sum) ∧
      (deck.map Prod.snd).sum = (counts.map Prod.snd).sum ∧
      ∃ missing : List String, missing.Nodup ∧
        (∀ code, code ∈ missing ↔
          names ≠ [] ∧ code ∈ counts.map Prod.fst ∧ names.lookup code = none) ∧
        (convert names text).records = (read text).records ++ (missing.map (fun code =>
            ⟨.passcodes, .warning, "No card name known for passcode " ++ code⟩) ++
          [⟨.passcodes, .info, "Converted YDK main deck with " ++
            toString (counts.map Prod.snd).sum ++ " cards"⟩]) := by
  have hconvert := convert_of_read h names
  have hkeys : (resolved names counts).map Prod.fst = counts.map fun e => nameOf names e.1 := by
    rw [resolved, List.map_map]
    rfl
  have hdeck : countsByName names counts = sumCounts (resolved names counts) := rfl
  refine ⟨countsByName names counts, by rw [hconvert]; rfl, ?_, nodup_keys_sumCounts _, ?_, ?_,
    unnamed names counts, nodup_unnamed names (nodup_of_read h), fun code => mem_unnamed_iff, ?_⟩
  · rw [hdeck, sumCounts_eq, List.map_map, hkeys]
    exact List.map_id _
  · rw [hdeck, sumCounts_eq]
    refine List.forall_mem_map.mpr fun name _ => ?_
    rw [copies, resolved, List.filter_map, List.map_map]
    rfl
  · rw [hdeck, sum_sumCounts, resolved, List.map_map]
    rfl
  · rw [hconvert, unknownNames_eq, total_eq_sum]

/-- Five cards under four passcodes. -/
def fiveCards : String :=
  "#main\n3\n1\n2\n1\n4\n"

/-- One passcode has the text of another as its name, one a name of its own; two have none. -/
theorem convert_conserves_fiveCards :
    (read fiveCards).result = .ok [("3", 1), ("1", 2), ("2", 1), ("4", 1)] ∧
      ∃ deck : List (String × Nat), deck = [("3", 3), ("A", 1), ("4", 1)] ∧
        (convert [("1", "3"), ("2", "A")] fiveCards).result = .ok (Yaml.render [
          ("deck", .record (deck.map fun e =>
            (e.1, .record [("qty", .number e.2), ("tags", .list [])]))),
          ("conditions", .list [])]) := by
  have hread : (read fiveCards).result = .ok [("3", 1), ("1", 2), ("2", 1), ("4", 1)] :=
    toOption_eq_some.mp (by decide +kernel)
  obtain ⟨deck, hresult, hnames, -, hqty, -⟩ := convert_conserves hread [("1", "3"), ("2", "A")]
  have hdeck : deck = (deck.map Prod.fst).map fun name =>
      (name, (([("3", 1), ("1", 2), ("2", 1), ("4", 1)].filter fun c =>
        nameOf [("1", "3"), ("2", "A")] c.1 = name).map Prod.snd).sum) := by
    rw [List.map_map]
    conv_lhs => rw [← List.map_id deck]
    exact List.map_congr_left fun e he => Prod.ext rfl (hqty e he)
  rw [hnames] at hdeck
  exact ⟨hread, deck, hdeck.trans (by decide +kernel), hresult⟩

end OpeningHand.PasscodeList
