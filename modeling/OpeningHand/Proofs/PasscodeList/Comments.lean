import OpeningHand.Proofs.PasscodeList.Counts
import OpeningHand.Proofs.Text.Lines

/-!
# Comments in a passcode list

A line that starts with a number sign is passed over wherever it stands in the main section, so a
list with a comment more is read in the same way, records included. But comments and the header of
the extra deck share the sign, and the header is told by how a line starts: a comment that starts
with the words of the header ends the section, and the list is read as if its text ended there. That
drops the cards after the place, if there are any (`comment_inserted`).
-/

namespace OpeningHand.PasscodeList

/-! ## Lines and sections -/

/-- The content of lines: each without the blanks at its ends, and blank lines left out. -/
def content (lines : List (List Char)) : List (List Char) :=
  (lines.map Text.trim).filter fun line => !line.isEmpty

theorem content_append (before after : List (List Char)) :
    content (before ++ after) = content before ++ content after := by
  rw [content, List.map_append, List.filter_append]
  rfl

theorem content_cons {line : List Char} (ne : Text.trim line ≠ []) (lines : List (List Char)) :
    content (line :: lines) = Text.trim line :: content lines := by
  rw [content, List.map_cons, List.filter_cons_of_pos (by simpa using ne)]
  rfl

theorem afterHeader_append {lines rest : List (List Char)} (h : afterHeader lines = some rest)
    (more : List (List Char)) : afterHeader (lines ++ more) = some (rest ++ more) := by
  obtain ⟨intro, rfl, fresh⟩ := afterHeader_eq_some_iff.mp h
  exact afterHeader_eq_some_iff.mpr ⟨intro, by rw [List.append_assoc, List.cons_append], fresh⟩

theorem exists_afterHeader {lines : List (List Char)}
    (header : ∃ line ∈ lines, Text.trim line = mainHeader) :
    ∃ rest, afterHeader (content lines) = some rest := by
  refine Option.ne_none_iff_exists'.mp fun hnone => afterHeader_eq_none_iff.mp hnone ?_
  obtain ⟨line, hmem, hline⟩ := header
  exact List.mem_filter.mpr ⟨List.mem_map.mpr ⟨line, hmem, hline⟩, by decide⟩

/-- The lines of a main section up to the first that starts another deck. -/
def untilOther (lines : List (List Char)) : List (List Char) :=
  lines.takeWhile fun line => !endsSection line

/-- The main section of a text, from the content after its header up to some place and the lines
after the place. -/
theorem mainLines_of_lines {text : List Char} {before after rest : List (List Char)}
    (hlines : Text.lines text = before ++ after) (hrest : afterHeader (content before) = some rest) :
    mainLines text = some (untilOther (rest ++ content after)) := by
  have hcontent : contentLines text = content before ++ content after := by
    rw [← content_append, ← hlines]
    rfl
  rw [mainLines, hcontent, afterHeader_append hrest]
  rfl

/-- A line that starts another deck ends the section. -/
theorem untilOther_append_ends {line : List Char} (ends : endsSection line = true)
    (before after : List (List Char)) :
    untilOther (before ++ line :: after) = untilOther before := by
  rw [untilOther, List.takeWhile_append, List.takeWhile_cons_of_neg (by simp [ends]),
    List.append_nil]
  split
  next h =>
    have hstart := List.takeWhile_prefix (l := before) fun line => !endsSection line
    exact (hstart.eq_of_length h).symm
  next => rfl

/-- What is in a section before some place stays in it with more lines after the place. -/
theorem untilOther_start (before after : List (List Char)) :
    untilOther before <+: untilOther (before ++ after) := by
  rw [untilOther, untilOther, List.takeWhile_append]
  split
  next =>
    have hstart := List.takeWhile_prefix (l := before) fun line => !endsSection line
    exact hstart.trans (List.prefix_append _ _)
  next => exact List.prefix_refl _

/-! ## Comments -/

variable {comment : List Char}

/-- Of the lines that start another deck only the extra deck's start like comments. -/
theorem startsOther_comment (hcomment : comment.head? = some '#') :
    StartsOther comment ↔ "#extra".toList <+: comment := by
  refine or_iff_left fun hside => ?_
  obtain ⟨rest, rfl⟩ := hside
  cases hcomment

theorem passcodes_insert_comment (hcomment : comment.head? = some '#')
    (before after : List (List Char)) :
    passcodes (before ++ comment :: after) = passcodes (before ++ after) := by
  induction before with
  | nil => rw [List.nil_append, passcodes, if_pos hcomment, List.nil_append]
  | cons line before ih =>
    rw [List.cons_append, passcodes, ih, List.cons_append, passcodes]

/-- A comment that starts no other deck makes no difference to a section. -/
theorem passcodes_untilOther_insert (hcomment : comment.head? = some '#')
    (inside : endsSection comment = false) (before after : List (List Char)) :
    passcodes (untilOther (before ++ comment :: after)) =
      passcodes (untilOther (before ++ after)) := by
  rw [untilOther, untilOther, List.takeWhile_append, List.takeWhile_append,
    List.takeWhile_cons_of_pos (by simp [inside])]
  split
  next => exact passcodes_insert_comment hcomment _ _
  next => rfl

/-- What a list counts is decided by the passcode lines of its main section. -/
theorem result_read_congr {text text' : String} {lines lines' : List (List Char)}
    (hlines : mainLines text.toList = some lines) (hlines' : mainLines text'.toList = some lines')
    (same : passcodeLines lines = passcodeLines lines') (counts : List (String × Nat)) :
    (read text).result = .ok counts ↔ (read text').result = .ok counts := by
  simp only [read_eq_ok_iff, hlines, hlines', Option.some.injEq, exists_and_left, exists_eq_left',
    same]

/-- A list cut off within its main section counts the same exactly if no passcode line is cut off:
otherwise there are fewer copies. -/
theorem result_read_start_iff {text cut : String} {lines start : List (List Char)}
    {counts : List (String × Nat)} (hlines : mainLines text.toList = some lines)
    (hcut : mainLines cut.toList = some start) (hstart : start <+: lines)
    (h : (read text).result = .ok counts) :
    (read cut).result = .ok counts ↔ passcodeLines lines = passcodeLines start := by
  constructor
  · intro hread
    have hlength := (sum_of_read hread hcut).symm.trans (sum_of_read h hlines)
    have hpasscodes : passcodeLines start <+: passcodeLines lines := hstart.filter _
    exact (hpasscodes.eq_of_length hlength).symm
  · intro hsame
    exact (result_read_congr hlines hcut hsame counts).mp h

/-- A comment may be inserted as a line anywhere after the header. A comment that does not start
like the header of the extra deck is ignored. One that does ends the list there: what is read is the
text up to the place. So the counts stay as they were exactly if the comment starts otherwise, or no
passcode line of the main section comes after the place. -/
theorem comment_inserted {text : String} {before after : List (List Char)}
    (hlines : Text.lines text.toList = before ++ after)
    (header : ∃ line ∈ before, Text.trim line = mainHeader)
    (hcomment : (Text.trim comment).head? = some '#')
    (unbroken : ∀ c ∈ comment, Text.isLineBoundary c = false) :
    (∃ text' cut : String, Text.lines text'.toList = before ++ comment :: after ∧
      Text.lines cut.toList = before) ∧
    ∀ text' cut : String, Text.lines text'.toList = before ++ comment :: after →
      Text.lines cut.toList = before →
      (¬ "#extra".toList <+: Text.trim comment → read text' = read text) ∧
      ("#extra".toList <+: Text.trim comment → read text' = read cut) ∧
      ∀ counts, (read text).result = .ok counts →
        ((read text').result = .ok counts ↔ ¬ "#extra".toList <+: Text.trim comment ∨
          (mainLines text.toList).map passcodeLines = (mainLines cut.toList).map passcodeLines) := by
  have hunbroken : ∀ line ∈ before ++ after, ∀ c ∈ line, Text.isLineBoundary c = false :=
    hlines ▸ Text.unbroken_of_mem_lines
  obtain ⟨hbefore, hafter⟩ := List.forall_mem_append.mp hunbroken
  constructor
  · obtain ⟨text', hlines'⟩ := Text.exists_text
      (List.forall_mem_append.mpr ⟨hbefore, List.forall_mem_cons.mpr ⟨unbroken, hafter⟩⟩)
    obtain ⟨cut, hcut⟩ := Text.exists_text hbefore
    exact ⟨text', cut, hlines', hcut⟩
  intro text' cut hlines' hcut
  obtain ⟨rest, hrest⟩ := exists_afterHeader header
  have hne : Text.trim comment ≠ [] := by
    intro hnil
    rw [hnil] at hcomment
    cases hcomment
  have hmain := mainLines_of_lines hlines hrest
  have hmain' := mainLines_of_lines hlines' hrest
  rw [content_cons hne] at hmain'
  have hmainCut : mainLines cut.toList = some (untilOther rest) := by
    have h := mainLines_of_lines (hcut.trans (List.append_nil before).symm) hrest
    rwa [content, List.map_nil, List.filter_nil, List.append_nil] at h
  have hends : endsSection (Text.trim comment) = true ↔ "#extra".toList <+: Text.trim comment :=
    endsSection_iff.trans (startsOther_comment hcomment)
  have hother : ¬ "#extra".toList <+: Text.trim comment → read text' = read text := by
    intro hnot
    have inside : endsSection (Text.trim comment) = false := Bool.eq_false_iff.mpr (mt hends.mp hnot)
    rw [read_of_mainLines hmain, read_of_mainLines hmain',
      passcodes_untilOther_insert hcomment inside]
  have hextra : "#extra".toList <+: Text.trim comment → read text' = read cut := by
    intro hstarts
    rw [untilOther_append_ends (hends.mpr hstarts)] at hmain'
    rw [read_of_mainLines hmain', read_of_mainLines hmainCut]
  refine ⟨hother, hextra, fun counts hread => ?_⟩
  rw [hmain, hmainCut, Option.map_some, Option.map_some, Option.some.injEq]
  by_cases hstarts : "#extra".toList <+: Text.trim comment
  · rw [hextra hstarts, or_iff_right (not_not_intro hstarts)]
    exact result_read_start_iff hmain hmainCut (untilOther_start rest (content after)) hread
  · rw [hother hstarts]
    exact iff_of_true hread (.inl hstarts)

/-- A list of two cards. -/
def twoCards : String :=
  "#main\n1\n2\n"

/-- The list with a note between its cards. -/
def twoCardsNoted : String :=
  "#main\n1\n # spare\n2\n"

theorem comment_inserted_spare :
    Text.lines twoCards.toList = ["#main".toList, "1".toList] ++ ["2".toList] ∧
      Text.lines twoCardsNoted.toList =
        ["#main".toList, "1".toList] ++ " # spare".toList :: ["2".toList] ∧
      read twoCardsNoted = read twoCards := by
  have hlines : Text.lines twoCards.toList = ["#main".toList, "1".toList] ++ ["2".toList] := by
    decide +kernel
  have hnoted : Text.lines twoCardsNoted.toList =
      ["#main".toList, "1".toList] ++ " # spare".toList :: ["2".toList] := by
    decide +kernel
  have hcut : Text.lines "#main\n1\n".toList = ["#main".toList, "1".toList] := by
    decide +kernel
  have hcomment : " # spare".toList ∈ Text.lines twoCardsNoted.toList :=
    hnoted ▸ List.mem_append_right _ List.mem_cons_self
  have h := (comment_inserted hlines ⟨_, List.mem_cons_self, by decide +kernel⟩ (by decide +kernel)
    (Text.unbroken_of_mem_lines _ hcomment)).2 twoCardsNoted "#main\n1\n" hnoted hcut
  exact ⟨hlines, hnoted, h.1 (by decide +kernel)⟩

/-- A comment on an extra copy is not the header of the extra deck, but it starts in the same way:
the card after it is lost. -/
theorem card_lost_extraCopy :
    (Text.lines twoCards.toList = ["#main".toList, "1".toList] ++ ["2".toList] ∧
      Text.lines "#main\n1\n#extra copy\n2\n".toList =
        ["#main".toList, "1".toList] ++ "#extra copy".toList :: ["2".toList] ∧
      (Text.trim "#extra copy".toList).head? = some '#' ∧
      (∀ c ∈ "#extra copy".toList, Text.isLineBoundary c = false) ∧
      Text.trim "#extra copy".toList ≠ "#extra".toList) ∧
    (read twoCards).result = .ok [("1", 1), ("2", 1)] ∧
      (read "#main\n1\n#extra copy\n2\n").result = .ok [("1", 1)] := by
  have hcopied : Text.lines "#main\n1\n#extra copy\n2\n".toList =
      ["#main".toList, "1".toList] ++ "#extra copy".toList :: ["2".toList] := by
    decide +kernel
  have hcomment : "#extra copy".toList ∈ Text.lines "#main\n1\n#extra copy\n2\n".toList :=
    hcopied ▸ List.mem_append_right _ List.mem_cons_self
  refine ⟨⟨by decide +kernel, hcopied, by decide +kernel, Text.unbroken_of_mem_lines _ hcomment,
    by decide +kernel⟩, ?_, ?_⟩
  · exact toOption_eq_some.mp (by decide +kernel)
  · exact toOption_eq_some.mp (by decide +kernel)

end OpeningHand.PasscodeList
