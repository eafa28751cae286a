import OpeningHand.Proofs.Condition.Printing

/-!
# Printing and reading back

Reading a printed condition gives the condition back, but for three things that the text cannot
hold: a group of one member (it reads as the member), a name that is not plain, and groups that
nest deeper than the limit. `parse_render_iff` says that nothing else is lost, and
`round_trip_of_parse` what that means for a condition that was read from a text in the first place.
Which conditions those are at all says `exists_parse_iff`.
-/

namespace OpeningHand.Condition

open Grammar

/-- The tokens of a printed condition derive it, collapsed. -/
theorem expr_render {c : Condition} (groups : c.GroupsHave 1)
    (writable : ∀ test ∈ c.tests, Writable test) :
    Expr (render c).toList (tokens (render c)) c.collapse ∧
      Measured c.depth (tokens (render c)) := by
  have hchars : (render c).toList = c.chars := String.toList_ofList
  have place : (render c).toList = [] ++ (c.chars ++ []) := by
    rw [hchars, List.append_nil, List.nil_append]
  obtain ⟨term, measured⟩ := term_chars groups writable place
  have htokens : tokens (render c) = tokensFrom ([] : List Char).length [] c.chars := by
    rw [tokens, hchars]
    rfl
  rw [htokens]
  exact ⟨.single term, measured⟩

/-- A printed condition is read back, collapsed, if its groups keep to the limit. -/
theorem parse_render {c : Condition} (groups : c.GroupsHave 1)
    (writable : ∀ test ∈ c.tests, Writable test) (room : c.depth ≤ maxNesting) :
    parse (render c) = .ok c.collapse := by
  obtain ⟨expr, measured⟩ := expr_render groups writable
  exact parse_of_expr expr (measured.balanced.nesting_eq ▸ room) measured.quantities

/-- A printed condition whose groups do not keep to the limit is refused for that. -/
theorem parse_render_too_deep {c : Condition} (groups : c.GroupsHave 1)
    (writable : ∀ test ∈ c.tests, Writable test) (deep : maxNesting < c.depth) :
    ∃ position, parse (render c) = .error (.fault .tooDeep position) := by
  obtain ⟨expr, measured⟩ := expr_render groups writable
  exact parse_too_deep expr (measured.balanced.nesting_eq ▸ deep) measured.quantities

/-- A group's members with its connective between them, which is its text but for the parentheses
around it. -/
def bare (k : Connective) (members : List Condition) : String :=
  String.ofList (List.intercalate (separator k) (charsAll members))

/-- The outermost group needs no parentheses, and only what lies inside of it is held to the
limit. -/
theorem parse_bare {k : Connective} {members : List Condition} (two : 2 ≤ members.length)
    (groups : AllGroupsHave 2 members) (writable : ∀ test ∈ testsAll members, Writable test)
    (room : depthAll members ≤ maxNesting) : parse (bare k members) = .ok (.group k members) := by
  have ne : members ≠ [] := List.length_pos_iff.mp (Nat.zero_lt_of_lt two)
  have hchars : (bare k members).toList = List.intercalate (separator k) (charsAll members) :=
    String.toList_ofList
  have place : (bare k members).toList =
      [] ++ (List.intercalate (separator k) (charsAll members) ++ []) := by
    rw [hchars, List.append_nil, List.nil_append]
  have htokens : tokens (bare k members) = tokensFrom ([] : List Char).length []
      (List.intercalate (separator k) (charsAll members)) := by
    rw [tokens, hchars]
    rfl
  obtain ⟨joined, measured⟩ := joined_charsAll k ne (groups.mono (by decide)) writable place
  rw [collapseAll_eq_self groups, ← htokens] at joined
  rw [← htokens] at measured
  exact parse_of_expr (.group joined two) (measured.balanced.nesting_eq ▸ room)
    measured.quantities

/-- The tests of a condition that was read are writable. -/
theorem writable_of_parse {text : String} {c : Condition} (h : parse text = .ok c) :
    ∀ test ∈ c.tests, Writable test := by
  obtain ⟨expr, -, fit⟩ := expr_of_parse h
  have place : tokens text = [] ++ (tokens text ++ []) := by
    rw [List.append_nil, List.nil_append]
  exact expr.writable place fit

/-- The groups of a condition that was read keep to the limit, but for the outermost. -/
theorem depth_le_of_parse {text : String} {c : Condition} (h : parse text = .ok c) :
    c.depth ≤ maxNesting + 1 := by
  obtain ⟨expr, nests, -⟩ := expr_of_parse h
  obtain ⟨d, hd, hle⟩ := expr.depth_le
  rw [hd.nesting_eq] at nests
  exact hle.trans (Nat.succ_le_succ nests)

/-- Some text is read as a condition exactly if every group of it has two members and more, its
groups nest at most one level deeper than parentheses may, and its tests have plain names and
quantities that can be written. -/
theorem exists_parse_iff (c : Condition) :
    (∃ text, parse text = .ok c) ↔
      c.GroupsHave 2 ∧ c.depth ≤ maxNesting + 1 ∧ ∀ test ∈ c.tests, Writable test := by
  constructor
  · intro h
    obtain ⟨text, h⟩ := h
    exact ⟨(expr_of_parse h).1.groupsHave, depth_le_of_parse h, writable_of_parse h⟩
  · intro h
    obtain ⟨groups, deep, writable⟩ := h
    cases c with
    | card test => exact ⟨render (.card test), parse_render trivial writable (Nat.zero_le _)⟩
    | group k members =>
      -- with its own parentheses a group at the limit would be one level too deep
      exact ⟨bare k members,
        parse_bare groups.1 groups.2 writable (Nat.le_of_succ_le_succ deep)⟩

/-- Reading a printed condition gives it back, collapsed, exactly if its names are plain and its
groups keep to the limit. Without a group of one member that is the condition itself, and no name
that is not plain ever comes back. -/
theorem parse_render_iff (c : Condition) (groups : c.GroupsHave 1)
    (quantities : ∀ test ∈ c.tests, test.quantity < 10 ^ Number.maxDigits) :
    (parse (render c) = .ok c.collapse ↔
      (∀ test ∈ c.tests, PlainName test.name.toList) ∧ c.depth ≤ maxNesting) ∧
    (c.GroupsHave 2 → c.collapse = c) ∧
    ∀ d, parse (render c) = .ok d → ∀ test ∈ d.tests, PlainName test.name.toList := by
  refine ⟨⟨fun h => ?_, fun ⟨plain, room⟩ => ?_⟩, collapse_eq_self,
    fun d h test ht => (writable_of_parse h test ht).name⟩
  · have plain : ∀ test ∈ c.tests, PlainName test.name.toList := fun test ht =>
      (writable_of_parse h test (tests_collapse c ▸ ht)).name
    have writable : ∀ test ∈ c.tests, Writable test := fun test ht =>
      ⟨plain test ht, quantities test ht⟩
    obtain ⟨-, measured⟩ := expr_render groups writable
    obtain ⟨-, room, -⟩ := expr_of_parse h
    exact ⟨plain, measured.balanced.nesting_eq ▸ room⟩
  · exact parse_render groups (fun test ht => ⟨plain test ht, quantities test ht⟩) room

/-- A name with a number at its front and a group of one member. -/
def fishAlone : Condition :=
  .group .or [.card ⟨"7 Colored Fish", 1, .exactly⟩, .group .and [.card ⟨"3+", 2, .atLeast⟩]]

theorem parse_render_fishAlone :
    (fishAlone.GroupsHave 1 ∧ ∀ test ∈ fishAlone.tests, test.quantity < 10 ^ Number.maxDigits) ∧
      parse (render fishAlone) = .ok fishAlone.collapse := by
  have groups : fishAlone.GroupsHave 1 := ⟨by decide, trivial, ⟨by decide, trivial, trivial⟩,
    trivial⟩
  have quantities : ∀ test ∈ fishAlone.tests, test.quantity < 10 ^ Number.maxDigits := by
    intro test ht
    have hten : test.quantity < 10 ^ 1 := by
      revert test
      decide
    exact hten.trans_le (Nat.pow_le_pow_right (by decide) (by decide))
  exact ⟨⟨groups, quantities⟩,
    (parse_render_iff fishAlone groups quantities).1.mpr ⟨by decide, by decide⟩⟩

/-- A condition that was read is read back from its printed text exactly if its groups keep to the
limit. They can miss it by one level, for the outermost group may be written without parentheses
and is printed with them; then the printed text is refused. -/
theorem round_trip_of_parse (text : String) (c : Condition) (h : parse text = .ok c) :
    (parse (render c) = .ok c ↔ c.depth ≤ maxNesting) ∧
    (maxNesting < c.depth → c.depth = maxNesting + 1 ∧
      ∃ position, parse (render c) = .error (.fault .tooDeep position)) := by
  obtain ⟨expr, nests, -⟩ := expr_of_parse h
  have writable := writable_of_parse h
  have groups : c.GroupsHave 1 := expr.groupsHave.mono (by decide)
  refine ⟨⟨fun hback => ?_, fun room => ?_⟩, fun deep => ⟨?_, ?_⟩⟩
  · by_contra hdeep
    obtain ⟨position, hrefused⟩ := parse_render_too_deep groups writable (Nat.not_le.mp hdeep)
    rw [hrefused] at hback
    cases hback
  · rw [parse_render groups writable room, collapse_eq_self expr.groupsHave]
  · obtain ⟨d, hd, hle⟩ := expr.depth_le
    rw [hd.nesting_eq] at nests
    omega
  · exact parse_render_too_deep groups writable deep

/-- A group in a group; read from a text, the outer one may have no parentheses. -/
def twoOfThree : Condition :=
  .group .and [.card ⟨"A", 2, .atLeast⟩, .group .or [.card ⟨"B", 1, .exactly⟩,
    .card ⟨"C", 1, .exactly⟩]]

theorem round_trip_twoOfThree :
    parse "2+ A AND (B OR C)" = .ok twoOfThree ∧ parse (render twoOfThree) = .ok twoOfThree := by
  have hread : parse "2+ A AND (B OR C)" = .ok twoOfThree := by rfl
  have hdepth : twoOfThree.depth ≤ maxNesting := by decide
  exact ⟨hread, (round_trip_of_parse _ _ hread).1.mpr hdepth⟩

/-- Groups of two, so many one in the other. -/
def ladder : Nat → Condition
  | 0 => .card ⟨"A", 1, .exactly⟩
  | n + 1 => .group .and [.card ⟨"A", 1, .exactly⟩, ladder n]

theorem depth_ladder (n : Nat) : (ladder n).depth = n := by
  induction n with
  | zero => rfl
  | succ n ih => simp [ladder, depth, depthAll, ih]

theorem groupsHave_ladder (n : Nat) : (ladder n).GroupsHave 2 := by
  induction n with
  | zero => trivial
  | succ n ih => exact ⟨Nat.le_refl 2, trivial, ih, trivial⟩

theorem writable_ladder (n : Nat) : ∀ test ∈ (ladder n).tests, Writable test := by
  have hA : Writable ⟨"A", 1, .exactly⟩ := ⟨by decide, Nat.one_lt_pow (by decide) (by decide)⟩
  induction n with
  | zero =>
    simp only [ladder, tests, List.forall_mem_singleton]
    exact hA
  | succ n ih =>
    simp only [ladder, tests, testsAll, List.append_nil, List.singleton_append]
    exact List.forall_mem_cons.mpr ⟨hA, ih⟩

/-- At the limit the round trip fails: without its outermost parentheses the ladder is read, and
its printed text is refused. -/
theorem ladder_not_read_back :
    parse (bare .and [ladder 0, ladder maxNesting]) = .ok (ladder (maxNesting + 1)) ∧
      parse (render (ladder (maxNesting + 1))) ≠ .ok (ladder (maxNesting + 1)) := by
  constructor
  · refine parse_bare (Nat.le_refl 2) ⟨trivial, groupsHave_ladder _, trivial⟩ ?_ ?_
    · simp only [testsAll, List.append_nil]
      exact List.forall_mem_append.mpr ⟨writable_ladder 0, writable_ladder _⟩
    · simp [depthAll, depth_ladder]
  · have deep : maxNesting < (ladder (maxNesting + 1)).depth := by
      rw [depth_ladder]
      exact Nat.lt_succ_self _
    obtain ⟨position, hrefused⟩ := parse_render_too_deep
      ((groupsHave_ladder _).mono (by decide)) (writable_ladder _) deep
    rw [hrefused]
    intro h
    cases h

end OpeningHand.Condition
