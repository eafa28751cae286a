import OpeningHand.Proofs.Condition.Completeness
import OpeningHand.Proofs.Condition.Name
import OpeningHand.Proofs.Text.Numeral

/-!
# Conditions as trees

What a condition holds (its tests, how deep its groups nest, how many members they have), and the
condition that is left of it when groups of one member give way to that member.

The second half says which conditions a text can write at all. Their groups have two members and
more, nest at most one level deeper than the text's parentheses, and their tests have plain names
and quantities that can be written (`Writable`).
-/

namespace OpeningHand.Condition

open Grammar

/-! ## Measures -/

mutual

/-- The tests of a condition, in order. -/
def tests : Condition → List CardTest
  | .card test => [test]
  | .group _ members => testsAll members

/-- The tests of conditions, in order. -/
def testsAll : List Condition → List CardTest
  | [] => []
  | c :: cs => c.tests ++ testsAll cs

end

mutual

/-- How deep the groups of a condition nest. -/
def depth : Condition → Nat
  | .card _ => 0
  | .group _ members => depthAll members + 1

/-- How deep the groups of conditions nest. -/
def depthAll : List Condition → Nat
  | [] => 0
  | c :: cs => max c.depth (depthAll cs)

end

mutual

/-- Every group has at least so many members. -/
def GroupsHave (least : Nat) : Condition → Prop
  | .card _ => True
  | .group _ members => least ≤ members.length ∧ AllGroupsHave least members

/-- Every group in some conditions has at least so many members. -/
def AllGroupsHave (least : Nat) : List Condition → Prop
  | [] => True
  | c :: cs => c.GroupsHave least ∧ AllGroupsHave least cs

end

theorem testsAll_append (cs ds : List Condition) :
    testsAll (cs ++ ds) = testsAll cs ++ testsAll ds := by
  induction cs with
  | nil => rfl
  | cons c cs ih => rw [List.cons_append, testsAll, testsAll, ih, List.append_assoc]

theorem depthAll_append (cs ds : List Condition) :
    depthAll (cs ++ ds) = max (depthAll cs) (depthAll ds) := by
  induction cs with
  | nil => simp [depthAll]
  | cons c cs ih => rw [List.cons_append, depthAll, depthAll, ih, Nat.max_assoc]

/-- Members of two lists keep to a bound if those of each do. -/
theorem allGroupsHave_append {least : Nat} {cs ds : List Condition}
    (hcs : AllGroupsHave least cs) (hds : AllGroupsHave least ds) :
    AllGroupsHave least (cs ++ ds) := by
  induction cs with
  | nil => exact hds
  | cons c cs ih => exact ⟨hcs.1, ih hcs.2⟩

mutual

/-- Groups that have more members have fewer as well. -/
theorem GroupsHave.mono {least more : Nat} (h : least ≤ more) :
    ∀ {c : Condition}, c.GroupsHave more → c.GroupsHave least
  | .card _, _ => trivial
  | .group _ _, hc => ⟨h.trans hc.1, AllGroupsHave.mono h hc.2⟩

theorem AllGroupsHave.mono {least more : Nat} (h : least ≤ more) :
    ∀ {cs : List Condition}, AllGroupsHave more cs → AllGroupsHave least cs
  | [], _ => trivial
  | _ :: _, hcs => ⟨hcs.1.mono h, AllGroupsHave.mono h hcs.2⟩

end

/-! ## Collapsing -/

/-- The group of some members, or the member if there is only one. -/
def regroup (connective : Connective) : List Condition → Condition
  | [c] => c
  | cs => .group connective cs

mutual

/-- The condition with every group of one member replaced by what that member collapses to. -/
def collapse : Condition → Condition
  | .card test => .card test
  | .group connective members => regroup connective (collapseAll members)

/-- Conditions collapsed one by one. -/
def collapseAll : List Condition → List Condition
  | [] => []
  | c :: cs => c.collapse :: collapseAll cs

end

/-- Regrouping loses no test. -/
theorem tests_regroup (connective : Connective) (cs : List Condition) :
    (regroup connective cs).tests = testsAll cs := by
  unfold regroup
  split
  next c => rw [testsAll, testsAll, List.append_nil]
  next => rfl

/-- A group of two or more stays a group. -/
theorem regroup_of_two {connective : Connective} {cs : List Condition} (two : 2 ≤ cs.length) :
    regroup connective cs = .group connective cs := by
  unfold regroup
  split
  next => exact absurd two (by simp)
  next => rfl

mutual

/-- Collapsing keeps the tests. -/
theorem tests_collapse : ∀ c : Condition, c.collapse.tests = c.tests
  | .card _ => rfl
  | .group _ members => by rw [collapse, tests_regroup, testsAll_collapseAll members, tests]

theorem testsAll_collapseAll : ∀ cs : List Condition, testsAll (collapseAll cs) = testsAll cs
  | [] => rfl
  | c :: cs => by
    rw [collapseAll, testsAll, testsAll, tests_collapse c, testsAll_collapseAll cs]

end

mutual

/-- Where no group has one member, there is nothing to collapse. -/
theorem collapse_eq_self : ∀ {c : Condition}, c.GroupsHave 2 → c.collapse = c
  | .card _, _ => rfl
  | .group _ members, h => by
    rw [collapse, collapseAll_eq_self h.2, regroup_of_two h.1]

/-- Where no group has a single member, nothing collapses. -/
theorem collapseAll_eq_self : ∀ {cs : List Condition}, AllGroupsHave 2 cs → collapseAll cs = cs
  | [], _ => rfl
  | _ :: _, h => by rw [collapseAll, collapse_eq_self h.1, collapseAll_eq_self h.2]

end

/-! ## Groups of what a text writes -/

variable {text : List Char}

mutual

/-- A text writes no group of less than two members. -/
theorem Grammar.Expr.groupsHave {ts : List Token} {c : Condition} :
    Expr text ts c → c.GroupsHave 2
  | .single term => term.groupsHave
  | .group joined two => ⟨two, joined.groupsHave⟩

/-- Terms that are joined make groups of two and more. -/
theorem Grammar.Joined.groupsHave {k : Connective} {ts : List Token} {cs : List Condition} :
    Joined text k ts cs → AllGroupsHave 2 cs
  | .one term => ⟨term.groupsHave, trivial⟩
  | .next joined _ term => allGroupsHave_append joined.groupsHave ⟨term.groupsHave, trivial⟩

/-- A term in parentheses adds no group of its own. -/
theorem Grammar.Term.groupsHave {ts : List Token} {c : Condition} :
    Term text ts c → c.GroupsHave 2
  | .parentheses _ inner _ => inner.groupsHave
  | .leaf _ _ => trivial

end

mutual

/-- Groups nest one level deeper than parentheses at most: the outermost needs none. -/
theorem Grammar.Expr.depth_le {ts : List Token} {c : Condition} :
    Expr text ts c → ∃ d, Balanced d ts ∧ c.depth ≤ d + 1
  | .single term => by
    obtain ⟨d, hd, hle⟩ := term.depth_le
    exact ⟨d, hd, Nat.le_succ_of_le hle⟩
  | .group joined _ => by
    obtain ⟨d, hd, hle⟩ := joined.depth_le
    exact ⟨d, hd, Nat.succ_le_succ hle⟩

/-- Terms side by side nest as deep as the deepest. -/
theorem Grammar.Joined.depth_le {k : Connective} {ts : List Token} {cs : List Condition} :
    Joined text k ts cs → ∃ d, Balanced d ts ∧ depthAll cs ≤ d
  | .one term => by
    obtain ⟨d, hd, hle⟩ := term.depth_le
    exact ⟨d, hd, by simpa [depthAll] using hle⟩
  | .next joined kind term => by
    obtain ⟨d, hd, hle⟩ := joined.depth_le
    obtain ⟨e, he, hle'⟩ := term.depth_le
    refine ⟨_, hd.append (he.cons_flat (by simp [kind]) (by simp [kind])), ?_⟩
    simp only [depthAll_append, depthAll]
    omega

/-- A pair of parentheses may add one level, or none if it encloses a single term. -/
theorem Grammar.Term.depth_le {ts : List Token} {c : Condition} :
    Term text ts c → ∃ d, Balanced d ts ∧ c.depth ≤ d
  | .parentheses opening inner closing => by
    obtain ⟨d, hd, hle⟩ := inner.depth_le
    exact ⟨_, hd.parentheses opening closing, hle⟩
  | .leaf words _ => ⟨0, balanced_words words, Nat.le_refl 0⟩

end

/-! ## Tests that a text writes -/

/-- A test with a plain name and a quantity that has few enough digits. -/
structure Writable (test : CardTest) : Prop where
  name : PlainName test.name.toList
  quantity : test.quantity < 10 ^ Number.maxDigits

/-- What is cut out of a text from one of its tokens to another holds the tokens between, and no
more than reaches from the first to the last. -/
theorem laid_slice {s : String} {before after ts : List Token} {t : Token}
    (h : tokens s = before ++ (t :: ts ++ after)) :
    Laid t.start (slice s.toList t ts).toList (t :: ts) ∧
      ((t :: ts).getLast (List.cons_ne_nil t ts)).stop =
        t.start + (slice s.toList t ts).toList.length := by
  have laid : Laid 0 s.toList (before ++ (t :: ts ++ after)) := laid_iff.mpr h
  obtain ⟨lead, name, rest, hs, hstart, hname, hstop⟩ := laid.slice
  have hslice : (slice s.toList t ts).toList = name := by
    rw [Nat.zero_add] at hstart
    simp only [slice, String.toList_ofList, hstop, hs, hstart, Nat.add_sub_cancel_left,
      List.drop_left, List.take_left]
  rw [hslice]
  exact ⟨hname, hstop⟩

/-- Words of a text are a plain name, with all that lies between them. -/
theorem plainName_slice {s : String} {before after ts : List Token} {t : Token}
    (h : tokens s = before ++ (t :: ts ++ after)) (words : ∀ u ∈ t :: ts, u.kind = .word) :
    PlainName (slice s.toList t ts).toList :=
  have ⟨hname, hstop⟩ := laid_slice h
  plainName_iff_laid.mpr ⟨t, ts, hname, words, rfl, hstop⟩

/-- What the words of a text write is writable, if their quantity fits. -/
theorem Grammar.Words.writable {s : String} {before after ts : List Token} {test : CardTest}
    (h : Words s.toList ts test) (place : tokens s = before ++ (ts ++ after))
    (words : ∀ t ∈ ts, t.kind = .word) (fit : QuantitiesFit ts) : Writable test := by
  have bounded {digits : List Char} (hle : digits.length ≤ Number.maxDigits) :
      Text.decimalValue digits < 10 ^ Number.maxDigits :=
    (Text.decimalValue_lt digits).trans_le (Nat.pow_le_pow_right (by decide) hle)
  cases h with
  | @atLeast first second more digits numeral lead =>
    have hfit := (quantitiesFit_words words).mp fit digits (lead ▸ numeral.isCount_plus)
      (List.cons_ne_nil second more)
    rw [List.cons_append, List.append_cons] at place
    exact ⟨plainName_slice place (List.forall_mem_cons.mp words).2, bounded hfit⟩
  | @exactly first second more numeral =>
    have hfit := (quantitiesFit_words words).mp fit _ numeral.isCount
      (List.cons_ne_nil second more)
    rw [List.cons_append, List.append_cons] at place
    exact ⟨plainName_slice place (List.forall_mem_cons.mp words).2, bounded hfit⟩
  | named => exact ⟨plainName_slice place words, Nat.one_lt_pow (by decide) (by decide)⟩

mutual

/-- All tests of a condition that a text writes are writable. -/
theorem Grammar.Expr.writable {s : String} {before after ts : List Token} {c : Condition} :
    Expr s.toList ts c → tokens s = before ++ (ts ++ after) → QuantitiesFit ts →
      ∀ test ∈ c.tests, Writable test
  | .single term, place, fit => term.writable place fit
  | .group joined _, place, fit => joined.writable place fit

theorem Grammar.Joined.writable {s : String} {k : Connective} {before after ts : List Token}
    {cs : List Condition} :
    Joined s.toList k ts cs → tokens s = before ++ (ts ++ after) → QuantitiesFit ts →
      ∀ test ∈ testsAll cs, Writable test
  | .one term, place, fit => by
    rw [testsAll, testsAll, List.append_nil]
    exact term.writable place fit
  | @Joined.next _ _ _ _ link more _ joined kind term, place, fit => by
    obtain ⟨fitJoined, fitTerm⟩ := (quantitiesFit_divided (by simp [kind])).mp fit
    rw [List.append_assoc] at place
    have hjoined := joined.writable place fitJoined
    rw [List.cons_append, List.append_cons, ← List.append_assoc] at place
    have hterm := term.writable place fitTerm
    simp only [testsAll_append, testsAll, List.append_nil]
    exact List.forall_mem_append.mpr ⟨hjoined, hterm⟩

theorem Grammar.Term.writable {s : String} {before after ts : List Token} {c : Condition} :
    Term s.toList ts c → tokens s = before ++ (ts ++ after) → QuantitiesFit ts →
      ∀ test ∈ c.tests, Writable test
  | @Term.parentheses _ _ ts _ _ opening inner closing, place, fit => by
    rw [List.cons_append, List.append_cons, List.append_assoc ts] at place
    exact inner.writable place ((quantitiesFit_parentheses opening closing).mp fit)
  | .leaf words writes, place, fit => by
    simp only [tests, List.forall_mem_singleton]
    exact writes.writable place words fit

end

end OpeningHand.Condition
