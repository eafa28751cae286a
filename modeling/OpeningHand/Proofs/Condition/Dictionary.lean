import OpeningHand.Condition.Dictionary
import OpeningHand.Proofs.Condition.RoundTrip

/-!
# Conditions and their dictionary form

Reading the dictionary form of a condition gives the condition back exactly if it is admitted: its
tests name a card and its groups have a member. Reading admits nothing else, however the data was
written, so what it makes of data (a quantity from a numeral, a sign that was left out, entries it
does not know) has settled after one reading (`ofData_settles`).
-/

namespace OpeningHand

namespace Condition

/-- Tests name a card, and no group is empty. -/
structure Admitted (c : Condition) : Prop where
  named : ∀ test ∈ c.tests, test.name ≠ ""
  groups : c.GroupsHave 1

/-! ## Reading what was written -/

/-- A named test is read back from its fields. -/
theorem readTest_toData {t : CardTest} (named : t.name ≠ "") :
    readTest [(.text "kind", .ofText "card"), (.text "card_name", .ofText t.name),
      (.text "quantity", .scalar (.whole t.quantity)), (.text "operator", .ofText t.bound.sign)] =
      .ok t := by
  have hname : readName (some (.ofText t.name)) = .ok t.name := by
    simp [readName, Field.text, Data.ofText, named]
  have hcount : readCount (some (.scalar (.whole t.quantity))) = .ok t.quantity := rfl
  have hbound : readBound (some (.ofText t.bound.sign)) = .ok t.bound := by
    cases t.bound <;> rfl
  change Checked.both _ (Checked.under _ (readName (some (.ofText t.name))))
    (Checked.both _ (Checked.under _ (readCount (some (.scalar (.whole t.quantity)))))
      (Checked.under _ (readBound (some (.ofText t.bound.sign))))) = _
  rw [hname, hcount, hbound]
  rfl

mutual

/-- An admitted condition is read back from its dictionary form. -/
theorem ofData_toData : ∀ {c : Condition}, (∀ test ∈ c.tests, test.name ≠ "") → c.GroupsHave 1 →
    ofData c.toData = .ok c
  | .card t, named, _ => by
    have hread := readTest_toData (named t (List.mem_singleton_self t))
    rw [toData, ofData]
    change Checked.under _ ((readTest _).map Condition.card) = _
    rw [hread]
    rfl
  | .group k members, named, groups => by
    have hitems := ofItems_toDataAll named groups.2 0
    have hlist : ofList k (.list (toDataAll members)) = .ok (.group k members) := by
      cases members with
      | nil => cases groups.1
      | cons c cs =>
        rw [ofList, hitems]
        rfl
    have htag : readTag [(.text "kind", .ofText k.tag),
        (.text "conditions", .list (toDataAll members))] = .ok (.group k) := by
      cases k <;> rfl
    have hmembers : ofMembers k [(.text "kind", .ofText k.tag),
        (.text "conditions", .list (toDataAll members))] = ofList k (.list (toDataAll members)) := by
      rw [ofMembers, if_neg (by decide), ofMembers, if_pos (by rfl)]
    change ofData (.map [(.text "kind", .ofText k.tag),
      (.text "conditions", .list (toDataAll members))]) = _
    rw [ofData, htag]
    dsimp only
    rw [hmembers, hlist]
    rfl

/-- Admitted conditions are read back one by one. -/
theorem ofItems_toDataAll : ∀ {cs : List Condition}, (∀ test ∈ testsAll cs, test.name ≠ "") →
    AllGroupsHave 1 cs → ∀ index, ofItems index (toDataAll cs) = .ok cs
  | [], _, _, _ => by rw [toDataAll, ofItems]
  | c :: cs, named, groups, index => by
    obtain ⟨hc, hcs⟩ := List.forall_mem_append.mp named
    rw [toDataAll, ofItems, ofData_toData hc groups.1, ofItems_toDataAll hcs groups.2]
    rfl

end

/-! ## What is read -/

/-- A name that was read has a character. -/
theorem ne_empty_of_readName {d : Option Data} {name : String} (h : readName d = .ok name) :
    name ≠ "" := by
  unfold readName at h
  split at h
  next => cases h
  next =>
    split at h
    next =>
      split at h
      next => cases h
      next hne =>
        cases h
        simpa using hne
    next => cases h

/-- A test that was read names a card. -/
theorem ne_empty_of_readTest {es : Entries Data} {t : CardTest} (h : readTest es = .ok t) :
    t.name ≠ "" := by
  obtain ⟨name, -, hname, -, rfl⟩ := Checked.both_eq_ok.mp h
  exact ne_empty_of_readName (Checked.under_eq_ok.mp hname)

mutual

/-- Whatever is read is admitted, by the parts of the data. -/
theorem admitted_of_ofData : ∀ {d : Data} {c : Condition}, ofData d = .ok c → c.Admitted
  | .map es, c, h => by
    rw [ofData] at h
    split at h
    next => cases h
    next =>
      obtain ⟨t, ht, rfl⟩ := map_eq_ok.mp (Checked.under_eq_ok.mp h)
      exact ⟨List.forall_mem_singleton.mpr (ne_empty_of_readTest ht), trivial⟩
    next k _ => exact admitted_of_ofMembers (Checked.under_eq_ok.mp (Checked.under_eq_ok.mp h))
  | .scalar _, _, h => by simp only [ofData] at h; cases h
  | .list _, _, h => by simp only [ofData] at h; cases h
  | .set _, _, h => by simp only [ofData] at h; cases h

theorem admitted_of_ofMembers {k : Connective} :
    ∀ {es : Entries Data} {c : Condition}, ofMembers k es = .ok c → c.Admitted
  | [], _, h => by cases h
  | (_, d) :: es, c, h => by
    rw [ofMembers] at h
    split at h
    next => exact admitted_of_ofList h
    next => exact admitted_of_ofMembers h

theorem admitted_of_ofList {k : Connective} :
    ∀ {d : Data} {c : Condition}, ofList k d = .ok c → c.Admitted
  | .list [], _, h => by cases h
  | .list (d :: ds), c, h => by
    rw [ofList] at h
    obtain ⟨cs, hcs, rfl⟩ := map_eq_ok.mp h
    obtain ⟨hlen, named, groups⟩ := admitted_of_ofItems hcs
    exact ⟨named, hlen ▸ Nat.succ_pos _, groups⟩
  | .scalar _, _, h => by simp only [ofList] at h; cases h
  | .map _, _, h => by simp only [ofList] at h; cases h
  | .set _, _, h => by simp only [ofList] at h; cases h

theorem admitted_of_ofItems : ∀ {index : Nat} {ds : List Data} {cs : List Condition},
    ofItems index ds = .ok cs →
      cs.length = ds.length ∧ (∀ test ∈ testsAll cs, test.name ≠ "") ∧ AllGroupsHave 1 cs
  | _, [], _, h => by
    rw [ofItems] at h
    cases h
    exact ⟨rfl, List.forall_mem_nil _, trivial⟩
  | _, d :: ds, _, h => by
    rw [ofItems] at h
    obtain ⟨c, cs, hc, hcs, rfl⟩ := Checked.both_eq_ok.mp h
    have first := admitted_of_ofData (Checked.under_eq_ok.mp hc)
    obtain ⟨hlen, named, groups⟩ := admitted_of_ofItems hcs
    exact ⟨congrArg (· + 1) hlen, List.forall_mem_append.mpr ⟨first.named, named⟩,
      first.groups, groups⟩

end

/-- A condition that was read from a text is admitted. -/
theorem admitted_of_parse {text : String} {c : Condition} (h : parse text = .ok c) : c.Admitted := by
  have groups := (expr_of_parse h).1.groupsHave
  refine ⟨fun test ht hempty => ?_, groups.mono (by decide)⟩
  obtain ⟨c, hc, -⟩ := (writable_of_parse h test ht).name.starts
  rw [hempty] at hc
  cases hc

/-- The dictionary form of a condition is read as that condition exactly if the condition is
admitted, as every condition is that a text is read as. Data of any other form that is read at all
is read as an admitted condition too, so reading what was read again changes nothing. -/
theorem ofData_settles :
    (∀ c : Condition, ofData c.toData = .ok c ↔ c.Admitted) ∧
    (∀ (text : String) (c : Condition), parse text = .ok c →
      c.Admitted ∧ c.depth ≤ maxNesting + 1) ∧
    ∀ (d : Data) (c : Condition), ofData d = .ok c → c.Admitted ∧ ofData c.toData = .ok c := by
  have hread {c : Condition} (h : c.Admitted) : ofData c.toData = .ok c :=
    ofData_toData h.named h.groups
  refine ⟨fun c => ⟨admitted_of_ofData, hread⟩, fun text c h => ?_, fun d c h => ?_⟩
  · exact ⟨admitted_of_parse h, depth_le_of_parse h⟩
  · exact ⟨admitted_of_ofData h, hread (admitted_of_ofData h)⟩

/-- A quantity as a numeral, one as a float, none at all, and an entry that is not known. -/
def looseData : Data :=
  .map [(.text "note", .scalar .null), (.text "conditions", .list [
      .map [(.text "kind", .ofText "card"), (.text "card_name", .ofText "A"),
        (.text "quantity", .ofText " +02.0"), (.text "operator", .ofText ">=")],
      .map [(.text "card_name", .ofText "B"), (.text "quantity", .scalar (.real (.ofInt 3))),
        (.text "kind", .ofText "card")],
      .map [(.text "card_name", .ofText "C"), (.text "kind", .ofText "card")]]),
    (.text "kind", .ofText "or")]

/-- What the loose data is read as. -/
def settled : Condition :=
  .group .or [.card ⟨"A", 2, .atLeast⟩, .card ⟨"B", 3, .exactly⟩, .card ⟨"C", 1, .exactly⟩]

theorem ofData_settles_loose :
    ofData looseData = .ok settled ∧ settled.toData ≠ looseData ∧
      ofData settled.toData = .ok settled := by
  have h : ofData looseData = .ok settled := toOption_eq_some.mp (by decide +kernel)
  exact ⟨h, by simp [settled, toData, looseData], (ofData_settles.2.2 _ _ h).2⟩

end Condition

end OpeningHand
