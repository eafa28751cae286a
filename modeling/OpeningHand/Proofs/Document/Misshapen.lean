import OpeningHand.Proofs.Document.Cards
import OpeningHand.Proofs.Document.Reload
import OpeningHand.Proofs.Number.Whole

/-!
# Values without the shape of a document

A value has the shape of a document (`Shaped`) or a first fault (`Misshapen`), and never both. The
check finds the fault that comes first: of the value as a whole, then of the cards in order, then of
the conditions in order. A card has one fault at a time, too: of its key, of its value, of the number
of copies, of the labels.

Faults of cards are worded with the text of their key. A whole number with too many digits has no
text, so documents with such a key are left out here (`HasWritableKeys`).
-/

namespace OpeningHand

/-- Every item of a list passes, or there is a first that is at fault. -/
theorem forall_or_first {α β : Type} {passes : α → Prop} {fault : α → β → Prop} {xs : List α}
    (either : ∀ x ∈ xs, passes x ∨ ∃ f, fault x f) :
    (∀ x ∈ xs, passes x) ∨ ∃ before x after f, xs = before ++ x :: after ∧
      (∀ x ∈ before, passes x) ∧ fault x f := by
  induction xs with
  | nil => exact .inl (List.forall_mem_nil _)
  | cons x xs ih =>
    obtain ⟨hx, hxs⟩ := List.forall_mem_cons.mp either
    rcases hx with hx | ⟨f, hf⟩
    · rcases ih hxs with hall | ⟨before, bad, after, f, rfl, hbefore, hf⟩
      · exact .inl (List.forall_mem_cons.mpr ⟨hx, hall⟩)
      · exact .inr ⟨x :: before, bad, after, f, rfl, List.forall_mem_cons.mpr ⟨hx, hbefore⟩, hf⟩
    · exact .inr ⟨[], x, xs, f, rfl, List.forall_mem_nil _, hf⟩

namespace Document

variable {e : Scalar × Data} {before after deck : Entries Data} {data item : Data}
  {items : List Data} {texts : List (List Text.Point)} {fault : ShapeFault}

/-! ## Keys -/

/-- The text of a key as a name. -/
def keyName (k : Scalar) : String := String.ofList (k.text?.getD [])

/-- No key of the document's deck is a whole number with more digits than may be written. -/
def HasWritableKeys (data : Data) : Prop :=
  ∀ es deck, data = .map es → Entries.field? "deck" es = some (.map deck) →
    ∀ e ∈ deck, ∀ n, e.1 = .whole n → n.natAbs < 10 ^ Number.maxDigits

theorem exists_text {k : Scalar} (h : ∀ n, k = .whole n → n.natAbs < 10 ^ Number.maxDigits) :
    ∃ cs, k.text? = some cs := by
  cases k with
  | whole n => exact ⟨_, Number.writeWhole?_of_lt (h n rfl)⟩
  | null | flag | real | text | bytes | date | moment => exact ⟨_, rfl⟩

theorem nameOfKey_eq {k : Scalar} {cs : List Char} (h : k.text? = some cs) :
    nameOfKey k = .ok (keyName k) := by
  rw [nameOfKey, keyName, h]
  rfl

theorem HasWritableKeys.exists_text {es : Entries Data} (keys : HasWritableKeys (.map es))
    (hdeck : Entries.field? "deck" es = some (.map deck)) :
    ∀ e ∈ deck, ∃ cs, e.1.text? = some cs :=
  fun e he => Document.exists_text (keys es deck rfl hdeck e he)

/-! ## Cards -/

/-- An entry has the shape of a card: its key is not null, and its value is a map with a number under
`qty` and a list under `tags`. -/
def IsCard (e : Scalar × Data) : Prop :=
  e.1 ≠ .null ∧ ∃ es qty tags, e.2 = .map es ∧ Entries.field? "qty" es = some qty ∧
    isNumber qty = true ∧ Entries.field? "tags" es = some (.list tags)

/-- The fault of an entry that has not the shape of a card. -/
inductive CardFault : Scalar × Data → ShapeFault → Prop where
  | key {d : Data} : CardFault (.null, d) .emptyName
  | value {k : Scalar} {d : Data} (key : k ≠ .null) (noMap : ∀ es, d ≠ .map es) :
      CardFault (k, d) (.details (keyName k))
  | qty {k : Scalar} {es : Entries Data} (key : k ≠ .null)
      (noNumber : ∀ qty, Entries.field? "qty" es = some qty → isNumber qty = false) :
      CardFault (k, .map es) (.qty (keyName k))
  | tags {k : Scalar} {es : Entries Data} {qty : Data} (key : k ≠ .null)
      (found : Entries.field? "qty" es = some qty) (number : isNumber qty = true)
      (noList : ∀ tags, Entries.field? "tags" es ≠ some (.list tags)) :
      CardFault (k, .map es) (.tags (keyName k))

theorem isList_iff {d : Data} : d.items?.isSome = true ↔ ∃ items, d = .list items := by
  cases d <;> simp [Data.items?]

theorem isCard_or_fault (e : Scalar × Data) : IsCard e ∨ ∃ fault, CardFault e fault := by
  obtain ⟨k, d⟩ := e
  by_cases hkey : k = .null
  · subst hkey
    exact .inr ⟨_, .key⟩
  by_cases hmap : ∃ es, d = .map es
  · obtain ⟨es, rfl⟩ := hmap
    by_cases hqty : ∃ qty, Entries.field? "qty" es = some qty ∧ isNumber qty = true
    · obtain ⟨qty, hqty, hnumber⟩ := hqty
      by_cases htags : ∃ tags, Entries.field? "tags" es = some (.list tags)
      · obtain ⟨tags, htags⟩ := htags
        exact .inl ⟨hkey, es, qty, tags, rfl, hqty, hnumber, htags⟩
      · exact .inr ⟨_, .tags hkey hqty hnumber (not_exists.mp htags)⟩
    · refine .inr ⟨_, .qty hkey fun qty hfound => ?_⟩
      exact Bool.eq_false_iff.mpr fun hnumber => hqty ⟨qty, hfound, hnumber⟩
  · exact .inr ⟨_, .value hkey (not_exists.mp hmap)⟩

theorem IsCard.checkCard (h : IsCard e) : checkCard e.1 e.2 = .ok () := by
  obtain ⟨k, d⟩ := e
  obtain ⟨hkey, es, qty, tags, rfl, hqty, hnumber, htags⟩ := h
  simp only [Document.checkCard, if_neg hkey, hqty, htags, Option.any_some, hnumber, Data.items?]
  rfl

theorem CardFault.checkCard {cs : List Char} (htext : e.1.text? = some cs)
    (h : CardFault e fault) : checkCard e.1 e.2 = .error (.shape fault) := by
  have hworded (f : String → ShapeFault) :
      faultAt e.1 f = .error (.shape (f (keyName e.1))) := by
    rw [faultAt, nameOfKey_eq htext]
  cases h with
  | key => rfl
  | @value k d hkey noMap =>
    cases d with
    | map es => exact absurd rfl (noMap es)
    | scalar | torn | list | set =>
      simp only [Document.checkCard, if_neg hkey]
      exact hworded .details
  | @qty k es hkey noNumber =>
    have hany : (Entries.field? "qty" es).any isNumber = false := by
      cases hfound : Entries.field? "qty" es with
      | none => rfl
      | some qty => exact noNumber qty hfound
    simp only [Document.checkCard, if_neg hkey, hany]
    exact hworded .qty
  | @tags k es qty hkey hfound hnumber noList =>
    have hany : (Entries.field? "tags" es).any (fun t => t.items?.isSome) = false := by
      cases htags : Entries.field? "tags" es with
      | none => rfl
      | some t =>
        apply Bool.eq_false_iff.mpr
        intro hlist
        obtain ⟨tags, rfl⟩ := isList_iff.mp hlist
        exact noList tags htags
    simp only [Document.checkCard, if_neg hkey, hfound, Option.any_some, hnumber, hany]
    exact hworded .tags

/-- Cards are passed; what follows them is checked next. -/
theorem checkCards_append (h : ∀ e ∈ before, IsCard e) (rest : Entries Data) :
    checkCards (before ++ rest) = checkCards rest := by
  induction before with
  | nil => rfl
  | cons e before ih =>
    obtain ⟨he, h⟩ := List.forall_mem_cons.mp h
    rw [List.cons_append, checkCards, he.checkCard]
    exact ih h

/-! ## Conditions -/

/-- Texts are passed; what follows them is looked at next, under its own index. -/
theorem conditionTexts_append (h : items.map Data.points? = texts.map some) (rest : List Data)
    (index : Nat) :
    conditionTexts index (items ++ rest) =
      (conditionTexts (index + texts.length) rest).map (texts ++ ·) := by
  induction items generalizing texts index with
  | nil =>
    obtain rfl : texts = [] := List.map_eq_nil_iff.mp h.symm
    rw [List.nil_append, List.length_nil, Nat.add_zero]
    cases conditionTexts index rest <;> rfl
  | cons item items ih =>
    obtain ⟨text, texts', rfl, htext, hmore⟩ := List.map_eq_cons_iff.mp h.symm
    rw [List.cons_append, conditionTexts, ← htext]
    dsimp only
    rw [ih hmore.symm, List.length_cons, Nat.add_right_comm, Nat.add_assoc]
    cases conditionTexts (index + (texts'.length + 1)) rest <;> rfl

theorem conditionTexts_noText (noText : item.points? = none) (index : Nat) (rest : List Data) :
    conditionTexts index (item :: rest) = .error (.shape (.condition index)) := by
  rw [conditionTexts, noText]

theorem texts_or_first (items : List Data) :
    (∃ texts : List (List Text.Point), items.map Data.points? = texts.map some) ∨
      ∃ (before : List Data) (item : Data) (after : List Data), items = before ++ item :: after ∧
        (∃ texts : List (List Text.Point), before.map Data.points? = texts.map some) ∧
        item.points? = none := by
  induction items with
  | nil => exact .inl ⟨[], rfl⟩
  | cons item items ih =>
    cases htext : item.points? with
    | some text =>
      rcases ih with ⟨texts, h⟩ | ⟨before, item', after, rfl, ⟨texts, h⟩, noText⟩
      · refine .inl ⟨text :: texts, ?_⟩
        rw [List.map_cons, List.map_cons, htext, h]
      · refine .inr ⟨item :: before, item', after, rfl, ⟨text :: texts, ?_⟩, noText⟩
        rw [List.map_cons, List.map_cons, htext, h]
    | none => exact .inr ⟨[], item, items, rfl, ⟨[], rfl⟩, htext⟩

/-! ## Values -/

/-- A value has the shape of a document with these cards and the texts of these conditions. -/
structure Shaped (data : Data) (deck : Entries Data) (texts : List (List Text.Point)) : Prop where
  parts : ∃ es items, data = .map es ∧ Entries.field? "deck" es = some (.map deck) ∧
    Entries.field? "conditions" es = some (.list items) ∧ items.map Data.points? = texts.map some
  cards : ∀ e ∈ deck, IsCard e

/-- The first fault of a value that has not the shape of a document. -/
inductive Misshapen : Data → ShapeFault → Prop where
  | value {data : Data} (noMap : ∀ es, data ≠ .map es) : Misshapen data .notAMap
  | deck {es : Entries Data} (noMap : ∀ deck, Entries.field? "deck" es ≠ some (.map deck)) :
      Misshapen (.map es) .deck
  | conditions {es deck : Entries Data} (cards : Entries.field? "deck" es = some (.map deck))
      (noList : ∀ items, Entries.field? "conditions" es ≠ some (.list items)) :
      Misshapen (.map es) .conditions
  | card {es before after : Entries Data} {e : Scalar × Data} {items : List Data}
      {fault : ShapeFault} (cards : Entries.field? "deck" es = some (.map (before ++ e :: after)))
      (conditions : Entries.field? "conditions" es = some (.list items))
      (passed : ∀ e ∈ before, IsCard e) (faulty : CardFault e fault) : Misshapen (.map es) fault
  | condition {es deck : Entries Data} {before : List Data} {texts : List (List Text.Point)}
      {item : Data} {after : List Data} (cards : Entries.field? "deck" es = some (.map deck))
      (passed : ∀ e ∈ deck, IsCard e)
      (conditions : Entries.field? "conditions" es = some (.list (before ++ item :: after)))
      (areTexts : before.map Data.points? = texts.map some) (noText : item.points? = none) :
      Misshapen (.map es) (.condition before.length)

theorem shaped_or_misshapen (data : Data) :
    (∃ deck texts, Shaped data deck texts) ∨ ∃ fault, Misshapen data fault := by
  by_cases hmap : ∃ es, data = .map es
  · obtain ⟨es, rfl⟩ := hmap
    by_cases hdeck : ∃ deck, Entries.field? "deck" es = some (.map deck)
    · obtain ⟨deck, hdeck⟩ := hdeck
      by_cases hitems : ∃ items, Entries.field? "conditions" es = some (.list items)
      · obtain ⟨items, hitems⟩ := hitems
        rcases forall_or_first fun e (_ : e ∈ deck) => isCard_or_fault e with
          hcards | ⟨before, e, after, fault, rfl, hbefore, hfault⟩
        · rcases texts_or_first items with
            ⟨texts, htexts⟩ | ⟨before, item, after, rfl, ⟨texts, htexts⟩, noText⟩
          · exact .inl ⟨deck, texts, ⟨es, items, rfl, hdeck, hitems, htexts⟩, hcards⟩
          · exact .inr ⟨_, .condition hdeck hcards hitems htexts noText⟩
        · exact .inr ⟨_, .card hdeck hitems hbefore hfault⟩
      · exact .inr ⟨_, .conditions hdeck (not_exists.mp hitems)⟩
    · exact .inr ⟨_, .deck (not_exists.mp hdeck)⟩
  · exact .inr ⟨_, .value (not_exists.mp hmap)⟩

theorem Shaped.ofData (h : Shaped data deck texts) : Shape.ofData data = .ok ⟨deck, texts⟩ := by
  obtain ⟨es, items, rfl, hdeck, hitems, htexts⟩ := h.parts
  have hcheck := checkCards_append h.cards []
  have hread := conditionTexts_append htexts [] 0
  rw [List.append_nil] at hcheck hread
  refine ofData_eq_ok_iff.mpr ⟨es, items, rfl, hdeck, hitems, hcheck, hread.trans ?_⟩
  exact congrArg Except.ok (List.append_nil texts)

theorem Misshapen.ofData (keys : HasWritableKeys data) (h : Misshapen data fault) :
    Shape.ofData data = .error (.shape fault) := by
  cases h with
  | value noMap =>
    cases data with
    | map es => exact absurd rfl (noMap es)
    | scalar | torn | list | set => rfl
  | @deck es noMap =>
    unfold Shape.ofData
    split
    next es' heq =>
      cases heq
      split
      next hdeck _ => exact absurd hdeck (noMap _)
      next hdeck _ => exact absurd hdeck (noMap _)
      next => rfl
    next hno => exact absurd rfl (hno es)
  | @conditions es deck hdeck noList =>
    simp only [Shape.ofData, hdeck]
  | @card es before after e items fault hdeck hitems hcards hfault =>
    obtain ⟨cs, htext⟩ := keys.exists_text hdeck e (List.mem_append_right _ List.mem_cons_self)
    simp only [Shape.ofData, hdeck, hitems, checkCards_append hcards, checkCards,
      hfault.checkCard htext]
    rfl
  | @condition es deck before texts item after hdeck hcards hitems htexts noText =>
    have hcheck := checkCards_append hcards []
    have hlength : before.length = texts.length := by
      have h := congrArg List.length htexts
      rwa [List.length_map, List.length_map] at h
    rw [List.append_nil] at hcheck
    simp only [Shape.ofData, hdeck, hitems, hcheck, conditionTexts_append htexts,
      conditionTexts_noText noText, Nat.zero_add, hlength]
    rfl

end Document

end OpeningHand
