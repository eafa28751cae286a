import OpeningHand.Library
import OpeningHand.Proofs.Document.Handed
import OpeningHand.Proofs.Yaml.NodeEquality

/-!
# How loading ends

Loading a document ends with a scenario, with a failure that names the source, or with a lapse. Every
stage after the YAML (shape, names, deck, conditions) fails only with what loading answers for, so a
load lapses exactly if the value of its text does. Settings that cannot be read end a load before
it starts and are left out here.
-/

namespace OpeningHand

namespace Document

/-! ## Shape and names -/

/-- A key without a text is refused as a value. -/
theorem nameOfKey_answered (k : Scalar) : Answered (nameOfKey k) := by
  unfold nameOfKey
  split
  · exact .ok _
  · exact .error rfl

theorem faultAt_answered (k : Scalar) (fault : String → ShapeFault) :
    Answered (faultAt k fault) := by
  unfold faultAt
  cases hname : nameOfKey k with
  | ok name => exact .error rfl
  | error e => exact .error (nameOfKey_answered k e hname)

/-- What is wrong with an entry is said of its shape. -/
theorem checkCard_answered (k : Scalar) (d : Data) : Answered (checkCard k d) := by
  unfold checkCard
  split
  · exact .error rfl
  · split
    · split
      · exact faultAt_answered k .qty
      · split
        · exact faultAt_answered k .tags
        · exact .ok ()
    · exact faultAt_answered k .details

theorem checkCards_answered (es : Entries Data) : Answered (checkCards es) := by
  induction es with
  | nil => exact .ok ()
  | cons e es ih => exact .bind (checkCard_answered e.1 e.2) fun _ _ => ih

theorem conditionTexts_answered (ds : List Data) (index : Nat) :
    Answered (conditionTexts index ds) := by
  induction ds generalizing index with
  | nil => exact .ok []
  | cons d ds ih =>
    unfold conditionTexts
    split
    · exact (ih (index + 1)).map
    · exact .error rfl

/-- So is all else that a shape can lack. -/
theorem ofData_answered (d : Data) : Answered (Shape.ofData d) := by
  unfold Shape.ofData
  split
  · split
    · exact .bind (checkCards_answered _) fun _ _ =>
        .bind (conditionTexts_answered _ 0) fun _ _ => .ok _
    · exact .error rfl
    · exact .error rfl
  · exact .error rfl

/-- A name that was seen before is said of the shape as well. -/
theorem namedFrom_answered (es : Entries Data) (seen : List String) :
    Answered (namedFrom seen es) := by
  induction es generalizing seen with
  | nil => exact .ok []
  | cons e es ih =>
    refine .bind (nameOfKey_answered e.1) fun name _ => ?_
    split
    · exact .error rfl
    · exact .bind (ih (name :: seen)) fun _ _ => .ok _

end Document

/-! ## Deck and conditions -/

namespace Deck

/-- A card is refused for its name or its details. -/
theorem slotsOf_answered (name : Scalar) (offer : Offer) : Answered (slotsOf name offer) := by
  unfold slotsOf
  split
  · split
    · exact .error rfl
    · split
      · exact .ok _
      · split
        · exact .ok _
        · exact .error rfl
  · exact .error rfl

theorem slotsOfAll_answered (entries : List (Scalar × Offer)) :
    Answered (slotsOfAll entries) := by
  induction entries with
  | nil => exact .ok []
  | cons e entries ih =>
    exact .bind (slotsOf_answered e.1 e.2) fun _ _ => .bind ih fun _ _ => .ok _

/-- The builder refuses what its first faulty entry is refused for. -/
theorem build_answered (entries : List (Scalar × Offer)) (minSize : Int) :
    Answered (build entries minSize).result := by
  unfold build
  cases hslots : slotsOfAll entries with
  | ok slots => exact .ok _
  | error e => exact .error (slotsOfAll_answered entries e hslots)

/-- Details with torn labels are what the builder gives no answer for; there are none. -/
theorem ofEntries_answered {entries : List (String × Data)}
    (labels : ∀ e ∈ entries, Details.hasTornLabel e.2 = false) (minSize : Int) :
    Answered (ofEntries entries minSize).result := by
  rw [ofEntries, dif_pos labels]
  exact build_answered _ minSize

end Deck

namespace Condition

/-- Conditions are refused by reasons that loading answers for. -/
theorem readPoints_answered (text : List Text.Point) : Answered (readPoints text).result := by
  unfold readPoints
  cases parsePoints text with
  | ok c => exact .ok c
  | error e => cases e <;> exact .error rfl

theorem readAll_answered (texts : List (List Text.Point)) : Answered (readAll texts).result := by
  induction texts with
  | nil => exact .ok []
  | cons text texts ih =>
    unfold readAll
    rw [Recorded.result_bind]
    refine .bind (readPoints_answered text) fun c _ => ?_
    rw [Recorded.result_bind]
    exact .bind ih fun cs _ => .ok _

end Condition

/-! ## Loading -/

namespace Document

/-- What is made of the value of a text is refused with what a load answers for. -/
theorem shaped_answered (data : Data) : Answered (do
    let shape ← Shape.ofData data
    let cards ← named shape.deck
    return (cards, shape.conditions)) :=
  .bind (ofData_answered data) fun shape _ =>
    .bind (namedFrom_answered shape.deck []) fun _ _ => .ok _

/-- What a load hands on lapses for the texts whose value lapses, and no others. -/
theorem handed_lapsesIn {text : String} (followed : Yaml.Followed text) :
    LapsesIn (handed text) (Yaml.Lapses text) :=
  (Yaml.load_lapsesIn followed).bind_left fun data _ => (shaped_answered data).neverLapses

/-- After that, a load fails with what it answers for only. -/
theorem read_rest_answered {text : String} {cards : List (String × Data)}
    {texts : List (List Text.Point)} (h : handed text = .ok (cards, texts)) (minSize : Int) :
    Answered (do
      let deck ← (Deck.ofEntries cards minSize).result
      let conditions ← (Condition.readAll texts).result
      return (⟨deck, conditions⟩ : Scenario)) :=
  .bind (Deck.ofEntries_answered (hasTornLabel_of_handed h) minSize) fun _ _ =>
    .bind (Condition.readAll_answered texts) fun _ _ => .ok _

/-- Reading a document lapses for the texts whose value lapses, and no others. -/
theorem read_lapsesIn {text : String} (followed : Yaml.Followed text) (minSize : Int) :
    LapsesIn (read Deck.ofEntries minSize text).result (Yaml.Lapses text) := by
  rw [result_read]
  exact (handed_lapsesIn followed).bind_left fun _ h => (read_rest_answered h minSize).neverLapses

/-- Where the value of a text is described, so is what reading it ends with. -/
theorem read_ne_outside {text : String} (described : Yaml.load text ≠ .error .outside)
    (minSize : Int) : (read Deck.ofEntries minSize text).result ≠ .error .outside := by
  intro h
  rw [result_read] at h
  rcases bind_eq_error.mp h with h | ⟨_, hhanded, h⟩
  · rcases bind_eq_error.mp h with hload | ⟨data, -, h⟩
    · exact described hload
    · cases shaped_answered data _ h
  · cases read_rest_answered hhanded minSize _ h

/-- Loading lapses for the texts whose value lapses, and no others. -/
theorem load_eq_lapse_iff {text : String} (followed : Yaml.Followed text) (minSize : Int)
    (source : String) {l : Lapse} :
    (load Deck.ofEntries minSize source text).result = .error (.lapse l) ↔ Yaml.Lapses text l := by
  rw [← (read_lapsesIn followed minSize).eq_lapse_iff]
  unfold load
  dsimp only
  cases (read Deck.ofEntries minSize text).result with
  | ok s => exact iff_of_false (fun h => nomatch h) fun h => nomatch h
  | error e =>
    dsimp only
    cases hdoc : e.isOfDocument with
    | true =>
      refine iff_of_false (fun h => nomatch h) ?_
      rintro ⟨⟩
      cases hdoc
    | false => exact Iff.rfl

/-- A load ends with a scenario, with the source and what stopped it, or with a lapse. -/
theorem load_ends {text : String} (followed : Yaml.Followed text) (minSize : Int) (source : String) :
    (∃ s, (load Deck.ofEntries minSize source text).result = .ok s) ∨
      (∃ cause, (load Deck.ofEntries minSize source text).result = .error (.load source cause) ∧
        cause.isOfDocument = true) ∨
      ∃ l, (load Deck.ofEntries minSize source text).result = .error (.lapse l) := by
  unfold load
  dsimp only
  cases hresult : (read Deck.ofEntries minSize text).result with
  | ok s => exact .inl ⟨s, rfl⟩
  | error e =>
    dsimp only
    cases hdoc : e.isOfDocument with
    | true => exact .inr (.inl ⟨e, rfl, hdoc⟩)
    | false =>
      obtain hdoc' | rfl | ⟨l, rfl, -⟩ := (read_lapsesIn followed minSize).fails e hresult
      · cases hdoc.symm.trans hdoc'
      · exact absurd hresult (read_ne_outside followed.described minSize)
      · exact .inr (.inr ⟨l, rfl⟩)

end Document

namespace Library

end Library

end OpeningHand
