import Mathlib.Data.List.TakeWhile
import OpeningHand.Ini.Store
import OpeningHand.Proofs.Lookup

/-!
# Looking options up

Which sections a store has and which values of their own, after a section is added or a value set
(`section?_addSection`, `section?_set`), and how the value of an option follows from that: the
section's own goes before the one for all sections (`raw?_eq`). A value without percent signs is
given as it is written (`value?_eq`).
-/

namespace OpeningHand.Ini

/-! ## Options -/

theorem lookup_setOption (name value option : String) (options : Options) :
    (setOption name value options).lookup option =
      if option = name then some value else options.lookup option :=
  lookup_put (setOption name value) rfl (fun _ _ _ => rfl) options option

/-! ## Sections -/

namespace Store

variable {s : Store}

/-- A section is there; the one for all sections always is. -/
def Has (s : Store) (sectionName : String) : Prop :=
  (s.section? sectionName).isSome = true

/-- The value that a section itself has for an option. -/
def own? (s : Store) (sectionName option : String) : Option String :=
  (s.section? sectionName).bind (·.lookup option)

instance (s : Store) (sectionName : String) : Decidable (s.Has sectionName) :=
  inferInstanceAs (Decidable (_ = true))

/-- Nothing in any section. -/
def empty : Store := ⟨[], []⟩

/-- A section that is not there has no values of its own. -/
theorem own?_eq_none_of_not_has {sectionName : String} (h : ¬ s.Has sectionName) (option : String) :
    s.own? sectionName option = none := by
  rw [own?, Option.not_isSome_iff_eq_none.mp h, Option.bind_none]

theorem has_all (s : Store) : s.Has defaultSection := rfl

/-- An empty store has the section for all, and no other. -/
theorem has_empty_iff {sectionName : String} :
    empty.Has sectionName ↔ sectionName = defaultSection := by
  unfold Has section?
  split
  next h => exact iff_of_true rfl h
  next h => exact iff_of_false Bool.false_ne_true h

theorem own?_empty (sectionName option : String) : empty.own? sectionName option = none := by
  unfold own? section?
  split <;> rfl

/-- A value is looked up in its section, then among those for all sections. -/
theorem raw?_eq (sectionName option : String) (h : s.Has sectionName) :
    s.raw? sectionName option =
      (s.own? sectionName option).or (s.own? defaultSection option) := by
  obtain ⟨options, hoptions⟩ := Option.isSome_iff_exists.mp h
  have hall : s.section? defaultSection = some s.defaults := if_pos rfl
  rw [raw?, own?, own?, hoptions, hall]
  exact Option.orElse_eq_or ..

/-- Nothing is looked up in a section that is not there, not even what holds for all. -/
theorem raw?_eq_none (sectionName option : String) (h : ¬ s.Has sectionName) :
    s.raw? sectionName option = none := by
  rw [raw?, Option.not_isSome_iff_eq_none.mp h]
  rfl

/-- A value that is looked up is some section's own. -/
theorem own?_of_raw? {sectionName option value : String}
    (h : s.raw? sectionName option = some value) :
    ∃ place, s.own? place option = some value := by
  by_cases hsection : s.Has sectionName
  · rw [raw?_eq _ _ hsection] at h
    rcases Option.or_eq_some_iff.mp h with hown | ⟨-, hall⟩
    · exact ⟨sectionName, hown⟩
    · exact ⟨defaultSection, hall⟩
  · rw [raw?_eq_none _ _ hsection] at h
    cases h

theorem section?_of_ne {sectionName : String} (h : sectionName ≠ defaultSection) :
    s.section? sectionName = s.sections.lookup sectionName :=
  if_neg h

/-- A section that is added has no options, unless it is there. -/
theorem section?_addSection (name sectionName : String) :
    (s.addSection name).section? sectionName =
      if sectionName = name then some ((s.section? name).getD []) else s.section? sectionName := by
  rw [addSection]
  split
  next hthere =>
    split
    next heq =>
      obtain ⟨options, hoptions⟩ := Option.isSome_iff_exists.mp hthere
      rw [heq, hoptions, Option.getD_some]
    next => rfl
  next hnew =>
    have hnone := Option.not_isSome_iff_eq_none.mp hnew
    have hname : name ≠ defaultSection := fun h => hnew (h ▸ rfl)
    by_cases hall : sectionName = defaultSection
    · rw [hall, if_neg hname.symm]
      rfl
    · rw [section?_of_ne hall, section?_of_ne hall, List.lookup_append, lookup_cons_eq,
        List.lookup_nil]
      split
      next heq =>
        rw [heq, ← section?_of_ne hname, hnone]
        rfl
      next => exact Option.or_none

/-- A value is set in its section, if that is there. -/
theorem section?_set (name option value sectionName : String) :
    (s.set name option value).section? sectionName = (s.section? sectionName).map fun options =>
      if sectionName = name then setOption option value options else options := by
  rw [set]
  by_cases hname : name = defaultSection
  · subst hname
    rw [if_pos rfl]
    by_cases hall : sectionName = defaultSection
    · subst hall
      simp only [section?, if_pos, Option.map_some]
    · simp only [section?_of_ne hall, if_neg hall, Option.map_id']
  · rw [if_neg hname]
    by_cases hall : sectionName = defaultSection
    · subst hall
      simp only [section?, if_pos, if_neg (Ne.symm hname), Option.map_some]
    · rw [section?_of_ne hall, section?_of_ne hall]
      exact lookup_map_at name sectionName (setOption option value) s.sections

/-- A section that is added is there. -/
theorem has_addSection {name sectionName : String} :
    (s.addSection name).Has sectionName ↔ s.Has sectionName ∨ sectionName = name := by
  rw [Has, Has, section?_addSection]
  split
  next heq => exact iff_of_true rfl (.inr heq)
  next hne => exact (or_iff_left hne).symm

/-- It has no values yet. -/
theorem own?_addSection (name sectionName option : String) :
    (s.addSection name).own? sectionName option = s.own? sectionName option := by
  rw [own?, own?, section?_addSection]
  split
  next heq =>
    rw [heq]
    cases s.section? name <;> rfl
  next => rfl

/-- Setting a value adds no section. -/
theorem has_set {name option value sectionName : String} :
    (s.set name option value).Has sectionName ↔ s.Has sectionName := by
  rw [Has, Has, section?_set, Option.isSome_map]

/-- A value that is set is the one that is looked up. -/
theorem own?_set (name option value sectionName option' : String) (h : s.Has name) :
    (s.set name option value).own? sectionName option' =
      if sectionName = name ∧ option' = option then some value
      else s.own? sectionName option' := by
  rw [own?, own?, section?_set]
  by_cases heq : sectionName = name
  · obtain ⟨options, hoptions⟩ := Option.isSome_iff_exists.mp (heq ▸ h : s.Has sectionName)
    rw [hoptions, Option.map_some, Option.bind_some, Option.bind_some, if_pos heq,
      lookup_setOption]
    simp only [heq, true_and]
  · simp only [Option.map_id', heq, false_and, if_false]

/-! ## References -/

/-- All values. -/
def values (s : Store) : List String :=
  (s.defaults ++ s.sections.flatMap (·.2)).map (·.2)

/-- No value refers to another. -/
def NoReferences (s : Store) : Prop :=
  ∀ value ∈ s.values, '%' ∉ value.toList

instance (s : Store) : Decidable s.NoReferences :=
  inferInstanceAs (Decidable (∀ _ ∈ _, _))

/-- What is looked up is among the values of the store. -/
theorem mem_values {sectionName option value : String}
    (h : s.own? sectionName option = some value) : value ∈ s.values := by
  obtain ⟨options, hoptions, hvalue⟩ := Option.bind_eq_some_iff.mp h
  have hmem := mem_of_lookup hvalue
  refine List.mem_map.mpr ⟨(option, value), List.mem_append.mpr ?_, rfl⟩
  by_cases hall : sectionName = defaultSection
  · rw [section?, if_pos hall] at hoptions
    exact .inl (Option.some.inj hoptions ▸ hmem)
  · rw [section?_of_ne hall] at hoptions
    exact .inr (List.mem_flatMap.mpr ⟨_, mem_of_lookup hoptions, hmem⟩)

end Store

/-- A text without percent signs stays as it is. -/
theorem resolve_eq (lookUp : String → Option String) (p : Place) (depth : Nat) {cs : List Char}
    (h : '%' ∉ cs) : resolve lookUp p (depth + 1) cs = .ok cs := by
  have hall : ∀ c ∈ cs, decide (c ≠ '%') = true := fun c hc =>
    decide_eq_true fun heq => h (heq ▸ hc)
  rw [resolve, substitute, List.takeWhile_eq_self_iff.mpr hall, List.dropWhile_eq_nil_iff.mpr hall]

/-- A value without percent signs is given as it is written. -/
theorem Store.value?_eq {s : Store} {sectionName key : String}
    (h : ∀ value, s.raw? sectionName (optionName key.toList) = some value → '%' ∉ value.toList) :
    s.value? sectionName key = .ok (s.raw? sectionName (optionName key.toList)) := by
  unfold value?
  dsimp only
  split
  next hnone => rw [hnone]
  next value hvalue =>
    rw [maxDepth, resolve_eq _ _ 9 (h value hvalue), hvalue, Except.map, String.ofList_toList]

end OpeningHand.Ini
