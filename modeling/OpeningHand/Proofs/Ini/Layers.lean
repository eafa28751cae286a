import OpeningHand.Ini.Reader
import OpeningHand.Proofs.Ini.Store

/-!
# Files over stores

Reading a file over a store gives what reading it over nothing gives, laid over the store: a section
is there if either has it, and the file's own value of an option goes before the store's
(`read_over`). Both readings keep in step line by line, so a file is refused over every store or
over none.

The values for all sections are a section of their own here. One that the file has comes after a
section's own values in either layer, so not the whole file goes before the store
(`Layered.raw?_eq`).
-/

namespace OpeningHand.Ini

/-! ## Layers -/

/-- A store is one laid over another. -/
structure Layered (base top whole : Store) : Prop where
  has : ∀ sectionName, whole.Has sectionName ↔ top.Has sectionName ∨ base.Has sectionName
  own : ∀ sectionName option,
    whole.own? sectionName option = (top.own? sectionName option).or (base.own? sectionName option)

namespace Layered

variable {base top whole : Store}

/-- Over nothing, a base is as it was. -/
theorem empty (base : Store) : Layered base .empty base := by
  refine ⟨fun sectionName => ?_, fun sectionName option => ?_⟩
  · rw [Store.has_empty_iff]
    exact (or_iff_right_of_imp fun h => h ▸ base.has_all).symm
  · rw [Store.own?_empty, Option.none_or]

/-- A section that is read is there in both. -/
theorem addSection (h : Layered base top whole) (name : String) :
    Layered base (top.addSection name) (whole.addSection name) := by
  refine ⟨fun sectionName => ?_, fun sectionName option => ?_⟩
  · rw [Store.has_addSection, Store.has_addSection, h.has, or_right_comm]
  · rw [Store.own?_addSection, Store.own?_addSection, h.own]

/-- A value that is read goes over that of the base. -/
theorem set (h : Layered base top whole) {name : String} (there : top.Has name)
    (option value : String) :
    Layered base (top.set name option value) (whole.set name option value) := by
  have hwhole : whole.Has name := (h.has name).mpr (.inl there)
  refine ⟨fun sectionName => ?_, fun sectionName option' => ?_⟩
  · rw [Store.has_set, Store.has_set, h.has]
  · rw [Store.own?_set _ _ _ _ _ there, Store.own?_set _ _ _ _ _ hwhole, h.own]
    split
    next => rfl
    next => rfl

/-- An option is looked up in its section in either layer, and then among the values for all
sections, if either layer has the section. -/
theorem raw?_eq (h : Layered base top whole) (sectionName option : String) :
    whole.raw? sectionName option =
      ((top.own? sectionName option).or (base.own? sectionName option)).or
        (if top.Has sectionName ∨ base.Has sectionName then
          (top.own? defaultSection option).or (base.own? defaultSection option)
        else none) := by
  by_cases hsection : top.Has sectionName ∨ base.Has sectionName
  · rw [if_pos hsection, Store.raw?_eq _ _ ((h.has sectionName).mpr hsection), h.own, h.own]
  · have hnone (option : String) := h.own sectionName option
    obtain ⟨htop, hbase⟩ := not_or.mp hsection
    rw [if_neg hsection, Store.raw?_eq_none _ _ (mt (h.has sectionName).mp hsection),
      Store.own?_eq_none_of_not_has htop, Store.own?_eq_none_of_not_has hbase]
    rfl

/-- A value that is looked up is one of either layer. -/
theorem mem_values (h : Layered base top whole) {sectionName option value : String}
    (hvalue : whole.raw? sectionName option = some value) :
    value ∈ top.values ∨ value ∈ base.values := by
  obtain ⟨place, hplace⟩ := Store.own?_of_raw? hvalue
  rw [h.own] at hplace
  rcases Option.or_eq_some_iff.mp hplace with htop | ⟨-, hbase⟩
  · exact .inl (Store.mem_values htop)
  · exact .inr (Store.mem_values hbase)

end Layered

/-! ## Readers in step -/

/-- Two readings end alike: both with the same fault, or with results that are related. -/
inductive EndAlike {ε α β : Type} (R : α → β → Prop) : Except ε α → Except ε β → Prop
  | ok {a b} (related : R a b) : EndAlike R (.ok a) (.ok b)
  | error (e : ε) : EndAlike R (.error e) (.error e)

namespace EndAlike

variable {ε ε' α α' β β' : Type} {R : α → β → Prop} {S : α' → β' → Prop}
  {x : Except ε α} {y : Except ε β}

/-- Readings that end alike may go on alike. -/
theorem bind {f : α → Except ε α'} {g : β → Except ε β'} (h : EndAlike R x y)
    (next : ∀ a b, R a b → EndAlike S (f a) (g b)) : EndAlike S (x >>= f) (y >>= g) := by
  cases h with
  | ok related => exact next _ _ related
  | error e => exact .error e

theorem mapError (f : ε → ε') (h : EndAlike R x y) : EndAlike R (x.mapError f) (y.mapError f) := by
  cases h with
  | ok related => exact .ok related
  | error e => exact .error (f e)

/-- If one reading succeeds, so does the other, with a result that is related. -/
theorem of_ok (h : EndAlike R x y) {a : α} (hx : x = .ok a) : ∃ b, y = .ok b ∧ R a b := by
  subst hx
  cases h with | ok related => exact ⟨_, rfl, related⟩

end EndAlike

namespace Reader

/-- Ending an option does not leave its section. -/
theorem current_flush (r : Reader) : r.flush.current = r.current := by
  unfold flush
  split <;> rfl

/-- A reader over nothing, and one over a store that has read the same: they differ in their stores
alone, and the second is the first laid over that store. Where a reader is, is a section it has
read. -/
inductive Over (base : Store) : Reader → Reader → Prop
  | mk {top whole current openOption indent sections options badLines}
      (layered : Layered base top whole) (here : ∀ name ∈ current, top.Has name)
      (opened : ∀ o ∈ openOption, top.Has (OpenOption.sectionName o)) :
      Over base ⟨top, current, openOption, indent, sections, options, badLines⟩
        ⟨whole, current, openOption, indent, sections, options, badLines⟩

namespace Over

variable {base : Store} {plain r : Reader}

/-- Both readers start over what is there. -/
theorem start (base : Store) : Over base (.start .empty) (.start base) :=
  .mk (.empty base) (fun _ h => nomatch h) (fun _ h => nomatch h)

/-- Ending an option stores the same lines on both sides. -/
theorem flush (h : Over base plain r) : Over base plain.flush r.flush := by
  obtain @⟨_, _, _, openOption, _, _, _, _, layered, here, opened⟩ := h
  cases openOption with
  | none => exact .mk layered here opened
  | some o =>
    exact .mk (layered.set (opened o rfl) o.name (joinLines o.lines))
      (fun name hname => Store.has_set.mpr (here name hname)) (fun _ h => nomatch h)

/-- A line that goes on with an option is added on both sides. -/
theorem extend (line : List Char) (h : Over base plain r) :
    Over base (plain.extend line) (r.extend line) := by
  obtain @⟨_, _, _, openOption, _, _, _, _, layered, here, opened⟩ := h
  cases openOption with
  | none => exact .mk layered here opened
  | some o =>
    by_cases hname : o.name.isEmpty = true
    · simp only [Reader.extend, if_pos hname]
      exact .mk layered here opened
    · simp only [Reader.extend, if_neg hname]
      refine .mk layered here fun o' h => ?_
      rw [← Option.some.inj h]
      exact opened o rfl

/-- A line that cannot be read is remembered on both sides. -/
theorem refuse (number : Nat) (line : List Char) (h : Over base plain r) :
    Over base (plain.refuse number line) (r.refuse number line) := by
  obtain ⟨layered, here, opened⟩ := h
  exact .mk layered here opened

theorem indentAt (indent : Nat) (h : Over base plain r) :
    Over base { plain with indent } { r with indent } := by
  obtain ⟨layered, here, opened⟩ := h
  exact .mk layered here opened

/-- A section is entered on both sides. -/
theorem enter (name : String) (seen : List String) (h : Over base plain r) :
    Over base
      { plain with store := plain.store.addSection name, current := some name, sections := seen }
      { r with store := r.store.addSection name, current := some name, sections := seen } := by
  obtain ⟨layered, here, opened⟩ := h
  refine .mk (layered.addSection name) (fun name' h => ?_) fun o ho => ?_
  · exact Store.has_addSection.mpr (.inr (Option.some.inj h).symm)
  · exact Store.has_addSection.mpr (.inl (opened o ho))

/-- An option is started where its section has been read. -/
theorem opening (o : OpenOption) (seen : List (String × String)) (h : Over base plain r)
    (there : plain.store.Has o.sectionName) :
    Over base { plain with openOption := some o, options := seen }
      { r with openOption := some o, options := seen } := by
  obtain ⟨layered, here, opened⟩ := h
  refine .mk layered here fun o' h => ?_
  rw [← Option.some.inj h]
  exact there

/-- The readers differ in their stores alone. -/
theorem same (h : Over base plain r) : r = { plain with store := r.store } := by
  obtain ⟨_, _, _⟩ := h
  rfl

theorem layered (h : Over base plain r) : Layered base plain.store r.store := by
  obtain ⟨layered, _, _⟩ := h
  exact layered

theorem here (h : Over base plain r) : ∀ name ∈ plain.current, plain.store.Has name := by
  obtain ⟨_, here, _⟩ := h
  exact here

/-- A section is refused on both sides if it stands in the file twice; that the base has it is no
matter. -/
theorem startSection (file : String) (number : Nat) (name : String) (h : Over base plain r) :
    EndAlike (Over base) (plain.startSection file number name)
      (r.startSection file number name) := by
  have hsections : r.sections = plain.sections := by rw [h.same]
  unfold Reader.startSection
  rw [hsections]
  split
  next => exact .error _
  next => exact .ok (h.flush.enter name _)

/-- An option is opened by both readers, unless it was there before. -/
theorem openNamed {sectionName : String} (h : Over base plain r)
    (hcurrent : plain.current = some sectionName) (fault : Fault) (name : String)
    (lines : List (List Char)) :
    EndAlike (Over base)
      (if plain.options.contains (sectionName, name) then .error fault
      else .ok { plain.flush with
        openOption := some ⟨sectionName, name, lines⟩
        options := (sectionName, name) :: plain.options })
      (if r.options.contains (sectionName, name) then .error fault
      else .ok { r.flush with
        openOption := some ⟨sectionName, name, lines⟩
        options := (sectionName, name) :: r.options }) := by
  have hoptions : r.options = plain.options := by rw [h.same]
  have there := h.flush.here sectionName ((current_flush plain).trans hcurrent)
  rw [hoptions]
  split
  next => exact .error fault
  next => exact .ok (h.flush.opening ⟨sectionName, name, lines⟩ _ there)

/-- So is an option. -/
theorem startOption (file : String) (number : Nat) (line value : List Char) {sectionName : String}
    (h : Over base plain r) (hcurrent : plain.current = some sectionName) :
    EndAlike (Over base) (plain.startOption file number line value sectionName)
      (r.startOption file number line value sectionName) := by
  unfold Reader.startOption
  split
  next => exact .ok (h.refuse number line)
  next rest _ =>
    dsimp only
    split
    -- an option without a name is noted, and opened all the same
    next => exact (h.refuse number line).openNamed hcurrent _ _ _
    next => exact h.openNamed hcurrent _ _ _

/-- The step of the simulation: one line, whatever it is. -/
theorem readLine (file : String) (number : Nat) (line : List Char) (h : Over base plain r) :
    EndAlike (Over base) (plain.readLine file number line) (r.readLine file number line) := by
  have hcontinues (n : Nat) : r.continues n = plain.continues n := by
    obtain ⟨_, _, _⟩ := h
    rfl
  have hcurrent : r.current = plain.current := by rw [h.same]
  unfold Reader.readLine
  dsimp only
  split
  next => exact .ok (h.extend [])
  next first rest hvalue =>
    simp only [hcontinues, hcurrent]
    split_ifs
    next => exact .ok h
    next => exact .ok (h.extend _)
    next =>
      have hindent := h.indentAt (line.takeWhile Text.isBlank).length
      rw [hcurrent] at hindent
      split
      next => exact hindent.startSection file number _
      next => exact .error _
      next hsome => exact hindent.startOption file number line _ hsome

/-- The run of it: the induction is on the lines. -/
theorem readLines (file : String) (lines : List (List Char)) (number : Nat)
    (h : Over base plain r) :
    EndAlike (Over base) (plain.readLines file number lines) (r.readLines file number lines) := by
  induction lines generalizing number plain r with
  | nil => exact .ok h
  | cons line lines ih =>
    exact (h.readLine file number line).bind fun _ _ h => ih (number + 1) h

/-- What both have read is, in the end, one store over another. -/
theorem finish (file : String) (h : Over base plain r) :
    EndAlike (Layered base) (plain.finish file) (r.finish file) := by
  have hbad : r.badLines = plain.badLines := by rw [h.same]
  unfold Reader.finish
  rw [hbad]
  split
  next => exact .ok h.flush.layered
  next => exact .error _

end Over

end Reader

/-- A file over a store is what the file is alone, laid over the store. -/
theorem read_over (file : String) (bytes : List UInt8) (base : Store) :
    EndAlike (Layered base) (read file bytes .empty) (read file bytes base) := by
  have hrun (lines : List (List Char)) :=
    ((Reader.Over.start base).readLines file lines 1).mapError Failure.ini
  unfold read
  dsimp only
  split
  next => exact (hrun _).bind fun _ _ h => (h.finish file).mapError Failure.ini
  next => exact (hrun _).bind fun _ _ _ => .error _

end OpeningHand.Ini
