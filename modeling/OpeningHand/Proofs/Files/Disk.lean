import OpeningHand.Files.Disk
import OpeningHand.Proofs.Lookup
import OpeningHand.Proofs.Result

/-!
# Laws of disks

What stands where after a disk was changed, and where paths lead. A path that can be followed leads
to its target, which its names alone determine; the disk only decides whether it can be followed. So
what a change does to a disk is said by the targets of its paths.
-/

namespace OpeningHand.Files

/-! ## Entries -/

namespace Disk

theorem lookup_putEntry (place place' : Place) (e : Entry) (es : List (Place × Entry)) :
    (putEntry place e es).lookup place' = if place' = place then some e else es.lookup place' :=
  lookup_put (putEntry place e) rfl (fun _ _ _ => rfl) es place'

/-- The root is a directory, and everything below it is an entry. -/
theorem entry?_of_ne_nil {place : Place} (below : place ≠ []) (d : Disk) :
    d.entry? place = d.entries.lookup place :=
  if_neg fun h => below (List.isEmpty_iff.mp h)

/-- An entry that is put at a place stands there, and nothing else changes. -/
theorem entry?_put {place : Place} (below : place ≠ []) (d : Disk) (e : Entry) (place' : Place) :
    entry? (d.put place e) place' = if place' = place then some e else d.entry? place' := by
  by_cases h : place' = []
  · rw [h, if_neg below.symm]
    rfl
  · rw [entry?_of_ne_nil h, entry?_of_ne_nil h]
    exact lookup_putEntry place place' e d.entries

/-- Changing an entry does not change where one is. -/
theorem here_put (d : Disk) (place : Place) (e : Entry) : (d.put place e).here = d.here := rfl

/-- The top is a directory, so a place with a file or nothing is below it. -/
theorem ne_nil_of_not_directory {d : Disk} {place : Place} (h : d.entry? place ≠ some .directory) :
    place ≠ [] := by
  rintro rfl
  exact h rfl

/-! ## Entries that are cleared or moved -/

section Relocate

variable {d : Disk} {source target place : Place}

/-- What gets to a place from one other only stands there as it stood at the other. -/
theorem entry?_relocate {to? : Place → Option Place} {former : Place} (below : place ≠ [])
    (below' : former ≠ []) (from' : ∀ place', to? place' = some place ↔ place' = former) :
    entry? (d.relocate to?) place = d.entry? former := by
  rw [entry?_of_ne_nil below, entry?_of_ne_nil below']
  exact lookup_relocate from' d.entries

/-- A place that nothing is moved to is free. -/
theorem entry?_relocate_none {to? : Place → Option Place} (below : place ≠ [])
    (unused : ∀ place', to? place' ≠ some place) : entry? (d.relocate to?) place = none := by
  rw [entry?_of_ne_nil below]
  exact lookup_relocate_none unused d.entries

/-- Clearing a place leaves the others alone. -/
theorem entry?_clear_of_ne (h : place ≠ source) : entry? (d.clear source) place = d.entry? place := by
  by_cases below : place = []
  · rw [below]
    rfl
  · refine entry?_relocate below below fun place' => ?_
    split
    next heq => exact iff_of_false nofun fun h' => h (h'.symm.trans heq)
    next => exact Option.some_inj

/-- A cleared place is free. -/
theorem entry?_clear_self (below : place ≠ []) : entry? (d.clear place) place = none := by
  refine entry?_relocate_none below fun place' => ?_
  split
  · exact nofun
  next hne => exact fun h => hne (Option.some.inj h)

/-- What stands neither at nor below the two places stays. -/
theorem entry?_move_of_apart (fromSource : ¬ source <+: place) (fromTarget : ¬ target <+: place) :
    entry? (d.move source target) place = d.entry? place := by
  by_cases below : place = []
  · rw [below]
    rfl
  · refine entry?_relocate below below fun place' => ?_
    simp only [List.isPrefixOf_iff_prefix]
    split
    next hin => exact iff_of_false nofun fun h => fromTarget (h ▸ hin)
    next =>
      split
      next hin =>
        refine iff_of_false (fun h => fromTarget ?_) fun h => fromSource (h ▸ hin)
        rw [← Option.some.inj h]
        exact List.prefix_append ..
      next => exact Option.some_inj

/-- What stood at the one place stands at the other, if neither is part of the way to the other. -/
theorem entry?_move_target (below : source ≠ []) (below' : target ≠ [])
    (apart : ¬ target <+: source) : entry? (d.move source target) target = d.entry? source := by
  refine entry?_relocate below' below fun place' => ?_
  simp only [List.isPrefixOf_iff_prefix]
  split
  next hin => exact iff_of_false nofun fun h => apart (h ▸ hin)
  next hout =>
    split
    next hin =>
      obtain ⟨rest, rfl⟩ := hin
      simp
    next hout' =>
      refine iff_of_false (fun h => hout ?_) fun h => hout' (h ▸ List.prefix_rfl)
      exact Option.some.inj h ▸ List.prefix_rfl

/-- Nothing is left where things were moved from. -/
theorem entry?_move_source (below : source ≠ []) (apart : ¬ target <+: source) :
    entry? (d.move source target) source = none := by
  refine entry?_relocate_none below fun place' => ?_
  simp only [List.isPrefixOf_iff_prefix]
  split
  · exact nofun
  · split
    next => exact fun h => apart (Option.some.inj h ▸ List.prefix_append ..)
    next hout => exact fun h => hout (Option.some.inj h ▸ List.prefix_rfl)

end Relocate

end Disk

/-! ## Targets of paths -/

/-- Where a path leads from a place if it can be followed. -/
def Path.target (here : Place) (p : Path) : Place :=
  p.names.foldl (fun place name => if name = ['.', '.'] then place.dropLast else place ++ [name])
    (if p.root = 0 then here else [])

namespace Disk

variable {d d' : Disk} {p : Path} {place : Place}

/-- A name is entered in a directory; two points lead up. -/
theorem enter_eq_ok {name : List Char} {place' : Place} (h : d.enter place name = .ok place') :
    d.entry? place = some .directory ∧
      place' = if name = ['.', '.'] then place.dropLast else place ++ [name] := by
  unfold enter at h
  split at h
  · cases h
  · cases h
  next hdir =>
    split at h
    next hdots =>
      cases h
      exact ⟨hdir, (if_pos hdots).symm⟩
    next hdots =>
      split at h
      · cases h
      · cases h
        exact ⟨hdir, (if_neg hdots).symm⟩

/-- Where a path leads can be told from its names alone, if it leads anywhere. -/
theorem follow_eq_foldl {names : List (List Char)} {place' : Place}
    (h : d.follow place names = .ok place') : place' = names.foldl
      (fun place name => if name = ['.', '.'] then place.dropLast else place ++ [name]) place := by
  induction names generalizing place with
  | nil =>
    cases h
    rfl
  | cons name names ih =>
    rw [follow] at h
    split at h
    · cases h
    next place'' hname =>
      rw [List.foldl_cons, ← (enter_eq_ok hname).2]
      exact ih h

/-- A path that can be followed leads to its target. -/
theorem target_of_locate (h : d.locate p = .ok place) : place = p.target d.here := by
  unfold locate at h
  split at h
  · cases h
  · split at h
    · cases h
    · exact follow_eq_foldl h

/-! ## Changes -/

/-- A file is changed where the path leads, or made there. -/
theorem change_eq_ok {f : List UInt8 → List UInt8} (h : d.change p f = .ok d') :
    ∃ place, d.locate p = .ok place ∧
      (d' = d.put place (.file (f [])) ∧ d.entry? place = none ∨
        ∃ bytes, d' = d.put place (.file (f bytes)) ∧ d.entry? place = some (.file bytes)) := by
  unfold change at h
  split at h
  · cases h
  next place hplace =>
    split at h
    next => cases h
    next bytes hfile =>
      cases h
      exact ⟨place, hplace, .inr ⟨bytes, rfl, hfile⟩⟩
    next hnone =>
      cases h
      exact ⟨place, hplace, .inl ⟨rfl, hnone⟩⟩

/-- A directory is made at a free place. -/
theorem makeDirectory_eq_ok (h : d.makeDirectory p = .ok d') :
    ∃ place, d.locate p = .ok place ∧ d.entry? place = none ∧ d' = d.put place .directory := by
  unfold makeDirectory at h
  split at h
  · cases h
  next place hplace =>
    split at h
    next => cases h
    next hnone =>
      cases h
      exact ⟨place, hplace, hnone, rfl⟩

/-- Only files are removed. -/
theorem remove_eq_ok (h : d.remove p = .ok d') :
    ∃ place bytes, d.locate p = .ok place ∧ d.entry? place = some (.file bytes) ∧
      d' = d.clear place := by
  unfold remove at h
  split at h
  · cases h
  next place hplace =>
    split at h
    · cases h
    · cases h
    next bytes hfile =>
      cases h
      exact ⟨place, bytes, hplace, hfile, rfl⟩

/-- What is renamed moves to a free place. -/
theorem rename_eq_ok {q : Path} (h : d.rename p q = .ok d') :
    ∃ source target e, d.locate p = .ok source ∧ d.locate q = .ok target ∧
      d.entry? source = some e ∧ d.entry? target = none ∧ d' = d.move source target := by
  unfold rename at h
  split at h
  · cases h
  next source hsource =>
    split at h
    · cases h
    next target htarget =>
      split at h
      · cases h
      next e hthere hfree =>
        cases h
        exact ⟨source, target, e, hsource, htarget, hthere, hfree, rfl⟩
      · cases h

/-- Nothing is where a path leads if its target is free. -/
theorem isThere_eq_false (h : d.entry? (p.target d.here) = none) : d.isThere p = false := by
  rw [isThere, look]
  cases hplace : d.locate p with
  | error o => rfl
  | ok place =>
    dsimp only
    rw [target_of_locate hplace, h]
    rfl

end Disk

end OpeningHand.Files
