import OpeningHand.Proofs.Logging.Backups

/-!
# What logging leaves behind

Setting logging up and logging say nothing, and of the disk they change the log alone: directories on
the way to the log file are made where nothing stands, and what stands at or below the log file and its
backups may be another afterwards (`Logged`).
-/

namespace OpeningHand

namespace Files

/-- A place on the way to the directory of a log, or the directory's own. -/
def OnLogWay (here : Place) (logDir : Option Path) (place : Place) : Prop :=
  ∃ directory ∈ logDir, ∃ names, names <+: directory.names ∧
    place = Path.target here ⟨directory.root, names⟩

/-- A place of the log in a directory: the place of the log file or of a backup, or a place below
one. -/
def IsLogPlace (here : Place) (logDir : Option Path) (place : Place) : Prop :=
  ∃ directory ∈ logDir, ∃ i ≤ Logging.backupCount, Logging.logPlace here directory i <+: place

namespace Disk

/-- A disk on which nothing has changed but the log in a directory, if there is one: elsewhere
everything is as it was, except for directories made on the way to the log. -/
structure SameButLog (logDir : Option Path) (d d' : Disk) : Prop where
  here : d'.here = d.here
  entries : ∀ place, ¬ IsLogPlace d.here logDir place → d'.entry? place = d.entry? place ∨
    (OnLogWay d.here logDir place ∧ d.entry? place = none ∧ d'.entry? place = some .directory)

namespace SameButLog

variable {logDir : Option Path} {d d' d'' : Disk}

theorem refl (logDir : Option Path) (d : Disk) : d.SameButLog logDir d :=
  ⟨rfl, fun _ _ => .inl rfl⟩

theorem trans (h : d.SameButLog logDir d') (h' : d'.SameButLog logDir d'') :
    d.SameButLog logDir d'' where
  here := h'.here.trans h.here
  entries place other := by
    have later := h'.entries place (h.here ▸ other)
    rw [h.here] at later
    rcases h.entries place other with same | ⟨way, free, made⟩
    · rwa [same] at later
    · refine .inr ⟨way, free, ?_⟩
      rcases later with same | ⟨-, free', -⟩
      · rw [same, made]
      · cases made.symm.trans free'

/-- A file elsewhere stays as it is. -/
theorem file {place : Place} {bytes : List UInt8} (h : d.SameButLog logDir d')
    (other : ¬ IsLogPlace d.here logDir place) (hfile : d.entry? place = some (.file bytes)) :
    d'.entry? place = some (.file bytes) := by
  rcases h.entries place other with same | ⟨-, free, -⟩
  · rw [same, hfile]
  · cases hfile.symm.trans free

/-- Where a log file of a directory leads is a place of the log. -/
theorem isLogPlace {directory : Path} {i : Nat} {place : Place} (mem : directory ∈ logDir)
    (hi : i ≤ Logging.backupCount)
    (h : d.locate (Logging.backup (directory.below Logging.fileName) i) = .ok place) :
    IsLogPlace d.here logDir place :=
  ⟨directory, mem, i, hi, Logging.eq_logPlace h ▸ List.prefix_rfl⟩

theorem of_makeDirectory {directory : Path} {names : List (List Char)} (mem : directory ∈ logDir)
    (front : names <+: directory.names)
    (h : d.makeDirectory ⟨directory.root, names⟩ = .ok d') : d.SameButLog logDir d' := by
  obtain ⟨place, hplace, hnone, rfl⟩ := makeDirectory_eq_ok h
  refine ⟨here_put .., fun place' _ => ?_⟩
  rw [entry?_put (ne_nil_of_not_directory (by rw [hnone]; exact nofun))]
  split
  next heq =>
    rw [heq]
    exact .inr ⟨⟨directory, mem, names, front, target_of_locate hplace⟩, hnone, rfl⟩
  next => exact .inl rfl

theorem of_append {directory : Path} {bytes : List UInt8} (mem : directory ∈ logDir)
    (h : d.append (directory.below Logging.fileName) bytes = .ok d') : d.SameButLog logDir d' := by
  obtain ⟨place, hplace, hput⟩ := change_eq_ok h
  have isLog := isLogPlace (i := 0) mem (Nat.zero_le _) hplace
  obtain ⟨e, below, rfl⟩ : ∃ e, place ≠ [] ∧ d' = d.put place e := by
    rcases hput with ⟨rfl, hnone⟩ | ⟨_, rfl, hfile⟩
    · exact ⟨_, ne_nil_of_not_directory (by rw [hnone]; exact nofun), rfl⟩
    · exact ⟨_, ne_nil_of_not_directory (by rw [hfile]; exact nofun), rfl⟩
  refine ⟨here_put .., fun place' other => .inl ?_⟩
  rw [entry?_put below, if_neg]
  rintro rfl
  exact other isLog

theorem of_remove {directory : Path} {i : Nat} (mem : directory ∈ logDir)
    (hi : i ≤ Logging.backupCount)
    (h : d.remove (Logging.backup (directory.below Logging.fileName) i) = .ok d') :
    d.SameButLog logDir d' := by
  obtain ⟨place, _, hplace, -, rfl⟩ := remove_eq_ok h
  refine ⟨rfl, fun place' other => .inl (entry?_clear_of_ne ?_)⟩
  rintro rfl
  exact other (isLogPlace mem hi hplace)

theorem of_rename {directory : Path} {i j : Nat} (mem : directory ∈ logDir)
    (hi : i ≤ Logging.backupCount) (hj : j ≤ Logging.backupCount)
    (h : d.rename (Logging.backup (directory.below Logging.fileName) i)
      (Logging.backup (directory.below Logging.fileName) j) = .ok d') : d.SameButLog logDir d' := by
  obtain ⟨source, target, _, hsource, htarget, -, -, rfl⟩ := rename_eq_ok h
  have below {i : Nat} {place place' : Place} (hi : i ≤ Logging.backupCount)
      (h : d.locate (Logging.backup (directory.below Logging.fileName) i) = .ok place)
      (front : place <+: place') : IsLogPlace d.here logDir place' := by
    obtain ⟨directory, mem, i, hi, hplace⟩ := isLogPlace mem hi h
    exact ⟨directory, mem, i, hi, hplace.trans front⟩
  exact ⟨rfl, fun place' other => .inl (entry?_move_of_apart
    (fun front => other (below hi hsource front)) fun front => other (below hj htarget front))⟩

end SameButLog

end Disk

end Files

open Files (Disk Path)

/-- A world in which nothing more was said, and nothing has changed on the disk but the log. -/
structure Logged (logDir : Option Path) (w w' : World) : Prop where
  said : w'.said = w.said
  disk : w.disk.SameButLog logDir w'.disk

instance (logDir : Option Path) : IsPreorder World (Logged logDir) where
  refl w := ⟨rfl, .refl logDir w.disk⟩
  trans _ _ _ h h' := ⟨h'.said.trans h.said, h.disk.trans h'.disk⟩

namespace Logged

variable {logDir : Option Path}

theorem append {directory : Path} (mem : directory ∈ logDir) (bytes : List UInt8) :
    Along (Logged logDir)
      (Host.append (directory.below Logging.fileName) bytes : StateM World _) :=
  .attempt fun _ _ h => ⟨rfl, .of_append mem h⟩

theorem complain (text : String) :
    Along (Logged logDir) (Host.complain text : StateM World Unit) :=
  fun w => ⟨rfl, .refl logDir w.disk⟩

/-- Setting logging up changes the log alone, if that is where it is planned to be. -/
theorem setUp {r : Logging.Request} (former : Logging.State)
    (planned : ∀ threshold directory, r.plan = .ok (threshold, some directory) → directory ∈ logDir) :
    Along (Logged logDir) (Logging.setUp r former : StateM World _) :=
  .setUp former fun threshold directory hplan =>
    have mem := planned threshold directory hplan
    .openFile (fun _ front => .attempt fun _ _ h =>
      ⟨rfl, .of_makeDirectory mem front h⟩) (append mem [])

end Logged

namespace Logging

/-- Logging that goes to no file but the log file of a directory, if there is one. -/
def State.LogsTo (logDir : Option Path) (s : State) : Prop :=
  ∀ path, .file path ∈ s.handlers → ∃ directory ∈ logDir, path = directory.below fileName

end Logging

namespace Logged

variable {logDir : Option Path} {s : Logging.State}

theorem log (logs : s.LogsTo logDir) (r : Record) :
    Along (Logged logDir) (s.log r : StateM World Unit) := by
  refine .log (complain _) fun time h hmem => ?_
  cases h with
  | console => exact complain _
  | file path =>
    obtain ⟨directory, mem, rfl⟩ := logs path hmem
    refine .handleFile (.note (append mem _) (fun i hi => ?_) fun i hi => ?_) (complain _)
    · exact .attempt fun _ _ h => ⟨rfl, .of_remove mem hi h⟩
    · exact .attempt fun _ _ h => ⟨rfl, .of_rename mem (Nat.le_of_lt hi) hi h⟩

theorem logAll (logs : s.LogsTo logDir) (rs : List Record) :
    Along (Logged logDir) (s.logAll rs : StateM World Unit) :=
  .logAll fun r => Logged.log logs r

end Logged

end OpeningHand
