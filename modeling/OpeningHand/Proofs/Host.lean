import Mathlib.Order.Defs.Unbundled
import OpeningHand.Logging

/-!
# Programs along a relation of worlds

What a single step does in a world is an equation (`World.bind_apply` and its kin). What a program may
do to its world is stated as a relation between the worlds before and after it. If the relation is
reflexive and transitive, then it holds of a program as soon as it holds of the program's steps. Here
the programs that make directories, set logging up and log are taken apart once, for all such
relations.
-/

namespace OpeningHand

open Files (Disk Path)

/-! ## Steps of a world -/

namespace World

variable {α β : Type}

/-- Programs run one after the other, the second in the world that the first leaves. -/
theorem bind_apply (x : StateM World α) (f : α → StateM World β) (w : World) :
    (x >>= f) w = f (x w).1 (x w).2 := rfl

theorem isFile_apply (p : Files.Path) (w : World) :
    (Host.isFile p : StateM World _) w = (w.disk.leadsTo p Files.Entry.isFile, w) := rfl

theorem read_apply (p : Files.Path) (w : World) :
    (Host.read p : StateM World _) w = (w.disk.read p, w) := rfl

/-- A change that the disk refuses leaves the world as it is. -/
theorem write_apply (p : Files.Path) (bytes : List UInt8) (w : World) :
    (Host.write p bytes : StateM World _) w =
      match w.disk.write p bytes with
      | .ok disk => (.ok (), { w with disk := disk })
      | .error fault => (.error fault, w) := rfl

theorem append_apply (p : Files.Path) (bytes : List UInt8) (w : World) :
    (Host.append p bytes : StateM World _) w =
      match w.disk.append p bytes with
      | .ok disk => (.ok (), { w with disk := disk })
      | .error fault => (.error fault, w) := rfl

theorem isThere_apply (p : Files.Path) (w : World) :
    (Host.isThere p : StateM World _) w = (w.disk.isThere p, w) := rfl

theorem size?_apply (p : Files.Path) (w : World) :
    (Host.size? p : StateM World _) w = (w.disk.size? p, w) := rfl

theorem remove_apply (p : Files.Path) (w : World) :
    (Host.remove p : StateM World _) w =
      match w.disk.remove p with
      | .ok disk => (.ok (), { w with disk := disk })
      | .error fault => (.error fault, w) := rfl

theorem rename_apply (p q : Files.Path) (w : World) :
    (Host.rename p q : StateM World _) w =
      match w.disk.rename p q with
      | .ok disk => (.ok (), { w with disk := disk })
      | .error fault => (.error fault, w) := rfl

end World

/-! ## Programs along a relation -/

/-- A program that takes every world to a related one. -/
def Along (R : World → World → Prop) {α : Type} (x : StateM World α) : Prop :=
  ∀ w, R w (x w).2

namespace Along

variable {R : World → World → Prop} [IsPreorder World R] {α β : Type}

/-- A program that leaves its world as it is. -/
theorem of_eq {x : StateM World α} (h : ∀ w, (x w).2 = w) : Along R x := fun w => by
  rw [h w]
  exact refl_of R w

/-- Answering changes nothing, and relations are reflexive. -/
theorem pure (a : α) : Along R (Pure.pure a : StateM World α) :=
  of_eq fun _ => rfl

/-- Relations are transitive, so they follow a program along its steps. -/
theorem bind {x : StateM World α} {f : α → StateM World β} (hx : Along R x)
    (hf : ∀ a, Along R (f a)) : Along R (x >>= f) :=
  fun w => trans_of R (hx w) (hf (x w).1 (x w).2)

/-- An attempt to change the disk changes nothing if it fails. -/
theorem attempt {change : Disk → Except Files.Fault Disk}
    (h : ∀ w disk, change w.disk = .ok disk → R w { w with disk := disk }) :
    Along R (World.attempt change) := by
  intro w
  unfold World.attempt
  split
  next disk hdisk => exact h w disk hdisk
  next => exact refl_of R w

/-! ## Directories and log files -/

/-- Looking at the disk changes nothing. -/
theorem unlessDirectory (p : Path) (fault : Files.Fault) :
    Along R (Host.unlessDirectory p fault : StateM World _) := by
  refine .bind (of_eq fun _ => rfl) fun answer => ?_
  split <;> exact .pure _

/-- A directory that is there already is not made. -/
theorem ensureDirectory {p : Path} (make : Along R (Host.makeDirectory p : StateM World _)) :
    Along R (Host.ensureDirectory p : StateM World _) := by
  refine .bind make fun answer => ?_
  split
  · exact .pure _
  · exact .pure _
  · exact .unlessDirectory p _

/-- Making a directory makes directories on the way to it, and no others. -/
theorem makeDirectories (p : Path) (make : ∀ names, names <+: p.names →
      Along R (Host.makeDirectory ⟨p.root, names⟩ : StateM World _)) :
    Along R (Host.makeDirectories p : StateM World _) := by
  rw [Host.makeDirectories]
  refine .bind (make p.names List.prefix_rfl) fun answer => ?_
  split
  · exact .pure _
  · split
    · exact .pure _
    · have parent := makeDirectories p.parent fun names front =>
        make names (front.trans (List.dropLast_prefix p.names))
      refine .bind parent fun answer => ?_
      split
      · exact .pure _
      · exact .ensureDirectory (make p.names List.prefix_rfl)
  · exact .unlessDirectory p _
termination_by p.names.length
decreasing_by
  have := List.length_pos_iff.mpr ‹¬p.names = []›
  simp only [Path.parent, List.length_dropLast]
  omega

/-- A log file is opened by making directories and appending nothing. -/
theorem openFile {directory : Path}
    (make : ∀ names, names <+: directory.names →
      Along R (Host.makeDirectory ⟨directory.root, names⟩ : StateM World _))
    (start : Along R (Host.append (directory.below Logging.fileName) [] : StateM World _)) :
    Along R (Logging.openFile directory : StateM World _) := by
  refine .bind (.makeDirectories directory make) fun answer => ?_
  split
  · exact .pure _
  · exact .bind start fun _ => .pure _

/-- Setting logging up changes the world only where it opens a log file. -/
theorem setUp {r : Logging.Request} (former : Logging.State)
    (opens : ∀ threshold directory, r.plan = .ok (threshold, some directory) →
      Along R (Logging.openFile directory : StateM World _)) :
    Along R (Logging.setUp r former : StateM World _) := by
  cases hplan : r.plan with
  | error e =>
    rw [Logging.setUp, hplan]
    exact .pure _
  | ok asked =>
    obtain ⟨threshold, directory?⟩ := asked
    rw [Logging.setUp, hplan]
    cases directory? with
    | none => exact .pure _
    | some directory => exact .bind (opens threshold directory hplan) fun _ => .pure _

/-! ## Records -/

section LogFile

open Logging (backup)

variable {path : Path}

/-- One place makes room for another. -/
theorem moveUp {p q : Path} (remove : Along R (Host.remove q : StateM World _))
    (rename : Along R (Host.rename p q : StateM World _)) :
    Along R (Logging.moveUp p q : StateM World _) := by
  refine .bind (of_eq fun _ => rfl) fun there => ?_
  split
  · exact .pure _
  · refine .bind (of_eq fun _ => rfl) fun taken => ?_
    split
    · exact rename
    · refine .bind remove fun answer => ?_
      split
      · exact .pure _
      · exact rename

/-- The backups move up one by one, the last first. -/
theorem turnOver {n : Nat}
    (remove : ∀ i < n, Along R (Host.remove (backup path (i + 1)) : StateM World _))
    (rename : ∀ i < n, Along R (Host.rename (backup path i) (backup path (i + 1)) : StateM World _)) :
    Along R (Logging.turnOver path n : StateM World _) := by
  induction n with
  | zero => exact .pure _
  | succ i ih =>
    refine .bind (.moveUp (remove i (Nat.lt_succ_self i)) (rename i (Nat.lt_succ_self i)))
      fun answer => ?_
    split
    · exact .pure _
    · exact ih (fun j hj => remove j (Nat.lt_succ_of_lt hj)) fun j hj =>
        rename j (Nat.lt_succ_of_lt hj)

/-- A line is appended, after the backups have moved if the file is full. -/
theorem note {text : String}
    (append : Along R (Host.append path (Text.encodeUtf8 text.toList) : StateM World _))
    (remove : ∀ i < Logging.backupCount,
      Along R (Host.remove (backup path (i + 1)) : StateM World _))
    (rename : ∀ i < Logging.backupCount,
      Along R (Host.rename (backup path i) (backup path (i + 1)) : StateM World _)) :
    Along R (Logging.note path text : StateM World _) := by
  refine .bind (of_eq fun _ => rfl) fun size? => ?_
  split
  · refine .bind (.turnOver remove rename) fun answer => ?_
    split
    · exact .pure _
    · exact append
  · exact append

/-- A line that cannot be put into the file is complained about. -/
theorem handleFile {text : String} (note : Along R (Logging.note path text : StateM World _))
    (complain : Along R (Host.complain (Logging.lossNotice ++ "\n") : StateM World Unit)) :
    Along R ((Logging.Handler.file path).handle text : StateM World Unit) := by
  refine .bind note fun answer => ?_
  split
  · exact .pure _
  · exact complain

end LogFile

/-- Handlers are served one after the other. -/
theorem handleAll {text : String} {hs : List Logging.Handler}
    (handle : ∀ h ∈ hs, Along R (h.handle text : StateM World Unit)) :
    Along R (Logging.handleAll text hs : StateM World Unit) := by
  induction hs with
  | nil => exact .pure ()
  | cons h hs ih =>
    obtain ⟨first, rest⟩ := List.forall_mem_cons.mp handle
    exact .bind first fun _ => ih rest

/-- A record is complained about or handled as one line. -/
theorem log {s : Logging.State} {r : Record}
    (complain : Along R (Host.complain (r.message ++ "\n") : StateM World Unit))
    (handle : ∀ time, ∀ h ∈ s.handlers,
      Along R (h.handle (Logging.line time r) : StateM World Unit)) :
    Along R (s.log r : StateM World Unit) := by
  unfold Logging.State.log
  split
  · exact .pure ()
  · split
    · split
      · exact .pure ()
      · exact complain
    · exact .bind (of_eq fun _ => rfl) fun time => .handleAll (handle time)

/-- So are records. -/
theorem logAll {s : Logging.State} {rs : List Record}
    (log : ∀ r, Along R (s.log r : StateM World Unit)) :
    Along R (s.logAll rs : StateM World Unit) := by
  induction rs with
  | nil => exact .pure ()
  | cons r rs ih => exact .bind (log r) fun _ => ih

end Along

end OpeningHand
