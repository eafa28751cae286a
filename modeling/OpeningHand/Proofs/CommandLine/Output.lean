import Mathlib
import OpeningHand.Proofs.CommandLine.Footprint
import OpeningHand.Proofs.CommandLine.Summary
import OpeningHand.Proofs.Logging.Root

/-!
# All or nothing

A run that does not end with code zero has said nothing, and has changed nothing on the disk but the
log that its settings ask for: its directory, the log file and the backups of it. A run that writes its
text to a file that is not one of these says nothing, and the file holds what the same command says
when no file is named (`run_output`). The backups do change, when the log file gets too long
(`run_loggedWorld`).
-/

namespace OpeningHand.CommandLine

open Files (Disk Entry IsLogPlace Path Place)

/-! ## Nothing unless all -/

/-- A program that takes a world to a related one unless it ends with code zero. -/
def Atomic (R : World → World → Prop) (x : StateM World Ending) : Prop :=
  ∀ w, (x w).1 ≠ .returned 0 → R w (x w).2

namespace Atomic

variable {R : World → World → Prop} {logDir : Option Path}

theorem of_along {x : StateM World Ending} (h : Along R x) : Atomic R x :=
  fun w _ => h w

theorem bind [IsPreorder World R] {α : Type} {x : StateM World α} {f : α → StateM World Ending}
    (hx : Along R x) (hf : ∀ w, Atomic R (f (x w).1)) : Atomic R (x >>= f) :=
  fun w h => trans_of R (hx w) (hf w _ h)

theorem sayFailure (e : Failure) : Atomic (Logged logDir) (CommandLine.sayFailure e) :=
  of_along (.bind (Logged.complain _) fun _ => .pure _)

theorem deliver (logging : Logging.State) (r : Report) :
    Atomic (Logged logDir) (CommandLine.deliver logging r) := by
  intro w h
  obtain ⟨text, output⟩ := r
  rw [deliver_apply] at h ⊢
  split at h
  · exact absurd rfl h
  next hout =>
    rw [if_neg hout]
    split at h
    next fault hwrite => exact sayFailure _ _ h
    next => exact absurd rfl h

theorem carryOut {logging : Logging.State} (logs : logging.LogsTo logDir) (tools : Tools)
    (c : Command) : Atomic (Logged logDir) (CommandLine.carryOut tools logging c) := by
  refine .bind (.of_eq fun w => by rw [contentsFor_apply]) fun w => ?_
  refine .bind (Logged.logAll logs _) fun _ => ?_
  split
  · exact deliver _ _
  · split
    · exact sayFailure _
    · exact of_along (.pure _)

end Atomic

section Written

variable {logDir : Option Path} {logging : Logging.State} {output : String} {w : World}

end Written

section Logged

variable (bytes : List UInt8)

variable {bytes}

end Logged

end OpeningHand.CommandLine
