import OpeningHand.Files.Disk

/-!
# Hosts

What a program needs around it: files, two places to write texts to, and the time. A program is
written over any host, so that the one that runs and the one that is reasoned about are the same.
The host for reasoning is a `World`: a disk, what was written so far, and a clock that stands still.
-/

namespace OpeningHand

/-- A monad in which a program can use files, say something and ask for the time. -/
class Host (m : Type → Type) where
  read : Files.Path → m (Except Files.Fault (List UInt8))
  write : Files.Path → List UInt8 → m (Except Files.Fault Unit)
  append : Files.Path → List UInt8 → m (Except Files.Fault Unit)
  makeDirectory : Files.Path → m (Except Files.Fault Unit)
  isFile : Files.Path → m (Except Files.Fault Bool)
  isDirectory : Files.Path → m (Except Files.Fault Bool)
  isThere : Files.Path → m Bool
  size? : Files.Path → m (Option Nat)
  remove : Files.Path → m (Except Files.Fault Unit)
  rename : Files.Path → Files.Path → m (Except Files.Fault Unit)
  say : String → m Unit
  complain : String → m Unit
  time : m String

namespace Host

variable {m : Type → Type} [Monad m] [Host m]

/-- What a failed attempt to make a directory comes to: nothing is wrong if one is there. -/
def unlessDirectory (p : Files.Path) (fault : Files.Fault) : m (Except Files.Fault Unit) := do
  match ← isDirectory p with
  | .error fault => return .error fault
  | .ok isThere => return if isThere then .ok () else .error fault

/-- Makes one directory unless it is there. -/
def ensureDirectory (p : Files.Path) : m (Except Files.Fault Unit) := do
  match ← makeDirectory p with
  | .ok () => return .ok ()
  | .error (.missing path) => return .error (.missing path)
  | .error fault => unlessDirectory p fault

/-- Makes a directory and those on the way to it, unless they are there. Those on the way are made
only when making the directory itself shows that one is missing. -/
def makeDirectories (p : Files.Path) : m (Except Files.Fault Unit) := do
  match ← makeDirectory p with
  | .ok () => return .ok ()
  | .error (.missing path) =>
    if _h : p.names = [] then return .error (.missing path)
    else
      match ← makeDirectories p.parent with
      | .error fault => return .error fault
      | .ok () => ensureDirectory p
  | .error fault => unlessDirectory p fault
termination_by p.names.length
decreasing_by
  have := List.length_pos_iff.mpr ‹¬p.names = []›
  simp only [Files.Path.parent, List.length_dropLast]
  omega

end Host

/-! ## Worlds -/

/-- A disk, the texts written so far, and the time. -/
structure World where
  disk : Files.Disk
  said : String
  complaints : String
  clock : String
  deriving Repr, DecidableEq

namespace World

/-- The world after an attempt to change its disk. -/
def attempt (change : Files.Disk → Except Files.Fault Files.Disk) :
    StateM World (Except Files.Fault Unit) := fun w =>
  match change w.disk with
  | .ok disk => (.ok (), { w with disk := disk })
  | .error fault => (.error fault, w)

instance : Host (StateM World) where
  read p := fun w => (w.disk.read p, w)
  write p bytes := attempt fun d => d.write p bytes
  append p bytes := attempt fun d => d.append p bytes
  makeDirectory p := attempt fun d => d.makeDirectory p
  isFile p := fun w => (w.disk.leadsTo p Files.Entry.isFile, w)
  isDirectory p := fun w => (w.disk.leadsTo p Files.Entry.isDirectory, w)
  isThere p := fun w => (w.disk.isThere p, w)
  size? p := fun w => (w.disk.size? p, w)
  remove p := attempt fun d => d.remove p
  rename p q := attempt fun d => d.rename p q
  say text := fun w => ((), { w with said := w.said ++ text })
  complain text := fun w => ((), { w with complaints := w.complaints ++ text })
  time := fun w => (w.clock, w)

end World

end OpeningHand
