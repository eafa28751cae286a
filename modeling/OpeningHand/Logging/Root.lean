import OpeningHand.Logging

/-!
# The root of a process

All records of a process come to one logger, its root. Other code may have left the root at any level
and with any handlers. Setting logging up takes it over step by step: first its level, then the
handlers it has, one after the other, then those that were asked for. A step that fails leaves the
root as far as the steps before it went.
-/

namespace OpeningHand.Logging

/-- A handler on a root: one that setting logging up puts there, or one that other code put there. -/
inductive Attached (η : Type) where
  | own (h : Handler)
  | foreign (h : η)
  deriving Repr, DecidableEq

/-- The level and the handlers of a root, where other code has handlers of the kind `η`. -/
structure Root (η : Type) where
  level : Int
  handlers : List (Attached η)
  deriving Repr, DecidableEq

namespace Root

variable {η : Type} [DecidableEq η]

/-- The root that has the threshold and the handlers of a state, and nothing else. -/
def ofState (s : State) : Root η :=
  ⟨s.threshold.rank, s.handlers.map .own⟩

/-- The root at the level of a severity. -/
def setLevel (root : Root η) (s : Severity) : Root η :=
  { root with level := s.rank }

/-- The root with one more handler, after those it has. -/
def add (root : Root η) (h : Handler) : Root η :=
  { root with handlers := root.handlers ++ [.own h] }

/-- The root without a handler, if it has it. One that stands there several times goes once. -/
def remove (root : Root η) (h : Attached η) : Root η :=
  { root with handlers := root.handlers.erase h }

/-- The root after every handler that it had was removed, in order. -/
def clear (root : Root η) : Root η :=
  root.handlers.foldl remove root

variable {m : Type → Type} [Monad m] [Host m]

/-- Sets logging up on a root: whether that went well, and the root as it is then. -/
def setUp (r : Request) (root : Root η) : m (Except Failure Unit × Root η) := do
  match r.wantsFile, r.levelName with
  | .error e, _ => return (.error e, root)
  | .ok _, .error e => return (.error e, root)
  | .ok wantsFile, .ok name =>
    let silent := (root.setLevel (Severity.ofName name)).clear
    let root := if r.toConsole then silent.add .console else silent
    if wantsFile then
      match r.settings.logDir with
      | .error e => return (.error e, root)
      | .ok directory =>
        match ← openFile directory with
        | .error e => return (.error e, root)
        | .ok () => return (.ok (), root.add (.file (directory.below fileName)))
    else return (.ok (), root)

end Root

end OpeningHand.Logging
