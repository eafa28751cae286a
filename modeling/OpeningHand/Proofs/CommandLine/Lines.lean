import OpeningHand.CommandLine.Run
import OpeningHand.Proofs.Host

/-!
# What is complained about

Whatever a run does before its last word, it complains in whole lines only: log lines, each with a
newline at its end (`InLines`). So the last word of a run, if it has one, starts a line of its own.
-/

namespace OpeningHand

open CommandLine (unlines)

theorem CommandLine.unlines_append (lines more : List String) :
    unlines (lines ++ more) = unlines lines ++ unlines more := by
  rw [unlines, List.map_append, String.join_append]
  rfl

theorem CommandLine.unlines_singleton (line : String) : unlines [line] = line ++ "\n" := by
  rw [unlines, List.map_singleton, String.join_cons]
  exact String.append_empty

/-- A world in which more whole lines were complained about. -/
def Complains (w w' : World) : Prop :=
  ∃ lines, w'.complaints = w.complaints ++ unlines lines

theorem Complains.of_eq {w w' : World} (h : w'.complaints = w.complaints) : Complains w w' :=
  ⟨[], h.trans String.append_empty.symm⟩

instance : IsPreorder World Complains where
  refl _ := .of_eq rfl
  trans := by
    rintro w w' w'' ⟨lines, hlines⟩ ⟨more, hmore⟩
    refine ⟨lines ++ more, ?_⟩
    rw [hmore, hlines, CommandLine.unlines_append, String.append_assoc]

/-- A program that complains in whole lines only, in any world. -/
def InLines {α : Type} (x : StateM World α) : Prop :=
  ∀ w, ∃ lines, (x w).2.complaints = w.complaints ++ unlines lines

namespace InLines

variable {α : Type}

/-- A program that complains about nothing. -/
theorem of_silent {x : StateM World α} (h : ∀ w, (x w).2.complaints = w.complaints) : InLines x :=
  fun w => Complains.of_eq (h w)

theorem complain (text : String) : InLines (Host.complain (text ++ "\n") : StateM World Unit) :=
  fun w => ⟨[text], congrArg (w.complaints ++ ·) (CommandLine.unlines_singleton text).symm⟩

theorem attempt (change : Files.Disk → Except Files.Fault Files.Disk) :
    InLines (World.attempt change) :=
  Along.attempt (R := Complains) fun _ _ _ => .of_eq rfl

theorem setUp (r : Logging.Request) (former : Logging.State) :
    InLines (Logging.setUp r former : StateM World _) :=
  Along.setUp (R := Complains) former fun _ _ _ =>
    Along.openFile (fun _ _ => attempt _) (attempt _)

theorem handle (time : String) (r : Record) (h : Logging.Handler) :
    InLines (h.handle (Logging.line time r) : StateM World Unit) := by
  cases h with
  | console => exact .complain _
  | file path =>
    exact Along.handleFile (R := Complains)
      (.note (attempt _) (fun _ _ => attempt _) fun _ _ => attempt _) (complain _)

theorem log (s : Logging.State) (r : Record) : InLines (s.log r : StateM World Unit) :=
  Along.log (R := Complains) (complain _) fun time h _ => handle time r h

theorem logAll (s : Logging.State) (rs : List Record) :
    InLines (s.logAll rs : StateM World Unit) :=
  Along.logAll (R := Complains) (log s)

end InLines

end OpeningHand
