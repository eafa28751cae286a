import OpeningHand.Proofs.CommandLine.Ending

/-!
# Runs as steps from world to world

What each part of a run does in a world, part by part: the job that a command's text comes from, the
delivery of the text, and what stands before them. The text does not depend on the file that it goes
to, and neither does anything before it is delivered.
-/

namespace OpeningHand.CommandLine

open Files (Disk Path)

/-! ## Jobs of commands -/

/-- The job that a command's text comes from. -/
def Command.job (tools : Tools) (contents : Contents) : Command → Recorded Failure String
  | .check file => do
    return unlines (summary (← tools.loadFile (.ofText file) (contents (.ofText file))).scenario)
  | .normalize file _ => do
    let loaded ← tools.loadFile (.ofText file) (contents (.ofText file))
    Library.save tools.settings loaded.scenario
  | .parse expression asJson => do
    return unlines [conditionText asJson (← Condition.read expression)]
  | .convert file _ => tools.convertFile (contents (.ofText file))

/-- A report without a file is said; one with a file is written to it, and that is logged. -/
theorem deliver_apply (logging : Logging.State) (text : String) (output : Option String)
    (w : World) :
    (deliver logging ⟨text, output⟩ : StateM World _) w =
      if (output.getD "").isEmpty then (.returned 0, { w with said := w.said ++ text })
      else
        match w.disk.write (.ofText (output.getD "")) (Text.encodeUtf8 text.toList) with
        | .error fault => (sayFailure (.file fault) : StateM World _) w
        | .ok disk => (.returned 0,
            ((logging.log (wroteRecord (output.getD "")) : StateM World Unit)
              { w with disk := disk }).2) := by
  unfold deliver
  dsimp only
  split
  · rfl
  · rw [World.bind_apply, World.write_apply]
    cases w.disk.write (.ofText (output.getD "")) (Text.encodeUtf8 text.toList) <;> rfl

end OpeningHand.CommandLine
