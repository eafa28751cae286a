import OpeningHand.Proofs.CommandLine.Lines
import OpeningHand.Proofs.CommandLine.Unreported

/-!
# How runs end

A run of the command line leaves early with code zero or two, or returns code zero, or returns code
one with one last line that says what went wrong, or it fails and nothing answers for it. The last
happens in three places, each with its own cases: settings that are there and cannot be read
(`BadConfig`), logging that cannot be set up (`BadLogging`), and the failures of commands that are
none of the library's own (`Unreported`). There are no other cases, and in each of these the run does
fail (`run_ending`), if it is described what loading does with the text of the document that the run
loads, should it load one.
-/

namespace OpeningHand

namespace CommandLine

open Files (Disk Path)

/-- The settings that a run has on a disk. -/
def settingsIn (d : Disk) (config : Option String) : Except Failure Settings :=
  match config with
  | none => .ok .default
  | some text =>
    if text.isEmpty then .ok .default
    else
      match d.look (.ofText text) with
      | .ok (.file bytes) => Settings.ofFile (.ofText text) bytes
      | .error .longName => .error (.file (.longName (Path.ofText text).toText))
      | _ => .error (.file (.noSettings (Path.ofText text).toText))

theorem settingsOf_apply (config : Option String) (w : World) :
    (settingsOf config : StateM World _) w = (settingsIn w.disk config, w) := by
  unfold settingsOf settingsIn
  cases config with
  | none => rfl
  | some text =>
    dsimp only
    split
    · rfl
    · rw [World.bind_apply, World.isFile_apply, Disk.leadsTo]
      cases hlook : w.disk.look (Path.ofText text) with
      | error o => cases o <;> rfl
      | ok entry =>
        cases entry with
        | directory => rfl
        | file bytes =>
          show ((Host.read (Path.ofText text) : StateM World _) >>= _) w = _
          rw [World.bind_apply, World.read_apply, Disk.read, hlook]
          rfl

theorem contentsFor_apply (c : Command) (w : World) :
    (contentsFor c : StateM World _) w = (contentsIn w.disk c, w) := by
  unfold contentsFor contentsIn
  cases c.file? <;> rfl

/-! ## Runs -/

/-- A program that ends with code zero, or with code one and one last line about what went wrong
after whole lines of the log, or with a failure that nothing answers for. -/
def Answers (x : StateM World Ending) : Prop :=
  ∀ w, (x w).1 = .returned 0 ∨
    ((x w).1 = .returned 1 ∧ ∃ lines message,
      (x w).2.complaints = w.complaints ++ unlines lines ++ ("Error: " ++ message ++ "\n")) ∨
    ∃ e, (x w).1 = .failed e

namespace Answers

theorem returned : Answers (pure (.returned 0)) := fun _ => .inl rfl

theorem failed (e : Failure) : Answers (pure (.failed e)) := fun _ => .inr (.inr ⟨e, rfl⟩)

theorem sayFailure (e : Failure) : Answers (CommandLine.sayFailure e) := fun _ =>
  .inr (.inl ⟨rfl, [], e.message, congrArg (· ++ _) String.append_empty.symm⟩)

/-- Lines of the log may stand before what is answered. -/
theorem bind {α : Type} {x : StateM World α} {f : α → StateM World Ending} (hx : InLines x)
    (hf : ∀ a, Answers (f a)) : Answers (x >>= f) := by
  intro w
  obtain ⟨lines, hlines⟩ := hx w
  rw [World.bind_apply]
  rcases hf (x w).1 (x w).2 with h | ⟨h, more, message, hmore⟩ | h
  · exact .inl h
  · refine .inr (.inl ⟨h, lines ++ more, message, ?_⟩)
    simp only [hmore, hlines, unlines_append, String.append_assoc]
  · exact .inr (.inr h)

theorem deliver (logging : Logging.State) (r : Report) :
    Answers (CommandLine.deliver logging r) := by
  unfold CommandLine.deliver
  dsimp only
  split
  · exact .bind (.of_silent fun _ => rfl) fun _ => .returned
  · refine .bind (.attempt _) fun written => ?_
    split
    · exact .sayFailure _
    · exact .bind (.log _ _) fun _ => .returned

theorem carryOut (tools : Tools) (logging : Logging.State) (c : Command) :
    Answers (CommandLine.carryOut tools logging c) := by
  refine .bind (.of_silent fun w => by rw [contentsFor_apply]) fun contents => ?_
  refine .bind (.logAll _ _) fun _ => ?_
  split
  · exact .deliver _ _
  · split
    · exact .sayFailure _
    · exact .failed _

theorem invoke (i : Invocation) : Answers (CommandLine.invoke i) := by
  refine .bind (.of_silent fun w => by rw [settingsOf_apply]) fun settings => ?_
  split
  · exact .sayFailure _
  · exact .failed _
  · refine .bind (.setUp _ _) fun logging => ?_
    split
    · exact .failed _
    · exact .carryOut _ _ _

end Answers

/-- A program that fails, run in a world, with some failures and no others. -/
def FailsWith (x : StateM World Ending) (w : World) (P : Failure → Prop) : Prop :=
  ∀ e, (x w).1 = .failed e ↔ P e

/-- A program that does not fail. -/
abbrev Safe (x : StateM World Ending) : Prop :=
  ∀ w, FailsWith x w fun _ => False

namespace FailsWith

variable {α : Type} {x : StateM World α} {f : α → StateM World Ending} {w : World}
  {P Q : Failure → Prop}

theorem bind (h : FailsWith (f (x w).1) (x w).2 P) : FailsWith (x >>= f) w P := h

theorem congr {x : StateM World Ending} (h : FailsWith x w P) (hPQ : ∀ e, P e ↔ Q e) :
    FailsWith x w Q :=
  fun e => (h e).trans (hPQ e)

theorem failed (e : Failure) (w : World) : FailsWith (pure (.failed e)) w (e = ·) :=
  fun _ => ⟨fun h => Ending.failed.inj h, fun h => congrArg Ending.failed h⟩

theorem returned (code : Nat) : Safe (pure (.returned code)) :=
  fun _ _ => iff_of_false (fun h => nomatch h) id

theorem sayFailure (e : Failure) : Safe (CommandLine.sayFailure e) :=
  fun _ _ => iff_of_false (fun h => nomatch h) id

theorem deliver (logging : Logging.State) (r : Report) : Safe (CommandLine.deliver logging r) := by
  intro w
  unfold CommandLine.deliver
  dsimp only
  split
  · exact .bind (.returned 0 _)
  · refine .bind ?_
    split
    · exact .sayFailure _ _
    · exact .bind (.returned 0 _)

/-- Carrying out a command fails as its report does, if that is not reported. -/
theorem carryOut (s : Settings) (logging : Logging.State) {c : Command} {w : World}
    (followed : ∀ text, c.LoadsText w.disk text → Yaml.Followed text) :
    FailsWith (CommandLine.carryOut (.ofSettings s) logging c) w (Unreported s w.disk c) := by
  refine .bind ?_
  rw [contentsFor_apply]
  refine .bind ?_
  dsimp only
  refine .congr (P := fun e => (c.report (.ofSettings s) (contentsIn w.disk c)).result = .error e ∧
    e.isReported = false) ?_ fun e => report_unreported_iff followed
  cases (c.report (.ofSettings s) (contentsIn w.disk c)).result with
  | ok report =>
    exact (deliver logging report _).congr fun e => iff_of_false id fun h => nomatch h.1
  | error e' =>
    dsimp only
    split
    next hreported =>
      refine (sayFailure e' _).congr fun e => iff_of_false id ?_
      rintro ⟨h, hunreported⟩
      cases h
      cases hreported.symm.trans hunreported
    next hreported =>
      refine (failed e' _).congr fun e => ?_
      constructor
      · rintro rfl
        exact ⟨rfl, Bool.eq_false_iff.mpr hreported⟩
      · rintro ⟨h, -⟩
        exact Except.error.inj h

end FailsWith

/-- Settings that are there and cannot be read: the name is too long to look for, or the file is no
settings file. -/
inductive BadConfig (d : Disk) : Option String → Failure → Prop where
  | longName {text : String} (given : text.isEmpty = false)
      (long : d.look (.ofText text) = .error .longName) :
      BadConfig d (some text) (.file (.longName (Path.ofText text).toText))
  | content {text : String} {bytes : List UInt8} {e : Failure} (given : text.isEmpty = false)
      (there : d.look (.ofText text) = .ok (.file bytes))
      (bad : Settings.ofFile (.ofText text) bytes = .error e) :
      BadConfig d (some text) e

/-- Logging that cannot be set up: a setting about it cannot be read, or the directory of the log
file cannot be made, or the file cannot be opened. -/
inductive BadLogging (s : Settings) (level : Option String) (w : World) : Failure → Prop where
  | setting {e : Failure} (bad : (Logging.Request.mk s none true level).plan = .error e) :
      BadLogging s level w e
  | file {threshold : Severity} {directory : Path} {e : Failure}
      (planned : (Logging.Request.mk s none true level).plan = .ok (threshold, some directory))
      (bad : ((Logging.openFile directory : StateM World _) w).1 = .error e) :
      BadLogging s level w e

theorem settingsIn_error_iff {d : Disk} {config : Option String} {e : Failure} :
    (settingsIn d config = .error e ∧ ∀ path, e ≠ .file (.noSettings path)) ↔
      BadConfig d config e := by
  constructor
  · rintro ⟨h, hthere⟩
    cases config with
    | none => cases h
    | some text =>
      unfold settingsIn at h
      dsimp only at h
      split at h
      · cases h
      next given =>
        split at h
        next bytes there => exact .content (Bool.eq_false_iff.mpr given) there h
        next long =>
          cases h
          exact .longName (Bool.eq_false_iff.mpr given) long
        next =>
          cases h
          exact absurd rfl (hthere _)
  · intro h
    cases h with
    | longName given long =>
      refine ⟨?_, fun _ h => nomatch h⟩
      simp only [settingsIn, given, long, Bool.false_eq_true, if_false]
    | content given there bad =>
      constructor
      · simp only [settingsIn, given, there, bad, Bool.false_eq_true, if_false]
      · rintro path rfl
        rcases Settings.ofFile_error bad with ⟨_, h⟩ | ⟨_, h⟩ <;> cases h

namespace BadLogging

variable {s : Settings} {level : Option String} {w : World} {e : Failure}

/-- A plan that cannot be made refuses the request before the disk is looked at. -/
theorem iff_of_setting {e' : Failure} (plan : (Logging.Request.mk s none true level).plan = .error e') :
    BadLogging s level w e ↔ e' = e := by
  constructor
  · intro h
    cases h with
    | setting bad => exact Except.error.inj (plan.symm.trans bad)
    | file planned bad => cases plan.symm.trans planned
  · rintro rfl
    exact .setting plan

/-- Without a log file nothing is opened. -/
theorem not_of_console {threshold : Severity}
    (plan : (Logging.Request.mk s none true level).plan = .ok (threshold, none)) :
    ¬ BadLogging s level w e := by
  intro h
  cases h with
  | setting bad => cases plan.symm.trans bad
  | file planned bad => cases plan.symm.trans planned

/-- With one, it depends on the opening. -/
theorem iff_of_file {threshold : Severity} {directory : Path}
    (plan : (Logging.Request.mk s none true level).plan = .ok (threshold, some directory)) :
    BadLogging s level w e ↔ ((Logging.openFile directory : StateM World _) w).1 = .error e := by
  constructor
  · intro h
    cases h with
    | setting bad => cases plan.symm.trans bad
    | file planned bad =>
      cases plan.symm.trans planned
      exact bad
  · exact .file plan

end BadLogging

/-- These are all the ways in which logging is not set up. -/
theorem setUp_error_iff {s : Settings} {level : Option String} {w : World} {e : Failure} :
    ((Logging.setUp ⟨s, none, true, level⟩ .initial : StateM World _) w).1 = .error e ↔
      BadLogging s level w e := by
  rcases hplan : (Logging.Request.mk s none true level).plan with e' | ⟨threshold, directory?⟩
  · rw [Logging.setUp, hplan, BadLogging.iff_of_setting hplan]
    exact ⟨Except.error.inj, congrArg Except.error⟩
  · rw [Logging.setUp, hplan]
    cases directory? with
    | none =>
      refine iff_of_false ?_ (BadLogging.not_of_console hplan)
      rintro ⟨⟩
    | some directory =>
      rw [BadLogging.iff_of_file hplan]
      dsimp only
      rw [World.bind_apply]
      cases ((Logging.openFile directory : StateM World _) w).1 with
      | ok => refine iff_of_false ?_ ?_ <;> rintro ⟨⟩
      | error e' =>
        exact ⟨fun h => congrArg _ (Except.error.inj h), fun h => congrArg _ (Except.error.inj h)⟩

/-- What a command line asks for fails in the three places, and nowhere else. -/
theorem FailsWith.invoke {i : Invocation} {w : World}
    (followed : ∀ s logging w' text, settingsIn w.disk i.config = .ok s →
      (Logging.setUp ⟨s, none, true, i.logLevel⟩ .initial : StateM World _) w = (.ok logging, w') →
      i.command.LoadsText w'.disk text → Yaml.Followed text) :
    FailsWith (CommandLine.invoke i) w fun e =>
      BadConfig w.disk i.config e ∨
        ∃ s, settingsIn w.disk i.config = .ok s ∧ (BadLogging s i.logLevel w e ∨
          ∃ logging w', (Logging.setUp ⟨s, none, true, i.logLevel⟩ .initial : StateM World _) w =
            (.ok logging, w') ∧ Unreported s w'.disk i.command e) := by
  simp only [← settingsIn_error_iff, ← setUp_error_iff]
  refine .bind ?_
  rw [settingsOf_apply]
  dsimp only
  split
  next path hsettings =>
    refine (sayFailure _ w).congr fun e => iff_of_false id ?_
    rw [hsettings]
    rintro (⟨h, hthere⟩ | ⟨_, h, -⟩)
    · cases h
      exact hthere path rfl
    · cases h
  next e' hthere hsettings =>
    refine (failed e' w).congr fun e => ?_
    rw [hsettings, or_iff_left fun ⟨_, h, _⟩ => nomatch h]
    constructor
    · rintro rfl
      refine ⟨rfl, ?_⟩
      rintro path rfl
      exact hthere path rfl
    · rintro ⟨h, -⟩
      exact Except.error.inj h
  next s hsettings =>
    refine .bind ?_
    split
    next e' hstart =>
      refine (failed e' _).congr fun e => ?_
      rw [hsettings, or_iff_right fun ⟨h, _⟩ => nomatch h]
      constructor
      · rintro rfl
        exact ⟨s, rfl, .inl hstart⟩
      · rintro ⟨_, hs, h⟩
        cases hs
        rcases h with h | ⟨_, _, h, -⟩
        · exact Except.error.inj (hstart.symm.trans h)
        · cases hstart.symm.trans (congrArg Prod.fst h)
    next logging hstart =>
      have loaded (text : String) :=
        followed s logging _ text hsettings (Prod.ext hstart rfl)
      refine (carryOut s logging loaded).congr fun e => ?_
      rw [hsettings, or_iff_right fun ⟨h, _⟩ => nomatch h]
      constructor
      · intro h
        exact ⟨s, rfl, .inr ⟨logging, _, Prod.ext hstart rfl, h⟩⟩
      · rintro ⟨_, hs, h⟩
        cases hs
        rcases h with h | ⟨_, _, h, hbad⟩
        · cases hstart.symm.trans h
        · rwa [h]

/-- The text of the document that a run loads, if it comes that far and loads one. -/
inductive LoadsText (words : List String) (w : World) (text : String) : Prop
  | intro {i : Invocation} {s : Settings} {logging : Logging.State} {w' : World}
      (asked : Invocation.read words = .ok i) (settings : settingsIn w.disk i.config = .ok s)
      (started : (Logging.setUp ⟨s, none, true, i.logLevel⟩ .initial : StateM World _) w =
        (.ok logging, w'))
      (loads : i.command.LoadsText w'.disk text) : LoadsText words w text

end CommandLine

end OpeningHand
