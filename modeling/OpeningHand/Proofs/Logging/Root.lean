import OpeningHand.Logging.Root
import OpeningHand.Proofs.Logging.Backups

/-!
# Setting logging up again

Setting logging up leaves nothing of what a root was before: its handlers are removed one by one,
while their list shrinks, and all of them go (`Root.clear_eq`). What a request then makes of the root
is what it makes of logging that nobody else has touched (`Root.setUp_cases`), so after requests in
turn the root is what the last of them asks for, and every record that is seen reaches the console and
the log once at most, however often log files are turned over meanwhile (`settled_by_last`).
-/

namespace OpeningHand.Logging

open Files (Disk Path)

variable {η : Type}

/-! ## What is asked for -/

/-- What a request asks for, the console aside: the severity that a name stands for, given or set, and
the directory that is set, if a log file is wanted, by the request or else by the settings. -/
inductive Request.Asks (r : Request) : Severity → Option Path → Prop
  | noFile {name} (unwanted : r.wantsFile = .ok false) (level : r.levelName = .ok name) :
      Asks r (Severity.ofName name) none
  | file {name directory} (wanted : r.wantsFile = .ok true) (level : r.levelName = .ok name)
      (place : r.settings.logDir = .ok directory) :
      Asks r (Severity.ofName name) (some directory)

theorem Request.asks_of_plan {r : Request} {threshold : Severity} {directory? : Option Path}
    (h : r.plan = .ok (threshold, directory?)) : r.Asks threshold directory? := by
  obtain ⟨wants, hwants, h⟩ := bind_eq_ok.mp h
  obtain ⟨name, hname, h⟩ := bind_eq_ok.mp h
  cases wants with
  | false =>
    cases h
    exact .noFile hwants hname
  | true =>
    obtain ⟨directory, hdirectory, h⟩ := bind_eq_ok.mp h
    cases h
    exact .file hwants hname hdirectory

/-- Logging from a severity on, on the console or not, and to one log file or none. -/
def State.planned (threshold : Severity) (console : Bool) (file? : Option Path) : State :=
  ⟨threshold, (if console then [.console] else []) ++ (file?.map .file).toList⟩

theorem State.planned_add (threshold : Severity) (console : Bool) (path : Path) :
    (State.planned threshold console none).add (.file path) =
      .planned threshold console (some path) := by
  cases console <;> rfl

/-- A state that is set up anew, before the log file. -/
theorem State.console_eq (former : State) (threshold : Severity) (console : Bool) :
    (if console then (former.restart threshold).add .console else former.restart threshold) =
      .planned threshold console none := by
  cases console <;> rfl

/-! ## Handlers of a root -/

namespace Root

theorem ofState_add (s : State) (h : Handler) : (ofState s : Root η).add h = ofState (s.add h) := by
  rw [add, ofState, ofState, State.add, List.map_append]
  rfl

variable [DecidableEq η]

/-- Items are removed one by one from a list that starts with them; the rest is left. -/
theorem foldl_erase_append (xs ys : List (Attached η)) : xs.foldl List.erase (xs ++ ys) = ys := by
  induction xs with
  | nil => rfl
  | cons x xs ih => rw [List.cons_append, List.foldl_cons, List.erase_cons_head, ih]

theorem foldl_remove (hs : List (Attached η)) (root : Root η) :
    hs.foldl remove root = { root with handlers := hs.foldl List.erase root.handlers } := by
  induction hs generalizing root with
  | nil => rfl
  | cons h hs ih => rw [List.foldl_cons, ih, List.foldl_cons, remove]

/-- Removing each handler of a root leaves none. -/
theorem clear_eq (root : Root η) : root.clear = { root with handlers := [] } := by
  have hall := foldl_erase_append root.handlers []
  rw [List.append_nil] at hall
  rw [clear, foldl_remove, hall]

/-- A root that is set up anew, before the log file: nothing is left of what it was. -/
theorem console_eq (root : Root η) (threshold : Severity) (console : Bool) :
    (if console then (root.setLevel threshold).clear.add .console
      else (root.setLevel threshold).clear) = ofState (.planned threshold console none) := by
  rw [clear_eq]
  cases console <;> rfl

end Root

/-! ## One request -/

variable [DecidableEq η] {r : Request} {threshold : Severity} {directory : Path} {e : Failure}

/-- A request for what cannot be told is refused before anything happens in the world. -/
theorem Root.setUp_of_error (h : r.plan = .error e) (root : Root η) (w : World) :
    ∃ root', (root.setUp r : StateM World _) w = ((.error e, root'), w) := by
  rw [Root.setUp]
  rcases bind_eq_error.mp h with hwants | ⟨wants, hwants, h⟩
  · rw [hwants]
    exact ⟨_, rfl⟩
  rcases bind_eq_error.mp h with hlevel | ⟨name, hlevel, h⟩
  · rw [hwants, hlevel]
    exact ⟨_, rfl⟩
  rw [hwants, hlevel]
  cases wants with
  | false => cases h
  | true =>
    rcases bind_eq_error.mp h with hdirectory | ⟨_, _, h⟩
    · dsimp only
      rw [if_pos rfl, hdirectory]
      exact ⟨_, rfl⟩
    · cases h

theorem Root.setUp_of_noFile (h : r.Asks threshold none) (root : Root η) (w : World) :
    (root.setUp r : StateM World _) w =
      ((.ok (), .ofState (.planned threshold r.toConsole none)), w) := by
  cases h with
  | noFile unwanted level =>
    rw [Root.setUp, unwanted, level]
    dsimp only
    rw [Root.console_eq]
    rfl

/-- A root whose log file cannot be opened is left without one. -/
theorem Root.setUp_of_file (h : r.Asks threshold (some directory)) (root : Root η) (w : World) :
    (root.setUp r : StateM World _) w =
      ((((openFile directory : StateM World _) w).1,
        match ((openFile directory : StateM World _) w).1 with
        | .error _ => .ofState (.planned threshold r.toConsole none)
        | .ok () => .ofState (.planned threshold r.toConsole (some (directory.below fileName)))),
        ((openFile directory : StateM World _) w).2) := by
  cases h with
  | file wanted level place =>
    rw [Root.setUp, wanted, level]
    dsimp only
    rw [if_pos rfl, place]
    dsimp only
    rw [World.bind_apply, Root.console_eq, Root.ofState_add, State.planned_add]
    cases ((openFile directory : StateM World _) w).1 <;> rfl

theorem setUp_of_noFile (h : r.plan = .ok (threshold, none)) (former : State) (w : World) :
    (setUp r former : StateM World _) w = (.ok (.planned threshold r.toConsole none), w) := by
  rw [setUp, h]
  dsimp only
  rw [State.console_eq]
  rfl

theorem setUp_of_file (h : r.plan = .ok (threshold, some directory)) (former : State) (w : World) :
    (setUp r former : StateM World _) w =
      (((openFile directory : StateM World _) w).1.map fun _ =>
          .planned threshold r.toConsole (some (directory.below fileName)),
        ((openFile directory : StateM World _) w).2) := by
  rw [setUp, h]
  dsimp only
  rw [State.console_eq, State.planned_add]
  rfl

/-- A request comes to the same on a root and on a state, whatever they were before: it is refused for
the same reason, or both become what it asks for. -/
theorem Root.setUp_cases (r : Request) (root : Root η) (w : World) :
    (∃ e root' w', (root.setUp r : StateM World _) w = ((.error e, root'), w') ∧
      ∀ former, (Logging.setUp r former : StateM World _) w = (.error e, w')) ∨
    ∃ threshold directory? s w', r.Asks threshold directory? ∧
      s = .planned threshold r.toConsole (directory?.map (·.below fileName)) ∧
      (root.setUp r : StateM World _) w = ((.ok (), .ofState s), w') ∧
      ∀ former, (Logging.setUp r former : StateM World _) w = (.ok s, w') := by
  cases hplan : r.plan with
  | error e =>
    obtain ⟨root', h⟩ := root.setUp_of_error hplan w
    refine .inl ⟨e, root', w, h, fun former => ?_⟩
    rw [Logging.setUp, hplan]
    rfl
  | ok asked =>
    obtain ⟨threshold, directory?⟩ := asked
    have asks := Request.asks_of_plan hplan
    cases directory? with
    | none =>
      exact .inr ⟨threshold, none, _, w, asks, rfl, root.setUp_of_noFile asks w,
        fun former => Logging.setUp_of_noFile hplan former w⟩
    | some directory =>
      have hroot := root.setUp_of_file asks w
      have hstate := fun former => Logging.setUp_of_file hplan former w
      cases hopen : ((openFile directory : StateM World _) w).1 with
      | error e =>
        rw [hopen] at hroot hstate
        exact .inl ⟨e, _, _, hroot, hstate⟩
      | ok =>
        rw [hopen] at hroot hstate
        exact .inr ⟨threshold, some directory, _, _, asks, rfl, hroot, hstate⟩

/-! ## Records -/

/-- Whether logging sees a record: it matters enough. -/
def State.sees (s : State) (r : Record) : Bool :=
  s.threshold.rank ≤ r.severity.rank

/-- What is complained about for a record at a time: its line if there is a console, or the message
alone if there is no handler at all and the record is a warning or worse. -/
def complaint (console : Bool) (directory? : Option Path) (time : String) (r : Record) : String :=
  if console then line time r
  else if directory? = none ∧ Severity.warning.rank ≤ r.severity.rank then r.message ++ "\n"
  else ""

/-- The line of a record in bytes. -/
def lineBytes (time : String) (r : Record) : List UInt8 :=
  Text.encodeUtf8 (line time r).toList

/-- A record that was seen, and whether its line was lost on the way to the log file. -/
structure Fate where
  record : Record
  isLost : Bool

/-- What is complained about for a record, the loss of its line included. -/
def Fate.complaint (console : Bool) (directory? : Option Path) (time : String) (f : Fate) : String :=
  Logging.complaint console directory? time f.record ++
    if f.isLost then lossNotice ++ "\n" else ""

/-- What came into the log for a record: its line, unless that was lost. -/
def Fate.bytes (time : String) (f : Fate) : List UInt8 :=
  if f.isLost then [] else lineBytes time f.record

/-- What became of records in turn. Each was complained about once, and its line was put at the end of
the log of a directory once, if there is one, or it was lost. Of what was in the log before, the front
may be gone, but nothing is if the log file could take all lines. -/
structure Told (console : Bool) (directory? : Option Path) (fates : List Fate) (w w' : World) :
    Prop where
  said : w'.said = w.said
  clock : w'.clock = w.clock
  here : w'.disk.here = w.disk.here
  complaints : w'.complaints =
    w.complaints ++ String.join (fates.map (Fate.complaint console directory? w.clock))
  unnoted : directory? = none → w'.disk = w.disk ∧ ∀ f ∈ fates, f.isLost = false
  noted : ∀ directory ∈ directory?, wholeLog directory w'.disk <:+
    wholeLog directory w.disk ++ fates.flatMap (Fate.bytes w.clock)
  short : ∀ directory ∈ directory?,
    logSize directory w.disk + (fates.flatMap fun f => lineBytes w.clock f.record).length < maxBytes →
      wholeLog directory w'.disk =
        wholeLog directory w.disk ++ fates.flatMap (Fate.bytes w.clock) ∧
      logSize directory w'.disk ≤
        logSize directory w.disk + (fates.flatMap fun f => lineBytes w.clock f.record).length

section Told

variable {console : Bool} {directory? : Option Path} {fates fates' : List Fate} {w w' w'' : World}

theorem Told.nil (console : Bool) (directory? : Option Path) (w : World) :
    Told console directory? [] w w where
  said := rfl
  clock := rfl
  here := rfl
  complaints := String.append_empty.symm
  unnoted _ := ⟨rfl, List.forall_mem_nil _⟩
  noted _ _ := (List.append_nil _).symm ▸ List.suffix_rfl
  short _ _ _ := ⟨(List.append_nil _).symm, Nat.le_refl _⟩

theorem Told.append (h : Told console directory? fates w w')
    (h' : Told console directory? fates' w' w'') : Told console directory? (fates ++ fates') w w'' where
  said := h'.said.trans h.said
  clock := h'.clock.trans h.clock
  here := h'.here.trans h.here
  complaints := by
    rw [h'.complaints, h.complaints, h.clock, List.map_append, String.join_append,
      String.append_assoc]
  unnoted hnone := ⟨(h'.unnoted hnone).1.trans (h.unnoted hnone).1,
    List.forall_mem_append.mpr ⟨(h.unnoted hnone).2, (h'.unnoted hnone).2⟩⟩
  noted directory mem := by
    obtain ⟨gone, hgone⟩ := h.noted directory mem
    refine (h'.noted directory mem).trans ⟨gone, ?_⟩
    rw [h.clock, List.flatMap_append, ← List.append_assoc, hgone, List.append_assoc]
  short directory mem hshort := by
    rw [List.flatMap_append, List.length_append] at hshort
    obtain ⟨whole, size⟩ := h.short directory mem (by omega)
    obtain ⟨whole', size'⟩ := h'.short directory mem (by rw [h.clock]; omega)
    rw [whole', whole, h.clock]
    rw [h.clock] at size'
    refine ⟨by rw [List.flatMap_append, List.append_assoc], ?_⟩
    rw [List.flatMap_append, List.length_append]
    omega

/-- A record that is complained about and then given to a log file. -/
theorem Told.ofFile (console : Bool) (directory : Path) (record : Record) (w : World) :
    ∃ isLost, Told console (some directory) [⟨record, isLost⟩] w
      (((Handler.file (directory.below fileName)).handle (line w.clock record) : StateM World Unit)
        { w with
          complaints := w.complaints ++ complaint console (some directory) w.clock record }).2 := by
  obtain ⟨isLost, d, hd, here, whole, short⟩ := handle_file directory (line w.clock record)
    { w with complaints := w.complaints ++ complaint console (some directory) w.clock record }
  refine ⟨isLost, ?_⟩
  rw [hd]
  constructor
  case said => rfl
  case clock => rfl
  case here => exact here
  case complaints =>
    simp only [List.map_singleton, String.join_cons, String.join_nil, String.append_empty,
      Fate.complaint, String.append_assoc]
  case unnoted => exact nofun
  case noted =>
    rintro _ ⟨⟩
    rw [List.flatMap_singleton]
    exact whole
  case short =>
    rintro _ ⟨⟩
    rw [List.flatMap_singleton, List.flatMap_singleton]
    exact short

end Told

theorem State.log_unseen {s : State} {record : Record} (unseen : s.sees record = false) (w : World) :
    ((s.log record : StateM World Unit) w).2 = w := by
  rw [State.log, if_pos (Nat.not_le.mp (of_decide_eq_false unseen))]
  rfl

/-- Logging from a severity on, on the console or not, and in the log of a directory or in none. -/
abbrev State.plannedIn (threshold : Severity) (console : Bool) (directory? : Option Path) : State :=
  .planned threshold console (directory?.map (·.below fileName))

/-- A record that is seen is complained about once, and its line is put into the log once or lost. -/
theorem State.log_seen {console : Bool} {directory? : Option Path} {record : Record}
    (sees : (State.plannedIn threshold console directory?).sees record = true) (w : World) :
    ∃ isLost, Told console directory? [⟨record, isLost⟩] w
      (((State.plannedIn threshold console directory?).log record : StateM World Unit) w).2 := by
  rw [State.log, if_neg (Nat.not_lt.mpr (of_decide_eq_true sees))]
  cases directory? with
  | some directory =>
    obtain ⟨isLost, told⟩ := Told.ofFile console directory record w
    refine ⟨isLost, ?_⟩
    cases console with
    | true => exact told
    | false =>
      have silent : w.complaints ++ complaint false (some directory) w.clock record =
          w.complaints := by
        simp [complaint]
      rwa [silent] at told
  | none =>
    refine ⟨false, ?_⟩
    have told {text : String} (h : complaint console none w.clock record = text) :
        Told console none [⟨record, false⟩] w { w with complaints := w.complaints ++ text } := by
      refine ⟨rfl, rfl, rfl, ?_, fun _ => ⟨rfl, by simp⟩, nofun, nofun⟩
      simp [Fate.complaint, h]
    cases console with
    | true => exact told rfl
    | false =>
      rw [if_pos (by rfl)]
      by_cases warns : Severity.warning.rank ≤ record.severity.rank
      · rw [if_neg (Nat.not_lt.mpr warns)]
        exact told (by rw [complaint, if_neg Bool.false_ne_true, if_pos ⟨rfl, warns⟩])
      · rw [if_pos (Nat.not_le.mp warns)]
        have silent : Told false none [⟨record, false⟩] w
            { w with complaints := w.complaints ++ "" } := told (by simp [complaint, warns])
        rwa [String.append_empty] at silent

/-- Records that are seen are told of in turn; the others change nothing. -/
theorem State.logAll_told (threshold : Severity) (console : Bool) (directory? : Option Path)
    (records : List Record) (w : World) : ∃ fates : List Fate, fates.map Fate.record =
        records.filter (State.plannedIn threshold console directory?).sees ∧
      Told console directory? fates w
        (((State.plannedIn threshold console directory?).logAll records : StateM World Unit) w).2 := by
  induction records generalizing w with
  | nil => exact ⟨[], rfl, .nil console directory? w⟩
  | cons record records ih =>
    rw [State.logAll, World.bind_apply]
    cases sees : (State.plannedIn threshold console directory?).sees record with
    | true =>
      obtain ⟨isLost, first⟩ := State.log_seen sees w
      obtain ⟨fates, hfates, rest⟩ := ih
        (((State.plannedIn threshold console directory?).log record : StateM World Unit) w).2
      refine ⟨⟨record, isLost⟩ :: fates, ?_, first.append rest⟩
      rw [List.map_cons, hfates, List.filter_cons_of_pos sees]
    | false =>
      rw [State.log_unseen sees, List.filter_cons_of_neg (Bool.not_eq_true _ ▸ sees)]
      exact ih w

/-! ## Requests in turn -/

/-- A root after requests in turn that were all met, each in the world as it was at its time. -/
inductive SetUpFor : Root η → List Request → Root η → Prop
  | nil {root} : SetUpFor root [] root
  | cons {root next last : Root η} {r : Request} {rs : List Request} (w : World)
      (met : ((root.setUp r : StateM World _) w).1 = (.ok (), next))
      (rest : SetUpFor next rs last) : SetUpFor root (r :: rs) last

/-- The last request was met by a root that those before it had left. -/
theorem SetUpFor.last {root root' : Root η} {rs : List Request} (h : SetUpFor root (rs ++ [r]) root') :
    ∃ (mid : Root η) (w : World), SetUpFor root rs mid ∧
      ((mid.setUp r : StateM World _) w).1 = (.ok (), root') := by
  induction rs generalizing root with
  | nil =>
    cases h with
    | cons w met rest =>
      cases rest
      exact ⟨root, w, .nil, met⟩
  | cons _ _ ih =>
    cases h with
    | cons w met rest =>
      obtain ⟨mid, w', before, met'⟩ := ih rest
      exact ⟨mid, w', .cons w met before, met'⟩

/-- After requests in turn that were all met, and whatever the root was before them, it is at the level
that the last one asks for, with the console if that one wants it, then the log file if that one asks
for it, and with no other handler. So it is logging as the last request sets it up from any state, and
of records in turn it passes on those that are at or above the level: each is complained about once, by
its line if there is a console, and its line is put into the log once, unless it is lost on the way. -/
theorem settled_by_last {root root' : Root η} {rs : List Request}
    (h : SetUpFor root (rs ++ [r]) root') :
    ∃ threshold directory? s, r.Asks threshold directory? ∧ root'.level = threshold.rank ∧
      root'.handlers = (if r.toConsole then [.own .console] else []) ++
        (directory?.map fun directory => .own (.file (directory.below fileName))).toList ∧
      root' = .ofState s ∧ (∃ w, ∀ former, ((setUp r former : StateM World _) w).1 = .ok s) ∧
      ∀ records w, ∃ fates : List Fate, fates.map Fate.record = records.filter s.sees ∧
        Told r.toConsole directory? fates w ((s.logAll records : StateM World Unit) w).2 := by
  obtain ⟨mid, w, -, met⟩ := h.last
  rcases mid.setUp_cases r w with ⟨e, _, _, hroot, -⟩ |
    ⟨threshold, directory?, s, _, asks, rfl, hroot, hstate⟩
  · rw [hroot] at met
    cases met
  · rw [hroot] at met
    cases met
    refine ⟨threshold, directory?, _, asks, rfl, ?_, rfl,
      ⟨w, fun former => congrArg Prod.fst (hstate former)⟩,
      State.logAll_told threshold r.toConsole directory?⟩
    cases r.toConsole <;> cases directory? <;> rfl

/-- A root that other code has put handlers on, and logging was set up on more than once. -/
def crowded : Root Nat :=
  ⟨5, [.foreign 1, .own .console, .foreign 2, .own .console, .own (.file (.ofText "old.log"))]⟩

/-- A request for warnings and what is worse, on the console and in a log file. -/
def loud : Request := ⟨.default, some true, true, some "warning"⟩

/-- A request for no handler, and for the level that is set. -/
def quiet : Request := ⟨.default, none, false, none⟩

/-- What the loud request makes of a root. -/
def loudRoot : Root Nat := ⟨30, [.own .console, .own (.file (.ofText "logs/ygo_hand_sim.log"))]⟩

/-- A world with one empty directory. -/
def bareWorld : World := ⟨.empty "work".toList, "", "", "12:00"⟩

/-- The world after logging was set up once. -/
def startedWorld : World := ((crowded.setUp loud : StateM World _) bareWorld).2

/-- Of two records that come after two loud requests, the one that the loud root sees is told of as
after one. -/
theorem settled_by_last_crowded : SetUpFor crowded ([loud, quiet] ++ [loud]) loudRoot ∧
    ∃ (s : State) (isLost : Bool) (directory? : Option Path), loudRoot = .ofState s ∧
      Told true directory? [⟨⟨.probe, .error, "b"⟩, isLost⟩] startedWorld
        ((s.logAll [⟨.probe, .info, "a"⟩, ⟨.probe, .error, "b"⟩] : StateM World Unit)
          startedWorld).2 := by
  have met : SetUpFor crowded ([loud, quiet] ++ [loud]) loudRoot := by
    have loudly (root : Root Nat) (h : ((root.setUp loud : StateM World _) bareWorld).1.1.toOption =
        some () ∧ ((root.setUp loud : StateM World _) bareWorld).1.2 = loudRoot) :
        ((root.setUp loud : StateM World _) bareWorld).1 = (.ok (), loudRoot) :=
      Prod.ext (toOption_eq_some.mp h.1) h.2
    have quietly : ((loudRoot.setUp quiet : StateM World _) bareWorld).1 = (.ok (), ⟨20, []⟩) :=
      Prod.ext (toOption_eq_some.mp (by decide +kernel)) (by decide +kernel)
    exact .cons bareWorld (loudly crowded (by decide +kernel)) (.cons bareWorld quietly
      (.cons bareWorld (loudly ⟨20, []⟩ (by decide +kernel)) .nil))
  obtain ⟨_, directory?, s, -, -, -, hs, -, records⟩ := settled_by_last met
  have warning : s.threshold = .warning := by
    have hlevel : (30 : Int) = s.threshold.rank := congrArg Root.level hs
    cases h : s.threshold with
    | warning => rfl
    | debug | info | error | critical =>
      rw [h] at hlevel
      cases hlevel
  have seen : [⟨.probe, .info, "a"⟩, ⟨.probe, .error, "b"⟩].filter s.sees =
      [(⟨.probe, .error, "b"⟩ : Record)] := by
    simp [State.sees, warning, Severity.rank]
  obtain ⟨fates, hfates, told⟩ := records [⟨.probe, .info, "a"⟩, ⟨.probe, .error, "b"⟩] startedWorld
  rw [seen] at hfates
  obtain ⟨⟨_, isLost⟩, rfl, rfl⟩ := List.map_eq_singleton_iff.mp hfates
  exact ⟨met, s, isLost, directory?, hs, told⟩

end OpeningHand.Logging
