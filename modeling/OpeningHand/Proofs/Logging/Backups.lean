import Mathlib.Data.Nat.Init
import OpeningHand.Proofs.Files.Disk
import OpeningHand.Proofs.Host

/-!
# Log files and their backups

A log file that gets too long becomes the first backup, every backup the next one, and the last one is
lost. What a log holds as a whole (`wholeLog`) is what is in its files, from the last backup to the log
file itself, as if they were one. Turning the files over takes away from the front of that, if anything
(`turnOver_ends`), and a line that is noted is put at its end (`note_ends`). So however the files are turned
over, a line that is noted once stands in the log once at most.
-/

namespace OpeningHand

namespace Files

/-- The bytes in the file at a place, none if no file is there. -/
def Disk.bytesAt (d : Disk) (place : Place) : List UInt8 :=
  match d.entry? place with
  | some (.file bytes) => bytes
  | _ => []

theorem Disk.bytesAt_congr {d d' : Disk} {place place' : Place}
    (h : d'.entry? place' = d.entry? place) : d'.bytesAt place' = d.bytesAt place := by
  rw [bytesAt, bytesAt, h]

theorem Disk.bytesAt_of_free {d : Disk} {place : Place} (h : d.entry? place = none) :
    d.bytesAt place = [] := by
  rw [bytesAt, h]

theorem Path.target_below {name : String} (h : name ≠ "..") (here : Place) (p : Path) :
    (p.below name).target here = p.target here ++ [name.toList] := by
  have hdots : name.toList ≠ ['.', '.'] := fun hlist => h (String.toList_inj.mp hlist)
  rw [target, below, List.foldl_append, target, List.foldl_cons, if_neg hdots]
  rfl

end Files

namespace Logging

open Files (Disk Path Place)

/-! ## Names and places -/

/-- The name of a log file with a number in its directory, the one that is written to being the first. -/
def fileNameOf : Nat → String
  | 0 => fileName
  | i + 1 => fileName ++ ("." ++ toString (i + 1))

/-- The place of a log file with a number. -/
def logPlace (here : Place) (directory : Path) (i : Nat) : Place :=
  (directory.below (fileNameOf i)).target here

variable {directory : Path} {d d' : Disk} {i j n : Nat}

/-- The log files of a directory are in it. -/
theorem backup_below (directory : Path) (i : Nat) :
    backup (directory.below fileName) i = directory.below (fileNameOf i) := by
  cases i with
  | zero => rfl
  | succ i =>
    simp only [backup, Path.extended, Path.below, fileNameOf, String.toList_append,
      List.dropLast_concat, List.getLast?_concat, Option.getD_some]

theorem logPlace_eq (here : Place) (directory : Path) (hi : i ≤ backupCount) :
    logPlace here directory i = directory.target here ++ [(fileNameOf i).toList] := by
  apply Path.target_below
  revert i
  decide +kernel

theorem logPlace_ne_nil (here : Place) (directory : Path) (hi : i ≤ backupCount) :
    logPlace here directory i ≠ [] := by
  rw [logPlace_eq here directory hi]
  exact List.append_ne_nil_of_right_ne_nil _ (List.cons_ne_nil _ _)

/-- No two of the log files share their place, and none is below another. -/
theorem eq_of_prefix_logPlace {here : Place} (hi : i ≤ backupCount) (hj : j ≤ backupCount)
    (h : logPlace here directory i <+: logPlace here directory j) : i = j := by
  have distinct : ∀ i ≤ backupCount, ∀ j ≤ backupCount,
      fileNameOf i = fileNameOf j → i = j := by decide +kernel
  rw [logPlace_eq here directory hi, logPlace_eq here directory hj] at h
  apply distinct i hi j hj
  have hlength : (directory.target here ++ [(fileNameOf i).toList]).length =
      (directory.target here ++ [(fileNameOf j).toList]).length := by
    rw [List.length_append, List.length_append]
    rfl
  have hnames := List.append_cancel_left (h.eq_of_length hlength)
  exact String.toList_inj.mp (List.singleton_inj.mp hnames)

theorem eq_of_logPlace_eq {here : Place} (hi : i ≤ backupCount) (hj : j ≤ backupCount)
    (h : logPlace here directory i = logPlace here directory j) : i = j := by
  have front : logPlace here directory i <+: logPlace here directory j := h ▸ List.prefix_rfl
  exact eq_of_prefix_logPlace hi hj front

/-- Where the path of a log file leads is the place of that file. -/
theorem eq_logPlace {place : Place} (h : d.locate (backup (directory.below fileName) i) = .ok place) :
    place = logPlace d.here directory i := by
  rw [backup_below] at h
  exact Disk.target_of_locate h

/-! ## All that a log holds -/

/-- What the log files of a directory below a number hold, the last first. -/
def logBelow (directory : Path) (d : Disk) : Nat → List UInt8
  | 0 => []
  | i + 1 => d.bytesAt (logPlace d.here directory i) ++ logBelow directory d i

/-- What the log of a directory holds, the oldest first. -/
def wholeLog (directory : Path) (d : Disk) : List UInt8 :=
  logBelow directory d (backupCount + 1)

theorem logBelow_congr (n : Nat) (same : ∀ k < n,
      d'.bytesAt (logPlace d'.here directory k) = d.bytesAt (logPlace d.here directory k)) :
    logBelow directory d' n = logBelow directory d n := by
  induction n with
  | zero => rfl
  | succ n ih =>
    rw [logBelow, logBelow, same n (Nat.lt_succ_self n), ih fun k hk => same k (Nat.lt_succ_of_lt hk)]

/-- A line at the end of the log file is at the end of the log. -/
theorem wholeLog_append {bytes : List UInt8}
    (h : d.append (directory.below fileName) bytes = .ok d') :
    wholeLog directory d' = wholeLog directory d ++ bytes ∧ d'.here = d.here ∧
      d'.bytesAt (logPlace d.here directory 0) =
        d.bytesAt (logPlace d.here directory 0) ++ bytes := by
  obtain ⟨place, hplace, hput⟩ := Disk.change_eq_ok h
  have hlog : place = logPlace d.here directory 0 := eq_logPlace (i := 0) hplace
  have below := logPlace_ne_nil d.here directory (Nat.zero_le backupCount)
  rw [← hlog] at below
  obtain ⟨former, hformer, rfl⟩ : ∃ former, d.bytesAt place = former ∧
      d' = d.put place (.file (former ++ bytes)) := by
    rcases hput with ⟨rfl, hnone⟩ | ⟨former, rfl, hfile⟩
    · exact ⟨[], Disk.bytesAt_of_free hnone, rfl⟩
    · exact ⟨former, by rw [Disk.bytesAt, hfile], rfl⟩
  have hfirst : (d.put place (.file (former ++ bytes))).bytesAt place = former ++ bytes := by
    rw [Disk.bytesAt, Disk.entry?_put below, if_pos rfl]
  have others {k : Nat} (hk : k + 1 ≤ backupCount) :
      (d.put place (.file (former ++ bytes))).bytesAt (logPlace d.here directory (k + 1)) =
        d.bytesAt (logPlace d.here directory (k + 1)) := by
    apply Disk.bytesAt_congr
    rw [Disk.entry?_put below, if_neg]
    intro heq
    cases eq_of_logPlace_eq hk (Nat.zero_le _) (heq.trans hlog)
  have hbelow (n : Nat) (hn : n ≤ backupCount) :
      logBelow directory (d.put place (.file (former ++ bytes))) (n + 1) =
        logBelow directory d (n + 1) ++ bytes := by
    induction n with
    | zero =>
      show Disk.bytesAt _ (logPlace d.here directory 0) ++ [] = _ ++ [] ++ bytes
      rw [← hlog, hfirst, hformer, List.append_nil, List.append_nil]
    | succ n ih =>
      rw [logBelow, ih (Nat.le_of_succ_le hn), Disk.here_put, others hn,
        ← List.append_assoc]
      rfl
  refine ⟨hbelow backupCount (Nat.le_refl _), rfl, ?_⟩
  rw [← hlog, hfirst, hformer]

/-- Without its last backup, the log has lost what was first. -/
theorem wholeLog_remove_last
    (h : d.remove (backup (directory.below fileName) backupCount) = .ok d') :
    wholeLog directory d' <:+ wholeLog directory d ∧ d'.here = d.here := by
  obtain ⟨place, _, hplace, -, rfl⟩ := Disk.remove_eq_ok h
  obtain rfl := eq_logPlace hplace
  refine ⟨?_, rfl⟩
  rw [wholeLog, wholeLog, logBelow, logBelow, Disk.bytesAt_of_free, List.nil_append,
    logBelow_congr (d := d)]
  · exact List.suffix_append _ _
  · intro k hk
    apply Disk.bytesAt_congr
    exact Disk.entry?_clear_of_ne fun heq =>
      Nat.ne_of_lt hk (eq_of_logPlace_eq (Nat.le_of_lt hk) (Nat.le_refl _) heq)
  · exact Disk.entry?_clear_self (logPlace_ne_nil d.here directory (Nat.le_refl _))

/-- A log file that becomes the next one, which was not there, leaves the log as it was. -/
theorem wholeLog_rename (hi : i < backupCount)
    (h : d.rename (backup (directory.below fileName) i)
      (backup (directory.below fileName) (i + 1)) = .ok d') :
    wholeLog directory d' = wholeLog directory d ∧ d'.here = d.here ∧
      d'.entry? (logPlace d.here directory i) = none := by
  obtain ⟨source, target, _, hsource, htarget, -, hfree, rfl⟩ := Disk.rename_eq_ok h
  obtain rfl := eq_logPlace hsource
  obtain rfl := eq_logPlace htarget
  have hi' : i ≤ backupCount := Nat.le_of_lt hi
  have below {k : Nat} := logPlace_ne_nil (i := k) d.here directory
  have apart : ¬ logPlace d.here directory (i + 1) <+: logPlace d.here directory i := fun front =>
    Nat.succ_ne_self i (eq_of_prefix_logPlace hi hi' front)
  have hlast := Disk.entry?_move_target (d := d) (below hi') (below hi) apart
  have hfirst := Disk.entry?_move_source (d := d) (below hi') apart
  have others {k : Nat} (hk : k ≤ backupCount) (hne : k ≠ i) (hne' : k ≠ i + 1) :
      (d.move (logPlace d.here directory i) (logPlace d.here directory (i + 1))).bytesAt
        (logPlace d.here directory k) = d.bytesAt (logPlace d.here directory k) := by
    apply Disk.bytesAt_congr
    apply Disk.entry?_move_of_apart
    · exact fun front => hne (eq_of_prefix_logPlace hi' hk front).symm
    · exact fun front => hne' (eq_of_prefix_logPlace hi hk front).symm
  refine ⟨?_, rfl, hfirst⟩
  have hbelow (n : Nat) (hn : i + 2 ≤ n) (hn' : n ≤ backupCount + 1) :
      logBelow directory (d.move (logPlace d.here directory i) (logPlace d.here directory (i + 1)))
        n = logBelow directory d n := by
    induction n, hn using Nat.le_induction with
    | base =>
      rw [logBelow, logBelow, logBelow, logBelow, logBelow_congr (d := d)]
      · show Disk.bytesAt _ (logPlace d.here directory (i + 1)) ++
          (Disk.bytesAt _ (logPlace d.here directory i) ++ _) = _
        rw [Disk.bytesAt_congr hlast, Disk.bytesAt_of_free hfirst, Disk.bytesAt_of_free hfree,
          List.nil_append, List.nil_append]
      · intro k hk
        exact others (by omega) (by omega) (by omega)
    | succ n hn ih =>
      rw [logBelow, logBelow, ih (by omega)]
      exact congrArg (· ++ _) (others (by omega) (by omega) (by omega))
  exact hbelow _ (by omega) (Nat.le_refl _)

/-! ## Turning the files over -/

/-- A log file that becomes a backup is not there any more, and the log stays as a whole. -/
theorem rename_ends (w : World) (hi : i < backupCount) :
    ∃ d, ((Host.rename (backup (directory.below fileName) i)
        (backup (directory.below fileName) (i + 1)) : StateM World _) w).2 = { w with disk := d } ∧
      d.here = w.disk.here ∧ wholeLog directory d = wholeLog directory w.disk ∧
      (((Host.rename (backup (directory.below fileName) i)
        (backup (directory.below fileName) (i + 1)) : StateM World _) w).1 = .ok () →
        d.isThere (backup (directory.below fileName) i) = false) := by
  rw [World.rename_apply]
  cases hrename : w.disk.rename (backup (directory.below fileName) i)
    (backup (directory.below fileName) (i + 1)) with
  | error fault => exact ⟨w.disk, rfl, rfl, rfl, nofun⟩
  | ok d =>
    obtain ⟨whole, here, gone⟩ := wholeLog_rename hi hrename
    refine ⟨d, rfl, here, whole, fun _ => Disk.isThere_eq_false ?_⟩
    rw [backup_below, here]
    exact gone

/-- A log file that is moved up is not there any more. It takes the place of a backup only if that is
the last one. -/
theorem moveUp_ends {w : World} (hi : i < backupCount) (free : i + 1 = backupCount ∨
      w.disk.isThere (backup (directory.below fileName) (i + 1)) = false) :
    ∃ d, ((moveUp (backup (directory.below fileName) i) (backup (directory.below fileName) (i + 1)) :
        StateM World _) w).2 = { w with disk := d } ∧ d.here = w.disk.here ∧
      wholeLog directory d <:+ wholeLog directory w.disk ∧
      (((moveUp (backup (directory.below fileName) i) (backup (directory.below fileName) (i + 1)) :
        StateM World _) w).1 = .ok () → d.isThere (backup (directory.below fileName) i) = false) := by
  rw [moveUp, World.bind_apply, World.isThere_apply]
  dsimp only
  cases there : w.disk.isThere (backup (directory.below fileName) i) with
  | false => exact ⟨w.disk, rfl, rfl, List.suffix_rfl, fun _ => there⟩
  | true =>
    rw [if_neg (by decide), World.bind_apply, World.isThere_apply]
    dsimp only
    cases taken : w.disk.isThere (backup (directory.below fileName) (i + 1)) with
    | false =>
      obtain ⟨d, hd, here, whole, gone⟩ := rename_ends w hi
      exact ⟨d, hd, here, whole ▸ List.suffix_rfl, gone⟩
    | true =>
      have last : i + 1 = backupCount := free.resolve_right (by rw [taken]; decide)
      rw [if_neg (by decide), World.bind_apply, World.remove_apply]
      cases hremove : w.disk.remove (backup (directory.below fileName) (i + 1)) with
      | error fault => exact ⟨w.disk, rfl, rfl, List.suffix_rfl, nofun⟩
      | ok d =>
        rw [last] at hremove
        obtain ⟨shed, here⟩ := wholeLog_remove_last hremove
        obtain ⟨d', hd', here', whole, gone⟩ := rename_ends { w with disk := d } hi
        exact ⟨d', hd', here'.trans here, whole ▸ shed, gone⟩

/-- Turning files over takes away from the front of the log at most. The induction is on the number of
files that are still to be moved; nothing is at the place of the next one. -/
theorem turnOver_ends (directory : Path) {w : World} (hn : n ≤ backupCount) (free : n = backupCount ∨
      w.disk.isThere (backup (directory.below fileName) n) = false) :
    ∃ d, ((turnOver (directory.below fileName) n : StateM World _) w).2 = { w with disk := d } ∧
      d.here = w.disk.here ∧ wholeLog directory d <:+ wholeLog directory w.disk := by
  induction n generalizing w with
  | zero => exact ⟨w.disk, rfl, rfl, List.suffix_rfl⟩
  | succ i ih =>
    obtain ⟨d, hd, here, shed, gone⟩ := moveUp_ends hn free
    rw [turnOver, World.bind_apply, hd]
    cases hmoved : ((moveUp (backup (directory.below fileName) i)
      (backup (directory.below fileName) (i + 1)) : StateM World _) w).1 with
    | error fault => exact ⟨d, rfl, here, shed⟩
    | ok =>
      obtain ⟨d', hd', here', shed'⟩ := ih (w := { w with disk := d }) (Nat.le_of_succ_le hn)
        (.inr (gone hmoved))
      exact ⟨d', hd', here'.trans here, shed'.trans shed⟩

/-! ## Noting lines -/

/-- A text has no more characters than bytes. -/
theorem length_le_encodeUtf8 (cs : List Char) : cs.length ≤ (Text.encodeUtf8 cs).length := by
  induction cs with
  | nil => exact Nat.le_refl 0
  | cons c cs ih =>
    have hc : 0 < (String.utf8EncodeChar c).length := by
      rw [String.length_utf8EncodeChar]
      exact Char.utf8Size_pos c
    rw [Text.encodeUtf8, List.flatMap_cons, List.length_append, List.length_cons]
    rw [Text.encodeUtf8] at ih
    omega

/-- The size of a log file is that of what stands at its place. -/
theorem size_eq {size : Nat} (h : d.size? (directory.below fileName) = some size) :
    size = (d.bytesAt (logPlace d.here directory 0)).length := by
  rw [Disk.size?, Disk.look] at h
  cases hplace : d.locate (directory.below fileName) with
  | error o =>
    rw [hplace] at h
    cases h
  | ok place =>
    obtain rfl := eq_logPlace (i := 0) hplace
    rw [hplace] at h
    dsimp only at h
    rw [Disk.bytesAt]
    cases hentry : d.entry? (logPlace d.here directory 0) with
    | none =>
      rw [hentry] at h
      cases h
    | some e =>
      rw [hentry] at h
      cases e with
      | directory => cases h
      | file bytes =>
        cases h
        rfl

/-- The bytes that an attempt to put them into a log file has put there. -/
def arrived (answer : Except Files.Fault Unit) (bytes : List UInt8) : List UInt8 :=
  match answer with
  | .ok () => bytes
  | .error _ => []

theorem append_ends (directory : Path) (bytes : List UInt8) (w : World) :
    ∃ answer d, (Host.append (directory.below fileName) bytes : StateM World _) w =
        (answer, { w with disk := d }) ∧ d.here = w.disk.here ∧
      wholeLog directory d = wholeLog directory w.disk ++ arrived answer bytes ∧
      d.bytesAt (logPlace w.disk.here directory 0) =
        w.disk.bytesAt (logPlace w.disk.here directory 0) ++ arrived answer bytes := by
  rw [World.append_apply]
  cases happend : w.disk.append (directory.below fileName) bytes with
  | error fault =>
    exact ⟨_, w.disk, rfl, rfl, (List.append_nil _).symm, (List.append_nil _).symm⟩
  | ok d =>
    obtain ⟨whole, here, first⟩ := wholeLog_append happend
    exact ⟨_, d, rfl, here, whole, first⟩

/-- A line that is noted is at the end of the log, from whose front something may be gone; a line that
is lost has left nothing there. -/
theorem note_ends (directory : Path) (text : String) (w : World) :
    ∃ answer d, (note (directory.below fileName) text : StateM World _) w =
        (answer, { w with disk := d }) ∧ d.here = w.disk.here ∧
      wholeLog directory d <:+
        wholeLog directory w.disk ++ arrived answer (Text.encodeUtf8 text.toList) := by
  rw [note, World.bind_apply, World.size?_apply]
  dsimp only
  split
  · obtain ⟨d, hd, here, shed⟩ := turnOver_ends directory (w := w) (Nat.le_refl _) (.inl rfl)
    rw [World.bind_apply, hd]
    cases ((turnOver (directory.below fileName) backupCount : StateM World _) w).1 with
    | error fault => exact ⟨_, d, rfl, here, by rwa [arrived, List.append_nil]⟩
    | ok =>
      obtain ⟨answer, d', hd', here', whole, -⟩ := append_ends directory
        (Text.encodeUtf8 text.toList) { w with disk := d }
      refine ⟨answer, d', hd', here'.trans here, ?_⟩
      obtain ⟨gone, hgone⟩ := shed
      exact ⟨gone, by rw [whole, ← hgone, List.append_assoc]⟩
  · obtain ⟨answer, d, hd, here, whole, -⟩ := append_ends directory
      (Text.encodeUtf8 text.toList) w
    exact ⟨answer, d, hd, here, whole ▸ List.suffix_rfl⟩

/-- If the log file does not get too long with it, a line is put at the end, and nothing is gone. -/
theorem note_of_short {text : String} {w : World} (short :
      (w.disk.bytesAt (logPlace w.disk.here directory 0)).length + text.length < maxBytes) :
    (note (directory.below fileName) text : StateM World _) w =
      (Host.append (directory.below fileName) (Text.encodeUtf8 text.toList) : StateM World _) w := by
  have notFull : isFull (w.disk.size? (directory.below fileName)) text = false := by
    cases hsize : w.disk.size? (directory.below fileName) with
    | none => rfl
    | some size =>
      rw [size_eq hsize]
      exact decide_eq_false (Nat.not_le.mpr short)
  rw [note, World.bind_apply, World.size?_apply]
  dsimp only
  rw [notFull]
  rfl

/-- How many bytes are in the log file of a directory. -/
def logSize (directory : Path) (d : Disk) : Nat :=
  (d.bytesAt (logPlace d.here directory 0)).length

/-- A line that is given to a log file is at the end of the log, or it is complained that it was lost.
If the log file does not get too long with it, nothing is gone from the front of the log. -/
theorem handle_file (directory : Path) (text : String) (w : World) : ∃ (isLost : Bool) (d : Disk),
    (((Handler.file (directory.below fileName)).handle text : StateM World Unit) w).2 =
        { w with
          complaints := w.complaints ++ (if isLost then lossNotice ++ "\n" else "")
          disk := d } ∧
      d.here = w.disk.here ∧
      wholeLog directory d <:+ wholeLog directory w.disk ++
        (if isLost then [] else Text.encodeUtf8 text.toList) ∧
      (logSize directory w.disk + (Text.encodeUtf8 text.toList).length < maxBytes →
        wholeLog directory d = wholeLog directory w.disk ++
          (if isLost then [] else Text.encodeUtf8 text.toList) ∧
        logSize directory d ≤ logSize directory w.disk + (Text.encodeUtf8 text.toList).length) := by
  obtain ⟨answer, d, hd, here, whole⟩ := note_ends directory text w
  have short (h : logSize directory w.disk + (Text.encodeUtf8 text.toList).length < maxBytes) :
      wholeLog directory d =
        wholeLog directory w.disk ++ arrived answer (Text.encodeUtf8 text.toList) ∧
      logSize directory d ≤ logSize directory w.disk + (Text.encodeUtf8 text.toList).length := by
    have hlength := length_le_encodeUtf8 text.toList
    rw [String.length_toList] at hlength
    obtain ⟨answer', d', hd', here', whole', first⟩ :=
      append_ends directory (Text.encodeUtf8 text.toList) w
    rw [note_of_short (Nat.lt_of_le_of_lt (Nat.add_le_add_left hlength _) h), hd'] at hd
    cases hd
    refine ⟨whole', ?_⟩
    rw [logSize, here', first, List.length_append]
    refine Nat.add_le_add_left ?_ _
    cases answer with
    | ok => exact Nat.le_refl _
    | error fault => exact Nat.zero_le _
  rw [Handler.handle, World.bind_apply, hd]
  cases answer with
  | ok => exact ⟨false, d, by rw [if_neg (by decide), String.append_empty]; rfl, here, whole, short⟩
  | error fault => exact ⟨true, d, rfl, here, whole, short⟩

end Logging

end OpeningHand
