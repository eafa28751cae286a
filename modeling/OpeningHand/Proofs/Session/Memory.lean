import Mathlib.Data.List.Induction
import OpeningHand.Proofs.Document.Outcome
import OpeningHand.Session

/-!
# What a session keeps

A session keeps the text and the scenario of the last load that succeeded. What it keeps changes by
such a load only, and nothing it answers depends on it: after any calls, each answers as it would
have in a session of its own.
-/

namespace OpeningHand

namespace Tools

/-- A file is loaded as its text is. -/
theorem result_loadFile (t : Tools) (p : Files.Path) (bytes : Except Files.Fault (List UInt8)) :
    (t.loadFile p bytes).result = do
      let text ← textOf bytes
      let scenario ← (Library.load t.settings t.builder p.name text).result
      return ⟨text, scenario⟩ := by
  unfold loadFile load
  simp only [Recorded.result_bind]
  rfl

end Tools

namespace Session

/-- A request, with the files as they are at its time. -/
abbrev Call := Contents × Request

/-- A request to load a document. -/
def Request.isLoad : Request → Bool
  | .load .. | .loadFile _ => true
  | .convertFile _ | .saveDeck _ | .saveConditions _ | .saveAll .. => false

/-- A call loads a document: it hands over a text, or the path of a file that holds one, and the text
can be loaded. -/
inductive Loads (t : Tools) : Call → Loaded → Prop
  | text {contents : Contents} {source text : String} {scenario : Scenario}
      (loads : (Library.load t.settings t.builder source text).result = .ok scenario) :
      Loads t (contents, .load source text) ⟨text, scenario⟩
  | file {contents : Contents} {path text : String} {scenario : Scenario}
      (reads : Tools.textOf (contents (.ofText path)) = .ok text)
      (loads : (Library.load t.settings t.builder (Files.Path.ofText path).name text).result =
        .ok scenario) :
      Loads t (contents, .loadFile path) ⟨text, scenario⟩

/-- What there is to keep after some calls: nothing if none of them loads a document, and otherwise
what the last one that does loads. -/
inductive Recalls (t : Tools) (calls : List Call) : Option Loaded → Prop
  | nothing (idle : ∀ call ∈ calls, ∀ l, ¬ Loads t call l) : Recalls t calls none
  | latest {before after : List Call} {call : Call} {l : Loaded}
      (split : calls = before ++ call :: after) (loads : Loads t call l)
      (idle : ∀ call ∈ after, ∀ l, ¬ Loads t call l) : Recalls t calls (some l)

variable {t : Tools}

/-! ## One call -/

/-- A call is answered with a document exactly if it loads one. -/
theorem answer_loaded_iff {call : Call} {l : Loaded} :
    (answer t call.1 call.2).result = .ok (.loaded l) ↔ Loads t call l := by
  obtain ⟨contents, request⟩ := call
  have texts {x : Except Failure String} :
      ¬ (x >>= fun s => .ok (.text s)) = Except.ok (Reply.loaded l) := fun h => by
    obtain ⟨_, _, h⟩ := bind_eq_ok.mp h
    cases h
  unfold answer
  cases request with
  | load source text =>
    simp only [Tools.load, Recorded.result_bind]
    constructor
    · intro h
      obtain ⟨_, h, hl⟩ := bind_eq_ok.mp h
      obtain ⟨_, loads, h⟩ := bind_eq_ok.mp h
      cases h
      cases hl
      exact .text loads
    · rintro ⟨loads⟩
      rw [loads]
      rfl
  | loadFile path =>
    simp only [Recorded.result_bind, Tools.result_loadFile]
    constructor
    · intro h
      obtain ⟨_, h, hl⟩ := bind_eq_ok.mp h
      obtain ⟨_, reads, h⟩ := bind_eq_ok.mp h
      obtain ⟨_, loads, h⟩ := bind_eq_ok.mp h
      cases h
      cases hl
      exact .file reads loads
    · rintro (_ | ⟨reads, loads⟩)
      rw [reads]
      show ((Library.load t.settings t.builder _ _).result >>= _ >>= _) = _
      rw [loads]
      rfl
  | convertFile | saveDeck | saveConditions | saveAll =>
    simp only [Recorded.result_bind]
    exact iff_of_false texts nofun

theorem last_step_of_loads {s : Session} {call : Call} {l : Loaded} (h : Loads s.tools call l) :
    (s.step call.1 call.2).2.last = some l := by
  show remember s.last (answer s.tools call.1 call.2).result = some l
  rw [answer_loaded_iff.mpr h]
  rfl

/-- A call that loads nothing changes nothing. -/
theorem last_step_of_idle {s : Session} {call : Call} (h : ∀ l, ¬ Loads s.tools call l) :
    (s.step call.1 call.2).2.last = s.last := by
  show remember s.last (answer s.tools call.1 call.2).result = s.last
  cases hresult : (answer s.tools call.1 call.2).result with
  | error => rfl
  | ok reply =>
    cases reply with
    | text => rfl
    | loaded l => exact absurd (answer_loaded_iff.mp hresult) (h l)

/-! ## Runs -/

theorem run_append (s : Session) (before after : List Call) :
    s.run (before ++ after) =
      ((s.run before).1 ++ ((s.run before).2.run after).1, ((s.run before).2.run after).2) := by
  induction before generalizing s with
  | nil => rfl
  | cons call before ih =>
    obtain ⟨contents, request⟩ := call
    simp only [List.cons_append, run, ih]

theorem length_run (s : Session) (calls : List Call) : (s.run calls).1.length = calls.length := by
  induction calls generalizing s with
  | nil => rfl
  | cons call calls ih => exact congrArg (· + 1) (ih _)

theorem tools_run (s : Session) (calls : List Call) : (s.run calls).2.tools = s.tools := by
  induction calls generalizing s with
  | nil => rfl
  | cons call calls ih => exact ih _

/-- The session after some calls. -/
def reached (t : Tools) (calls : List Call) : Session :=
  ((start t).run calls).2

theorem tools_reached (t : Tools) (calls : List Call) : (reached t calls).tools = t :=
  tools_run (start t) calls

theorem reached_append (t : Tools) (calls : List Call) (call : Call) :
    reached t (calls ++ [call]) = ((reached t calls).step call.1 call.2).2 := by
  rw [reached, run_append]
  rfl

theorem Recalls.loaded {calls : List Call} {call : Call} {l : Loaded} (h : Loads t call l) :
    Recalls t (calls ++ [call]) (some l) :=
  .latest rfl h nofun

theorem Recalls.idle {calls : List Call} {call : Call} {last : Option Loaded}
    (h : Recalls t calls last) (idle : ∀ l, ¬ Loads t call l) :
    Recalls t (calls ++ [call]) last := by
  cases h with
  | nothing none =>
    exact .nothing (List.forall_mem_append.mpr ⟨none, List.forall_mem_singleton.mpr idle⟩)
  | latest split loads none =>
    rw [split, List.append_assoc, List.cons_append]
    exact .latest rfl loads
      (List.forall_mem_append.mpr ⟨none, List.forall_mem_singleton.mpr idle⟩)

/-- What a session keeps is what there is to keep. The induction is on the last call. -/
theorem recalls_reached (t : Tools) (calls : List Call) :
    Recalls t calls (reached t calls).last := by
  induction calls using List.reverseRecOn with
  | nil => exact .nothing nofun
  | append_singleton calls call ih =>
    rw [reached_append]
    have tools := tools_reached t calls
    by_cases h : ∃ l, Loads t call l
    · obtain ⟨l, h⟩ := h
      rw [last_step_of_loads (tools.symm ▸ h)]
      exact .loaded h
    · have idle : ∀ l, ¬ Loads t call l := not_exists.mp h
      rw [last_step_of_idle (tools.symm ▸ idle)]
      exact ih.idle idle

/-- Each call of a run is answered as in a session of its own, with a document exactly if it loads
one. After it the session keeps what the last call that loaded a document loaded, or nothing; a call
that fails, and one that is no request to load, leaves what is kept as it is. -/
theorem run_keeps (t : Tools) (before after : List Call) (call : Call) :
    ∃ job, ((start t).run (before ++ call :: after)).1[before.length]? = some job ∧
      job = ((start t).step call.1 call.2).1 ∧
      (∀ l, job.result = .ok (.loaded l) ↔ Loads t call l) ∧
      Recalls t (before ++ [call]) (reached t (before ++ [call])).last ∧
      (call.2.isLoad = false ∨ (∃ e, job.result = .error e) →
        (reached t (before ++ [call])).last = (reached t before).last) := by
  have tools := tools_reached t before
  refine ⟨answer t call.1 call.2, ?_, rfl, fun l => answer_loaded_iff, recalls_reached t _, ?_⟩
  · rw [run_append, ← length_run (start t) before, List.getElem?_append_right (Nat.le_refl _),
      Nat.sub_self]
    show some (answer (reached t before).tools call.1 call.2) = _
    rw [tools]
  · intro h
    rw [reached_append]
    refine last_step_of_idle fun l loads => ?_
    rw [tools] at loads
    rcases h with h | ⟨e, h⟩
    · cases loads <;> cases h
    · cases h.symm.trans (answer_loaded_iff.mpr loads)

end Session

end OpeningHand
