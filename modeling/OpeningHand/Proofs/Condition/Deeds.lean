import OpeningHand.Condition.Descent
import OpeningHand.Proofs.Condition.Dictionary

/-!
# Deeds of a descent

What is right about a deed at the place it was done at (`Deed.Sound`), and about all the deeds on
the way from one place to another (`Logged`): each is sound, and none was done at a lower index than
one before it.

`Comes` says that a step comes to one result at one place, and `Does` that a run ends: at a result,
or with the text refused, or at the making of a card test with a torn name, never for want of a token.
Both hold whatever was done before, and what is entered in the log is sound. The laws here are those of single
steps and of one step after another; the procedures are taken through them.
-/

namespace OpeningHand.Condition

open Grammar
open Text (Point shown)

/-! ## Admitted conditions -/

/-- A card test is admitted if its name is not empty. -/
theorem admitted_card {test : CardTest} (named : test.name ≠ "") : (card test).Admitted where
  named := by simpa only [tests, List.forall_mem_singleton] using named
  groups := trivial

/-- A group of admitted members is admitted, if it has one. -/
theorem admitted_group {k : Connective} {members : List Condition} (ne : members ≠ [])
    (admitted : ∀ c ∈ members, c.Admitted) : (group k members).Admitted := by
  have all : (∀ test ∈ testsAll members, test.name ≠ "") ∧ AllGroupsHave 1 members := by
    clear ne
    induction members with
    | nil => exact ⟨List.forall_mem_nil _, trivial⟩
    | cons c cs ih =>
      obtain ⟨hc, hcs⟩ := List.forall_mem_cons.mp admitted
      obtain ⟨named, groups⟩ := ih hcs
      exact ⟨List.forall_mem_append.mpr ⟨hc.named, named⟩, hc.groups, groups⟩
  exact ⟨all.1, List.length_pos_iff.mpr ne, all.2⟩

namespace Descent

variable {text : List Point} {p q r : Place} {t : Token} {ts : List Token}

/-! ## Places -/

/-- How many parentheses some tokens open and do not close. -/
def unclosed (ts : List Token) : Nat :=
  ts.foldl levelAfter 0

/-- A place between two tokens: as many parentheses are open as the tokens before it leave open, and
no more than may be. -/
structure Place.Good (text : List Point) (p : Place) : Prop where
  index_le : p.index ≤ (tokens (shown text)).length
  depth_eq : p.depth = unclosed ((tokens (shown text)).take p.index)
  depth_le : p.depth ≤ maxNesting

/-- The tokens that are not taken yet. -/
def Place.rest (text : List Point) (p : Place) : List Token :=
  (tokens (shown text)).drop p.index

/-- A descent starts before the first token, with no group open. -/
theorem good_start (text : List Point) : Place.Good text ⟨0, 0⟩ where
  index_le := Nat.zero_le _
  depth_eq := rfl
  depth_le := Nat.zero_le _

theorem Place.getElem?_of_rest (h : p.rest text = t :: ts) : (tokens (shown text))[p.index]? = some t := by
  rw [← List.head?_drop]
  exact congrArg List.head? h

/-- Where a token is left, the index is below the number of tokens. -/
theorem Place.lt_of_rest (h : p.rest text = t :: ts) : p.index < (tokens (shown text)).length :=
  (List.getElem?_eq_some_iff.mp (getElem?_of_rest h)).1

/-- One step on, the rest is the tail. -/
theorem Place.rest_next (h : p.rest text = t :: ts) (depth : Nat) :
    Place.rest text ⟨p.index + 1, depth⟩ = ts := by
  rw [Place.rest, ← List.tail_drop]
  exact congrArg List.tail h

/-- Past a token the place is as good, if there is room for the parentheses that are open then. -/
theorem Place.Good.next (good : p.Good text) (h : p.rest text = t :: ts)
    (room : levelAfter p.depth t ≤ maxNesting) :
    Place.Good text ⟨p.index + 1, levelAfter p.depth t⟩ where
  index_le := lt_of_rest h
  depth_eq := by
    rw [List.take_add_one, getElem?_of_rest h, unclosed, List.foldl_append, ← unclosed,
      ← good.depth_eq]
    rfl
  depth_le := room

/-! ## Logs -/

/-- What a condition is made of keeps to the rules: a test names a card, and a group has a member, all
of its members admitted ones. -/
def Making.Sound : Making → Prop
  | .card name _ _ => name ≠ []
  | .group _ members => members ≠ [] ∧ ∀ c ∈ members, c.Admitted

/-- The name of a card test holds a half. -/
def Making.Torn : Making → Prop
  | .card name _ _ => ∃ p ∈ name, p.isChar = false
  | .group _ _ => False

/-- What is right about a deed at a place. -/
def Deed.Sound (text : List Point) (p : Place) : Deed → Prop
  | .moves next => p.index ≤ next.index ∧ next.index ≤ (tokens (shown text)).length
  | .enters _ => p.Good text
  | .returns _ entry => p.Good text ∧ entry.index < p.index
  | .descends entry => entry.index < p.index
  | .takes => p.index < (tokens (shown text)).length
  | .collects words => words ≠ []
  | .names words => words ≠ []
  | .makes m => m.Sound

/-- The deeds on the way from one place to another are sound, in order, and between these places. -/
structure Logged (text : List Point) (p : Place) (events : List Event) (q : Place) : Prop where
  sound : ∀ e ∈ events, e.deed.Sound text e.place
  climbs : events.Pairwise fun e f => e.place.index ≤ f.place.index
  between : ∀ e ∈ events, p.index ≤ e.place.index ∧ e.place.index ≤ q.index
  le : p.index ≤ q.index
  inside : p.index ≤ (tokens (shown text)).length → q.index ≤ (tokens (shown text)).length

/-- Doing nothing is sound and leads nowhere. -/
theorem logged_nothing (text : List Point) (p : Place) : Logged text p [] p where
  sound := List.forall_mem_nil _
  climbs := .nil
  between := List.forall_mem_nil _
  le := Nat.le_refl _
  inside := id

/-- A deed that leaves the index where it is, or moves it on. -/
theorem logged_deed {d : Deed} (h : d.Sound text p) (le : p.index ≤ q.index)
    (inside : p.index ≤ (tokens (shown text)).length → q.index ≤ (tokens (shown text)).length) :
    Logged text p [⟨p, d⟩] q where
  sound := List.forall_mem_singleton.mpr h
  climbs := List.pairwise_singleton _ _
  between := List.forall_mem_singleton.mpr ⟨Nat.le_refl _, le⟩
  le := le
  inside := inside

/-- Logs of parts make the log of the whole, since the place never goes back. -/
theorem Logged.append {first more : List Event} (h : Logged text p first q)
    (h' : Logged text q more r) : Logged text p (first ++ more) r where
  sound := List.forall_mem_append.mpr ⟨h.sound, h'.sound⟩
  climbs := List.pairwise_append.mpr ⟨h.climbs, h'.climbs, fun e he f hf =>
    (h.between e he).2.trans (h'.between f hf).1⟩
  between := List.forall_mem_append.mpr
    ⟨fun e he => ⟨(h.between e he).1, (h.between e he).2.trans h'.le⟩,
      fun e he => ⟨h.le.trans (h'.between e he).1, (h'.between e he).2⟩⟩
  le := h.le.trans h'.le
  inside := h'.inside ∘ h.inside

/-! ## Steps -/

section

variable {α β : Type} {x : Descent α} {f : α → Descent β} {a : α} {b : β} {s s' : State}

/-- From a place a step comes to a result at another place, whatever was done before. -/
def Comes (text : List Point) (p : Place) (x : Descent α) (a : α) (q : Place) : Prop :=
  ∀ events, ∃ more, x.run.run ⟨p, events⟩ = some (.ok a, ⟨q, events ++ more⟩) ∧
    Logged text p more q

/-- A step that answers hands its state on. -/
theorem run_bind_ok (h : x.run.run s = some (.ok a, s')) :
    (x >>= f).run.run s = (f a).run.run s' := by
  simp [ExceptT.run_bind, StateT.run_bind, h]

/-- A step that stops the descent stops what was to come. -/
theorem run_bind_error {e : Stop} (h : x.run.run s = some (.error e, s')) :
    (x >>= f).run.run s = some (.error e, s') := by
  simp [ExceptT.run_bind, StateT.run_bind, h]

/-- A step that does no deed stays where it is. -/
theorem comes_of_run (h : ∀ events, x.run.run ⟨p, events⟩ = some (.ok a, ⟨p, events⟩)) :
    Comes text p x a p := by
  intro events
  refine ⟨[], ?_, logged_nothing text p⟩
  rw [List.append_nil]
  exact h events

theorem comes_pure (text : List Point) (p : Place) (a : α) : Comes text p (pure a) a p :=
  comes_of_run fun _ => rfl

theorem comes_here (text : List Point) (p : Place) : Comes text p here p p :=
  comes_of_run fun _ => rfl

/-- Noting a sound deed does not move. -/
theorem comes_note {d : Deed} (h : d.Sound text p) : Comes text p (note d) () p :=
  fun _ => ⟨[⟨p, d⟩], rfl, logged_deed h (Nat.le_refl _) id⟩

/-- The place may move on, up to the end of the tokens. -/
theorem comes_move {g : Place → Place} (le : p.index ≤ (g p).index)
    (inside : (g p).index ≤ (tokens (shown text)).length) : Comes text p (move g) () (g p) :=
  fun _ => ⟨[⟨p, .moves (g p)⟩], rfl, logged_deed ⟨le, inside⟩ le fun _ => inside⟩

/-- Steps that come to their ends come to that of the last. -/
theorem Comes.bind (h : Comes text p x a q) (h' : Comes text q (f a) b r) :
    Comes text p (x >>= f) b r := by
  intro events
  obtain ⟨more, hrun, hlog⟩ := h events
  obtain ⟨more', hrun', hlog'⟩ := h' (events ++ more)
  refine ⟨more ++ more', ?_, hlog.append hlog'⟩
  rw [run_bind_ok hrun, hrun', List.append_assoc]

theorem comes_peek (text : List Point) (p : Place) :
    Comes text p (peek text) (p.rest text).head? p := by
  rw [Place.rest, List.head?_drop]
  exact (comes_here text p).bind (comes_pure _ _ _)

/-- A token is taken only where there is one. -/
theorem comes_advance (h : p.rest text = t :: ts) :
    Comes text p (advance text) t ⟨p.index + 1, p.depth⟩ := by
  have inside := Place.lt_of_rest h
  refine (comes_note (d := .takes) inside).bind ((comes_peek text p).bind ?_)
  rw [h]
  refine (comes_move ?_ ?_).bind (comes_pure _ _ _)
  · exact Nat.le_succ _
  · exact inside

/-- A condition is made of what makes one. -/
theorem comes_make {m : Making} {c : Condition} (sound : m.Sound) (made : m.condition? = some c) :
    Comes text p (make m) c p := by
  refine (comes_note (d := .makes m) sound).bind ?_
  rw [made]
  exact comes_pure _ _ _

end

/-! ## Runs -/

section

variable {α β : Type} {x : Descent α} {f : α → Descent β} {fails : Refusal → Prop}
  {ends : α → Place → Prop} {ends' : β → Place → Prop}

/-- What the end of a run says about the text: it was refused, or a name in it is torn. -/
inductive Stop.Means : Stop → Refusal → Prop
  | refused (e : ReadError) : Means (.refused e) (.unread e)
  | torn {m : Making} (torn : m.Torn) : Means (.invalid m) .tornName

/-- A run is at a result, or has stopped for a reason. -/
def Outcome (fails : Refusal → Prop) (ends : α → Place → Prop) : Except Stop α → Place → Prop
  | .ok a, q => ends a q
  | .error stop, _ => ∃ e, stop.Means e ∧ fails e

/-- A run that comes to what a result says, and stops for what it was refused for, tells the result. -/
theorem Outcome.tells {x : Except Refusal α} {result : Except Stop α}
    (h : Outcome (x = .error ·) (fun a _ => x = .ok a) result q) :
    (∀ a, result = .ok a ↔ x = .ok a) ∧
      (∀ e, result = .error (.refused e) ↔ x = .error (.unread e)) ∧
      ((∃ m, result = .error (.invalid m)) ↔ x = .error .tornName) ∧
      (∀ m, result = .error (.invalid m) → m.Torn) ∧ result ≠ .error .outOfRange := by
  cases result with
  | ok a =>
    have hx : x = .ok a := h
    simp [hx]
  | error stop =>
    obtain ⟨e, means, hx⟩ := h
    cases means with
    | refused e => simp [hx]
    | torn torn => simpa [hx] using torn

/-- From a place a run ends, whatever was done before. -/
def Does (text : List Point) (p : Place) (x : Descent α) (fails : Refusal → Prop)
    (ends : α → Place → Prop) : Prop :=
  ∀ events, ∃ more q result, x.run.run ⟨p, events⟩ = some (result, ⟨q, events ++ more⟩) ∧
    Logged text p more q ∧ Outcome fails ends result q

/-- What comes to its end does what it should, if the end is right. -/
theorem Comes.does {a : α} (h : Comes text p x a q) (done : ends a q) :
    Does text p x fails ends := by
  intro events
  obtain ⟨more, hrun, hlog⟩ := h events
  exact ⟨more, q, .ok a, hrun, hlog, done⟩

theorem does_pure {a : α} (done : ends a p) : Does text p (pure a) fails ends :=
  (comes_pure text p a).does done

/-- A step that comes to its end, and then whatever is done from there. -/
theorem Comes.then {a : α} (h : Comes text p x a q) (h' : Does text q (f a) fails ends') :
    Does text p (x >>= f) fails ends' := by
  intro events
  obtain ⟨more, hrun, hlog⟩ := h events
  obtain ⟨more', r, result, hrun', hlog', hresult⟩ := h' (events ++ more)
  refine ⟨more ++ more', r, result, ?_, hlog.append hlog', hresult⟩
  rw [run_bind_ok hrun, hrun', List.append_assoc]

/-- The second part has to do with every end the first may have. -/
theorem Does.then (h : Does text p x fails ends)
    (h' : ∀ a q, ends a q → Does text q (f a) fails ends') :
    Does text p (x >>= f) fails ends' := by
  intro events
  obtain ⟨more, q, result, hrun, hlog, hresult⟩ := h events
  cases result with
  | ok a =>
    obtain ⟨more', r, result, hrun', hlog', hresult'⟩ := h' a q hresult (events ++ more)
    refine ⟨more ++ more', r, result, ?_, hlog.append hlog', hresult'⟩
    rw [run_bind_ok hrun, hrun', List.append_assoc]
  | error stop =>
    exact ⟨more, q, .error stop, run_bind_error hrun, hlog, hresult⟩

/-- What is refused and what a run ends with may be said in a weaker way. -/
theorem Does.imp {fails' : Refusal → Prop} {ends' : α → Place → Prop}
    (h : Does text p x fails ends) (refused : ∀ e, fails e → fails' e)
    (ended : ∀ a q, ends a q → ends' a q) : Does text p x fails' ends' := by
  intro events
  obtain ⟨more, q, result, hrun, hlog, hresult⟩ := h events
  refine ⟨more, q, result, hrun, hlog, ?_⟩
  cases result with
  | ok a => exact ended a q hresult
  | error stop =>
    obtain ⟨e, means, he⟩ := hresult
    exact ⟨e, means, refused e he⟩

/-- Stopping is done right if the stop means the refusal that reading gives. -/
theorem does_throw {stop : Stop} {e : Refusal} (means : stop.Means e) (h : fails e) :
    Does text p (throw stop : Descent α) fails ends := by
  intro events
  refine ⟨[], p, .error stop, ?_, logged_nothing text p, e, means, h⟩
  rw [List.append_nil]
  rfl

/-- A card test with a torn name stops the run when it is made. -/
theorem does_make_torn {m : Making} {fails : Refusal → Prop} {ends : Condition → Place → Prop}
    (sound : m.Sound) (torn : m.Torn) (none : m.condition? = none) (h : fails .tornName) :
    Does text p (make m) fails ends := by
  refine (comes_note (d := .makes m) sound).then ?_
  rw [none]
  exact does_throw (.torn torn) h

end

end Descent

end OpeningHand.Condition
