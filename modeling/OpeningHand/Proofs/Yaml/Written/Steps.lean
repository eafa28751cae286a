import OpeningHand.Proofs.Result
import OpeningHand.Proofs.Yaml.TokenFault
import OpeningHand.Proofs.Yaml.Written.Walk

/-!
# Reading on, token by token

Between two tokens the lexer passes blanks, forgets places where no key started, and closes blocks.
A lexer that has done so is at its next token; `Leads` says of two of these that the reading goes on
from one to the other, so whatever is read from the second is read from the first. The laws here
are about written blocks: most of the time no flow collection is open and no place is remembered
(`inBlock`).
-/

namespace OpeningHand.Yaml.Lexer

variable {l m : Lexer} {c c' : Cursor} {ts : List Token} {indent k : Int} {outer : List Int}
  {allowsKey : Bool} {r : List Char} {ch : Char} {n q : Nat}

/-- The lexer at its next token. -/
def ready (l : Lexer) : Except Failure Lexer := do
  let c := if l.cursor.index = 0 && l.cursor.peek = '\ufeff' then l.cursor.next else l.cursor
  let l ← ((l.goTo c).passBlanks (l.cursor.rest.length + 1)).dropStale
  return l.unwind l.cursor.column

/-- At the token where `l` stands the token is taken, which leaves `m`. -/
def Takes (l m : Lexer) : Prop :=
  ∀ l₀ : Lexer, l₀.ready = .ok l → l₀.readToken = .ok m

/-- After a token, `m` comes to its next token as `l`. -/
def Passes (m l : Lexer) : Prop :=
  (m.dropStale >>= ready) = .ok l

/-- From the token where `l` stands, all that is read is `ts`. -/
def Yields (l : Lexer) (ts : Tokens) : Prop :=
  ∀ (l₀ : Lexer) (fuel : Nat), l₀.isDone = false → l₀.ready = .ok l →
    l.cursor.rest.length + 1 < fuel → Tokens.readFrom l₀ fuel = ts

/-- The reading goes on from the token where `l` stands to that where `m` stands. -/
def Leads (l m : Lexer) : Prop := ∀ ts, Yields m ts → Yields l ts

theorem Leads.refl (l : Lexer) : Leads l l := fun _ h => h

/-- So a reading goes on from token to token. -/
theorem Leads.trans {l' : Lexer} (h : Leads l m) (h' : Leads m l') : Leads l l' :=
  fun ts hts => h ts (h' ts hts)

/-- Dropping places does not end the text. -/
theorem isDone_of_dropStale (h : l.dropStale = .ok m) : m.isDone = l.isDone := by
  rw [dropStale] at h
  split at h
  · cases h
  · cases h
    rfl

/-- A step that succeeds leads on with one unit of fuel less. -/
theorem readFrom_of_step {fuel : Nat} (hdone : l.isDone = false)
    (hstep : (l.readToken >>= dropStale) = .ok m) :
    Tokens.readFrom l (fuel + 1) = Tokens.readFrom m fuel := by
  rw [readFrom_succ, hdone, if_neg Bool.false_ne_true, hstep]

/-- One token is taken. -/
theorem leads_of_takes {m₀ : Lexer} (htakes : Takes l m₀) (hdone : m₀.isDone = false)
    (hpasses : Passes m₀ m) (hlt : m.cursor.rest.length < l.cursor.rest.length) : Leads l m := by
  intro ts hm l₀ fuel hdone₀ hready hfuel
  obtain ⟨fuel, rfl⟩ := Nat.exists_eq_succ_of_ne_zero (Nat.ne_of_gt (Nat.zero_lt_of_lt hfuel))
  obtain ⟨m₁, hdrop, hready₁⟩ := bind_eq_ok.mp hpasses
  have hstep : (l₀.readToken >>= dropStale) = .ok m₁ := by
    rw [htakes l₀ hready]
    exact hdrop
  rw [readFrom_of_step hdone₀ hstep]
  exact hm m₁ fuel ((isDone_of_dropStale hdrop).trans hdone) hready₁ (by omega)

/-- At the end of the text there is one token more. -/
theorem yields_of_end (htakes : Takes l m) (hdone : m.isDone = true) (hplaces : m.places = []) :
    Yields l ⟨m.tokens.reverse, none⟩ := by
  intro l₀ fuel hdone₀ hready hfuel
  obtain ⟨fuel, rfl⟩ := Nat.exists_eq_add_of_le' (show 2 ≤ fuel by omega)
  have hdrop : m.dropStale = .ok m := by
    rw [dropStale, hplaces]
    cases m
    cases hplaces
    rfl
  have hstep : (l₀.readToken >>= dropStale) = .ok m := by
    rw [htakes l₀ hready]
    exact hdrop
  rw [readFrom_of_step hdone₀ hstep, readFrom_succ, hdone, if_pos rfl]

/-! ## Lexers in blocks -/

/-- A lexer in no flow collection that remembers no place. -/
def inBlock (c : Cursor) (ts : List Token) (indent : Int) (outer : List Int) (allowsKey : Bool) :
    Lexer :=
  ⟨c, ts, ts.length, indent, outer, 0, allowsKey, [], false⟩

/-- Which blocks are open is told to the closing of blocks on its own. -/
theorem closeBlocks_outer (k : Int) (l : Lexer) (open' outer : List Int) :
    closeBlocks k { l with outer := open' } outer = closeBlocks k l outer := by
  induction outer generalizing l with
  | nil => rfl
  | cons indent outer ih =>
    rw [closeBlocks, closeBlocks]
    split
    · exact ih { l.push .blockEnd with indent := indent }
    · rfl

/-- Blocks that are indented no more than `k` stay open. -/
theorem unwind_of_le (hle : l.indent ≤ k) : l.unwind k = l := by
  rw [unwind]
  split
  · rfl
  · cases l with
    | mk cursor tokens count indent outer flow allowsKey places isDone =>
      cases outer with
      | nil => rfl
      | cons indent' outer =>
        rw [closeBlocks, if_neg (Int.not_lt.mpr hle)]

theorem unwind_self : (inBlock c ts k outer allowsKey).unwind k = inBlock c ts k outer allowsKey :=
  unwind_of_le (Int.le_refl _)

/-- A block that is indented more than `k` is closed. -/
theorem unwind_of_lt {indent' : Int} (hlt : k < indent) :
    (inBlock c ts indent (indent' :: outer) allowsKey).unwind k =
      (inBlock c (.blockEnd :: ts) indent' outer allowsKey).unwind k := by
  show closeBlocks k (inBlock c ts indent (indent' :: outer) allowsKey) (indent' :: outer) =
    closeBlocks k (inBlock c (.blockEnd :: ts) indent' outer allowsKey) outer
  rw [closeBlocks, if_pos (show k < (inBlock c ts indent (indent' :: outer) allowsKey).indent from hlt)]
  exact closeBlocks_outer k (inBlock c (.blockEnd :: ts) indent' outer allowsKey) _ outer

/-- Where a block starts that may be open already. -/
inductive Opens (q : Nat) (t : Token) : Int → List Int → List Token → List Int → List Token → Prop
  | here (outer : List Int) (ts : List Token) : Opens q t q outer ts outer ts
  | new {indent : Int} (outer : List Int) (ts : List Token) (h : indent < q) :
      Opens q t indent outer ts (indent :: outer) (t :: ts)

/-- A block is opened at its own indent or a deeper one. -/
theorem Opens.le {t : Token} {outer' : List Int} {ts' : List Token}
    (h : Opens q t indent outer ts outer' ts') : indent ≤ q := by
  cases h with
  | here => exact Int.le_refl _
  | new _ _ h => exact Int.le_of_lt h

/-- Opening a block at a column comes to what `Opens` says of it. -/
theorem openBlock_of_opens {t : Token} {outer' : List Int} {ts' : List Token}
    (h : Opens q t indent outer ts outer' ts') :
    (inBlock c ts indent outer allowsKey).openBlock q ts.length t =
      inBlock c ts' q outer' allowsKey := by
  rw [openBlock]
  cases h with
  | here => rw [if_neg (show ¬ (inBlock c ts q outer allowsKey).indent < q from Int.lt_irrefl _)]
  | new _ _ h =>
    rw [if_pos (show (inBlock c ts indent outer allowsKey).indent < q from h), pushAt]
    simp only [inBlock, Nat.sub_self, List.take_zero, List.drop_zero, List.nil_append,
      List.length_cons]

/-! ## Between tokens -/

/-- The cursor stands where a token may start. -/
theorem peek_of_starts (hrest : c.rest = r) (hr : Starts r) :
    c.peek ≠ '#' ∧ c.peek ≠ '\ufeff' ∧ isBreak c.peek = false := by
  cases r with
  | nil =>
    rw [Cursor.peek_of_end hrest]
    decide
  | cons ch r =>
    rw [Cursor.peek_of_rest hrest]
    obtain ⟨hgap, hcomment, hmark⟩ := starts_cons.mp hr
    rw [isGapOrEnd, isSpaceOrEnd, isLineEnd] at hgap
    simp only [Bool.or_eq_false_iff] at hgap
    exact ⟨hcomment, hmark, hgap.2.2.2⟩

/-- Spaces are skipped, and no comment follows them. -/
theorem skipBlanks_eq (hrest : c.rest = List.replicate n ' ' ++ r) (hr : Starts r) :
    c.skipSpaces.skipComment = c.skip n := by
  have hspaces : c.skipSpaces = c.skip n := by
    have h := Cursor.skipWhile_eq (p := (· = ' ')) hrest
      (fun x hx => by simp [List.eq_of_mem_replicate hx]) fun x hx => by
        obtain ⟨hgap, -⟩ := hr x hx
        refine decide_eq_false ?_
        rintro rfl
        cases hgap
    rwa [List.length_replicate] at h
  have hend : (c.skip n).rest = r := by
    have h := Cursor.rest_of_skip hrest
    rwa [List.length_replicate] at h
  rw [hspaces, Cursor.skipComment, if_neg (peek_of_starts hend hr).1]

theorem passBlanks_spaces {fuel : Nat} (hrest : l.cursor.rest = List.replicate n ' ' ++ r)
    (hr : Starts r) : l.passBlanks (fuel + 1) = l.goTo (l.cursor.skip n) := by
  have hend : (l.cursor.skip n).rest = r := by
    have h := Cursor.rest_of_skip hrest
    rwa [List.length_replicate] at h
  rw [passBlanks]
  simp only [skipBlanks_eq hrest hr, (peek_of_starts hend hr).2.2, Bool.false_eq_true, if_false]

/-- A newline and the spaces after it are passed over, and a key may come next. -/
theorem passBlanks_newline {fuel : Nat} (hflow : l.flow = 0)
    (hrest : l.cursor.rest = '\n' :: (List.replicate n ' ' ++ r)) (hr : Starts r) :
    l.passBlanks (fuel + 2) = { l with cursor := l.cursor.skip (n + 1), allowsKey := true } := by
  have hblanks : l.cursor.skipSpaces.skipComment = l.cursor := by
    have hspaces : l.cursor.skipSpaces = l.cursor := by
      rw [Cursor.skipSpaces, Cursor.skipWhile, Cursor.run_nil fun x hx => ?_]
      rw [hrest] at hx
      cases hx
      rfl
    rw [hspaces, Cursor.skipComment, Cursor.peek_of_rest hrest, if_neg (by decide)]
  have hnext : l.cursor.next.rest = List.replicate n ' ' ++ r := by
    rw [Cursor.rest_next, hrest]
    rfl
  have hbreak : isBreak '\n' = true := rfl
  rw [passBlanks]
  simp only [hblanks, Cursor.peek_of_rest hrest, hbreak, if_true, Cursor.lineBreak_newline hrest]
  rw [passBlanks_spaces hnext hr]
  simp only [goTo, inFlow, hflow, Cursor.skip, ne_eq, not_true, decide_false, Bool.not_false,
    Bool.or_true]

/-- A place that can no longer be a key is forgotten if no key has to start at it. -/
theorem dropStale_of_stale (hplaces : ∀ p ∈ l.places, p.2.isRequired = false ∧
    l.isStale p.2 = true) : l.dropStale = .ok { l with places := [] } := by
  have hany : (l.places.any fun p => l.isStale p.2 && p.2.isRequired) = false := by
    refine List.any_eq_false.mpr fun p hp => ?_
    rw [(hplaces p hp).1, Bool.and_false]
    exact Bool.false_ne_true
  have hfilter : (l.places.filter fun p => !l.isStale p.2) = [] := by
    refine List.filter_eq_nil_iff.mpr fun p hp => ?_
    rw [(hplaces p hp).2]
    exact Bool.false_ne_true
  rw [dropStale, hany, hfilter]
  rfl

/-- On another line no place can be a key. -/
theorem dropStale_of_line (hplaces : ∀ p ∈ l.places, p.2.isRequired = false ∧
    p.2.line ≠ l.cursor.line) : l.dropStale = .ok { l with places := [] } := by
  apply dropStale_of_stale
  intro p hp
  refine ⟨(hplaces p hp).1, ?_⟩
  rw [isStale, decide_eq_true (hplaces p hp).2]
  rfl

/-- A place that may still be a key is kept. -/
theorem dropStale_of_fresh (hplaces : ∀ p ∈ l.places, l.isStale p.2 = false) :
    l.dropStale = .ok l := by
  have hany : (l.places.any fun p => l.isStale p.2 && p.2.isRequired) = false := by
    refine List.any_eq_false.mpr fun p hp => ?_
    rw [hplaces p hp, Bool.false_and]
    exact Bool.false_ne_true
  have hfilter : (l.places.filter fun p => !l.isStale p.2) = l.places := by
    refine List.filter_eq_self.mpr fun p hp => ?_
    rw [hplaces p hp]
    rfl
  rw [dropStale, hany, hfilter]
  rfl

/-- Past blanks, where the places so far are on an earlier line. -/
theorem passes_of_line {a : Bool} (hmark : l.cursor.peek ≠ '\ufeff')
    (hpass : ∀ ps, ({ l with places := ps } : Lexer).passBlanks (l.cursor.rest.length + 1) =
      { l with cursor := c, allowsKey := a, places := ps })
    (hplaces : ∀ p ∈ l.places, p.2.isRequired = false ∧ p.2.line ≠ c.line) :
    Passes l (({ l with cursor := c, allowsKey := a, places := [] } : Lexer).unwind c.column) := by
  have hany : (l.places.any fun p => l.isStale p.2 && p.2.isRequired) = false := by
    refine List.any_eq_false.mpr fun p hp => ?_
    rw [(hplaces p hp).1, Bool.and_false]
    exact Bool.false_ne_true
  have hdrop : l.dropStale = .ok { l with places := l.places.filter fun p => !l.isStale p.2 } := by
    rw [dropStale, hany]
    rfl
  refine bind_eq_ok.mpr ⟨_, hdrop, ?_⟩
  rw [ready]
  simp only [goTo, decide_eq_false hmark, Bool.and_false, Bool.false_eq_true, if_false, hpass]
  rw [dropStale_of_line fun p hp => hplaces p (List.mem_filter.mp hp).1]
  rfl

/-- On a new line the places of keys on the line before are stale, and deeper blocks are closed. -/
theorem passes_newline (hflow : l.flow = 0)
    (hrest : l.cursor.rest = '\n' :: (List.replicate n ' ' ++ r)) (hr : Starts r)
    (hplaces : ∀ p ∈ l.places, p.2.isRequired = false ∧ p.2.line ≤ l.cursor.line) :
    Passes l (({ l with cursor := l.cursor.skip (n + 1), allowsKey := true, places := [] } :
      Lexer).unwind n) ∧ (l.cursor.skip (n + 1)).rest = r ∧ (l.cursor.skip (n + 1)).column = n := by
  have hskip := Cursor.skip_newline hrest
  obtain ⟨fuel, hfuel⟩ : ∃ fuel, l.cursor.rest.length + 1 = fuel + 2 :=
    ⟨_, by rw [hrest, List.length_cons]⟩
  have h : Passes l (({ l with cursor := l.cursor.skip (n + 1), allowsKey := true, places := [] } :
      Lexer).unwind (l.cursor.skip (n + 1)).column) := by
    refine passes_of_line ?_ (fun ps => ?_) fun p hp => ⟨(hplaces p hp).1, ?_⟩
    · rw [Cursor.peek_of_rest hrest]
      decide
    · rw [hfuel]
      exact passBlanks_newline hflow hrest hr
    · rw [hskip]
      exact Nat.ne_of_lt (Nat.lt_succ_of_le (hplaces p hp).2)
  rw [hskip] at h ⊢
  exact ⟨h, rfl, rfl⟩

/-- Right at a token nothing is passed over. -/
theorem passes_here (hr : Starts l.cursor.rest)
    (hplaces : ∀ p ∈ l.places, p.2.isRequired = false ∧ p.2.line ≠ l.cursor.line) :
    Passes l (({ l with places := [] } : Lexer).unwind l.cursor.column) :=
  passes_of_line (peek_of_starts rfl hr).2.1 (fun _ => passBlanks_spaces (n := 0) rfl hr) hplaces

/-- A space before a token is passed over within its line. -/
theorem passes_space (hrest : c.rest = ' ' :: r) (hr : Starts r) (hle : indent ≤ c.column + 1) :
    Passes (inBlock c ts indent outer allowsKey) (inBlock c.next ts indent outer allowsKey) := by
  have hpass (ps : List (Int × KeyPlace)) :
      ({ inBlock c ts indent outer allowsKey with places := ps } : Lexer).passBlanks
        (c.rest.length + 1) = { inBlock c ts indent outer allowsKey with
          cursor := c.next, allowsKey := allowsKey, places := ps } :=
    passBlanks_spaces (n := 1) hrest hr
  have hnext : c.next.column = c.column + 1 := by rw [Cursor.next_inline hrest rfl]
  have h := passes_of_line (l := inBlock c ts indent outer allowsKey)
    (by rw [inBlock, Cursor.peek_of_rest hrest]; decide) hpass nofun
  rw [unwind_of_le (by rw [hnext]; exact hle)] at h
  exact h

/-- Right before the next token, with places that may still be keys. -/
theorem ready_of_starts (hr : Starts l.cursor.rest)
    (hplaces : ∀ p ∈ l.places, l.isStale p.2 = false) :
    l.ready = .ok (l.unwind l.cursor.column) := by
  have hmark := (peek_of_starts rfl hr).2.1
  have hpass : l.passBlanks (l.cursor.rest.length + 1) = l :=
    passBlanks_spaces (n := 0) rfl hr
  have hgo : l.goTo l.cursor = l := rfl
  rw [ready]
  simp only [decide_eq_false hmark, Bool.and_false, Bool.false_eq_true, if_false, hgo, hpass,
    dropStale_of_fresh hplaces]
  rfl

theorem passes_fresh (hr : Starts l.cursor.rest) (hplaces : ∀ p ∈ l.places, l.isStale p.2 = false) :
    Passes l (l.unwind l.cursor.column) :=
  bind_eq_ok.mpr ⟨l, dropStale_of_fresh hplaces, ready_of_starts hr hplaces⟩

/-- The tokens of a text are those read from its start, where no block is open. -/
theorem ofText_of_yields {cs : List Char} {tokens : Tokens} (hstarts : Starts cs)
    (h : Yields (inBlock (.start cs) [] (-1) [] true) tokens) : Tokens.ofText cs = tokens := by
  have hready := ready_of_starts (l := Lexer.start cs) hstarts nofun
  rw [unwind_of_le (show (-1 : Int) ≤ (0 : Nat) by decide)] at hready
  exact h _ _ rfl hready (Nat.lt_succ_self _)

end OpeningHand.Yaml.Lexer
