import OpeningHand.Proofs.Yaml.Written.Taken

/-!
# From token to token in a block

After a scalar or an empty collection comes the next line, where blocks that are indented more are
closed, or a colon, which makes the scalar a key and puts the tokens for that in before it. A place
that was remembered for a key is forgotten on the next line, and no key was required there, since
the scalar did not start at the column of its block.
-/

namespace OpeningHand.Yaml.Lexer

variable {l m : Lexer} {c d : Cursor} {ts ts' : List Token} {indent : Int} {outer outer' : List Int}
  {allowsKey : Bool} {r : List Char} {n q : Nat}

/-- The reading goes on after a token. -/
def Continues (m₀ m : Lexer) : Prop :=
  ∃ l, Passes m₀ l ∧ l.cursor.rest.length ≤ m₀.cursor.rest.length ∧ Leads l m

theorem leads_of_continues {m₀ : Lexer} (htakes : Takes l m₀) (hdone : m₀.isDone = false)
    (hlt : m₀.cursor.rest.length < l.cursor.rest.length) (h : Continues m₀ m) : Leads l m := by
  obtain ⟨l', hpasses, hle, hleads⟩ := h
  exact (leads_of_takes htakes hdone hpasses (Nat.lt_of_le_of_lt hle hlt)).trans hleads

/-- Over a space to the next token. -/
theorem continues_space (hrest : c.rest = ' ' :: r) (hr : Starts r) (hle : indent ≤ c.column + 1)
    (h : Leads (inBlock c.next ts indent outer allowsKey) m) :
    Continues (inBlock c ts indent outer allowsKey) m := by
  refine ⟨_, passes_space hrest hr hle, ?_, h⟩
  show c.next.rest.length ≤ c.rest.length
  rw [Cursor.rest_next, List.length_tail]
  exact Nat.sub_le _ _

/-- Over a newline and spaces to the next token, where blocks that are indented more are closed. -/
theorem continues_line (hrest : c.rest = '\n' :: (List.replicate q ' ' ++ r)) (hr : Starts r) :
    ∃ d, d.rest = r ∧ d.column = q ∧
      ∀ {ts : List Token} {indent : Int} {outer : List Int} {allowsKey : Bool} {m : Lexer},
        Leads ((inBlock d ts indent outer true).unwind q) m →
          Continues (inBlock c ts indent outer allowsKey) m := by
  have hskip : (c.skip (q + 1)).rest = r := by rw [Cursor.skip_newline hrest]
  have hcolumn : (c.skip (q + 1)).column = q := by rw [Cursor.skip_newline hrest]
  refine ⟨c.skip (q + 1), hskip, hcolumn, ?_⟩
  intro ts indent outer allowsKey m h
  obtain ⟨hpasses, -, -⟩ :=
    passes_newline (l := inBlock c ts indent outer allowsKey) rfl hrest hr nofun
  refine ⟨_, hpasses, ?_, h⟩
  rw [cursor_unwind]
  show (c.skip (q + 1)).rest.length ≤ c.rest.length
  rw [hskip, hrest, List.length_cons, List.length_append]
  omega

/-- Over a newline and spaces to the next token, where no block is closed. -/
theorem continues_newline (hrest : c.rest = '\n' :: (List.replicate q ' ' ++ r)) (hr : Starts r) :
    ∃ d, d.rest = r ∧ d.column = q ∧
      ∀ {ts : List Token} {indent : Int} {outer : List Int} {allowsKey : Bool} {m : Lexer},
        indent ≤ q → Leads (inBlock d ts indent outer true) m →
          Continues (inBlock c ts indent outer allowsKey) m := by
  obtain ⟨d, hd, hcolumn, hline⟩ := continues_line hrest hr
  refine ⟨d, hd, hcolumn, ?_⟩
  intro ts indent outer allowsKey m hle h
  apply hline
  rwa [unwind_of_le hle]

/-- A token that ends on its line, and the next line. -/
theorem leads_line {places : List (Int × KeyPlace)} {crossed : Bool}
    (htakes : Takes l (holding places d ts indent outer crossed))
    (hplaces : ∀ p ∈ places, p.2.isRequired = false ∧ p.2.line ≤ d.line)
    (hlt : r.length < l.cursor.rest.length)
    (hrest : d.rest = '\n' :: (List.replicate n ' ' ++ r)) (hr : Starts r) :
    ∃ c, c.rest = r ∧ c.column = n ∧ Leads l ((inBlock c ts indent outer true).unwind n) := by
  obtain ⟨hpasses, hrest', hcolumn⟩ :=
    passes_newline (l := holding places d ts indent outer crossed) rfl hrest hr hplaces
  have hskip : (d.skip (n + 1)).rest = r := hrest'
  refine ⟨d.skip (n + 1), hskip, hcolumn, leads_of_takes htakes rfl hpasses ?_⟩
  rw [cursor_unwind]
  show (d.skip (n + 1)).rest.length < l.cursor.rest.length
  rw [hskip]
  exact hlt

theorem notRequired_remembered (hcolumn : indent ≠ c.column) :
    ∀ p ∈ remembered c ts indent allowsKey, p.2.isRequired = false ∧ p.2.line = c.line :=
  fun p hp => by
    rw [mem_remembered hp]
    exact ⟨decide_eq_false hcolumn, rfl⟩

/-- A scalar that ends on its line, and the next line. -/
theorem leads_scalar_line {t : Token} {crossed : Bool} (htakes : TakesScalar c d t indent crossed)
    (hcolumn : indent ≠ c.column) (hline : c.line ≤ d.line) (hlt : r.length < c.rest.length)
    (hrest : d.rest = '\n' :: (List.replicate n ' ' ++ r)) (hr : Starts r) :
    ∃ c', c'.rest = r ∧ c'.column = n ∧ Leads (inBlock c ts indent outer allowsKey)
      ((inBlock c' (t :: ts) indent outer true).unwind n) :=
  leads_line (htakes ts outer allowsKey) (fun p hp => by
    obtain ⟨hrequired, hsame⟩ := notRequired_remembered hcolumn p hp
    exact ⟨hrequired, hsame ▸ hline⟩) hlt hrest hr

/-- A scalar that ends where the next line starts. -/
theorem leads_scalar_crossed {t : Token} (htakes : TakesScalar c d t indent true)
    (hcolumn : indent ≠ c.column) (hline : c.line < d.line) (hlt : d.rest.length < c.rest.length)
    (hr : Starts d.rest) :
    Leads (inBlock c ts indent outer allowsKey)
      ((inBlock d (t :: ts) indent outer true).unwind d.column) := by
  have hplaces : ∀ p ∈ remembered c ts indent allowsKey,
      p.2.isRequired = false ∧ p.2.line ≠ d.line := fun p hp => by
    obtain ⟨hrequired, hsame⟩ := notRequired_remembered hcolumn p hp
    exact ⟨hrequired, hsame ▸ Nat.ne_of_lt hline⟩
  have hpasses := passes_here
    (l := holding (remembered c ts indent allowsKey) d (t :: ts) indent outer true) hr hplaces
  refine leads_of_takes (htakes ts outer allowsKey) rfl hpasses ?_
  rw [cursor_unwind]
  exact hlt

/-- The token of a key is put in before the scalar that it starts with, and the block before it. -/
theorem openBlock_pushKey {t : Token}
    (hopens : Opens q .blockMappingStart indent outer ts outer' ts') :
    ((inBlock d (t :: ts) indent outer false).pushAt ts.length .key).openBlock q ts.length
      .blockMappingStart = inBlock d (t :: .key :: ts') q outer' false := by
  have hpush : (inBlock d (t :: ts) indent outer false).pushAt ts.length .key =
      inBlock d (t :: .key :: ts) indent outer false := by
    simp [pushAt, inBlock]
  rw [hpush, openBlock]
  cases hopens with
  | here => rw [if_neg (show ¬ (inBlock d (t :: .key :: ts) q outer false).indent < q from
      Int.lt_irrefl _)]
  | new _ _ h =>
    have hlater : ts.length + 2 - ts.length = 2 := by omega
    rw [if_pos (show (inBlock d (t :: .key :: ts) indent outer false).indent < q from h)]
    simp [pushAt, inBlock, hlater]

/-- A scalar and the colon that makes it a key. -/
theorem leads_simpleKey {t : Token} (htakes : TakesScalar c d t indent false)
    (hopens : Opens q .blockMappingStart indent outer ts outer' ts') (hcolumn : c.column = q)
    (hline : d.line = c.line) (hindex : d.index ≤ c.index + maxKeyLength)
    (hcolumn' : c.column ≤ d.column) (hlt : d.rest.length < c.rest.length)
    (hrest : d.rest = ':' :: r) (hr : isGapOrEnd (r.headD endMark) = true)
    (h : Continues (inBlock d.next (.value :: t :: .key :: ts') q outer' false) m) :
    Leads (inBlock c ts indent outer true) m := by
  have hstarts : Starts d.rest := by
    rw [hrest]
    exact starts_cons.mpr (by decide)
  have hplaces : ∀ p ∈ remembered c ts indent true,
      (holding (remembered c ts indent true) d (t :: ts) indent outer false).isStale p.2 = false := fun p hp => by
    rw [mem_remembered hp]
    have hnear : ¬ maxKeyLength < d.index - c.index := by omega
    have hsame : ¬ c.line ≠ d.line := fun h => h hline.symm
    exact (Bool.or_eq_false_iff.mpr ⟨decide_eq_false hsame, decide_eq_false hnear⟩)
  have hpasses := passes_fresh
    (l := holding (remembered c ts indent true) d (t :: ts) indent outer false) hstarts hplaces
  have hle : indent ≤ d.column := by
    have := hopens.le
    omega
  rw [unwind_of_le hle] at hpasses
  refine (leads_of_takes (htakes ts outer true) rfl hpasses hlt).trans ?_
  refine leads_of_continues (takes_value hrest hr ?_) rfl ?_ h
  · have hread : (holding (remembered c ts indent true) d (t :: ts) indent outer
        false).readValue =
        .ok { ((((inBlock d (t :: ts) indent outer false).pushAt ts.length .key).openBlock c.column
          ts.length .blockMappingStart).push .value).goTo ((((inBlock d (t :: ts) indent outer
            false).pushAt ts.length .key).openBlock c.column ts.length
              .blockMappingStart).cursor.next) with allowsKey := false } := rfl
    rw [hread, hcolumn, openBlock_pushKey hopens]
    rfl
  · exact Cursor.length_next_lt hrest

/-- A lexer between the marks of an empty collection. -/
def inEmpty (isMap : Bool) (places : List (Int × KeyPlace)) (c : Cursor) (ts : List Token)
    (indent : Int) (outer : List Int) : Lexer :=
  { inBlock c ((flowTokens isMap).1 :: ts) indent outer true with flow := 1, places := places }

theorem takes_opening {isMap : Bool} (hrest : c.rest = (flowMarks isMap).1 :: r) :
    Takes (inBlock c ts indent outer allowsKey)
      (inEmpty isMap (remembered c ts indent allowsKey) c.next ts indent outer) :=
  takes_flowStart hrest (bind_eq_ok.mpr ⟨_, savePlace_inBlock, rfl⟩)

theorem takes_closing {isMap : Bool} {places : List (Int × KeyPlace)}
    (hrest : c.rest = (flowMarks isMap).2 :: r) (hplaces : places.lookup 1 = none) :
    Takes (inEmpty isMap places c ts indent outer) (holding places c.next
      ((flowTokens isMap).2 :: (flowTokens isMap).1 :: ts) indent outer false) := by
  refine takes_flowEnd hrest (bind_eq_ok.mpr ⟨inEmpty isMap places c ts indent outer, ?_, rfl⟩)
  have hnone : (inEmpty isMap places c ts indent outer).places.lookup
      (inEmpty isMap places c ts indent outer).flow = none := hplaces
  rw [dropPlace, hnone]

/-- An empty collection and the next line. -/
theorem leads_empty {isMap : Bool} (hcolumn : indent ≠ c.column) (hrest : c.rest =
      (flowMarks isMap).1 :: (flowMarks isMap).2 :: '\n' :: (List.replicate n ' ' ++ r))
    (hr : Starts r) : ∃ c', c'.rest = r ∧ c'.column = n ∧
      Leads (inBlock c ts indent outer allowsKey) ((inBlock c'
        ((flowTokens isMap).2 :: (flowTokens isMap).1 :: ts) indent outer true).unwind n) := by
  have hinline : isInline (flowMarks isMap).1 = true ∧ isInline (flowMarks isMap).2 = true := by
    cases isMap <;> decide
  have hstarts : Starts ((flowMarks isMap).2 :: '\n' :: (List.replicate n ' ' ++ r)) := by
    cases isMap <;> exact starts_cons.mpr (by decide)
  have hnext := Cursor.next_inline hrest hinline.1
  have hrest' : c.next.rest = (flowMarks isMap).2 :: '\n' :: (List.replicate n ' ' ++ r) := by
    rw [hnext]
  have hnext' := Cursor.next_inline hrest' hinline.2
  have hline : c.next.line = c.line := by rw [hnext]
  have hline' : c.next.next.line = c.line := by rw [hnext', hline]
  have hpasses : Passes (inEmpty isMap (remembered c ts indent allowsKey) c.next ts indent outer)
      (inEmpty isMap (remembered c ts indent allowsKey) c.next ts indent outer) := by
    refine passes_fresh (by rw [← hrest'] at hstarts; exact hstarts) fun p hp => ?_
    rw [mem_remembered hp]
    have hnear : ¬ maxKeyLength < c.next.index - c.index := by
      rw [Cursor.index_next hrest, maxKeyLength]
      omega
    exact Bool.or_eq_false_iff.mpr
      ⟨decide_eq_false fun h => h hline.symm, decide_eq_false hnear⟩
  have hclose : Takes (inEmpty isMap (remembered c ts indent allowsKey) c.next ts indent outer)
      (holding (remembered c ts indent allowsKey) c.next.next
        ((flowTokens isMap).2 :: (flowTokens isMap).1 :: ts) indent outer false) :=
    takes_closing hrest' (by cases allowsKey <;> rfl)
  obtain ⟨c', hc', hcolumn', hleads⟩ := leads_line hclose (fun p hp => by
    obtain ⟨hrequired, hsame⟩ := notRequired_remembered hcolumn p hp
    exact ⟨hrequired, Nat.le_of_eq (hsame.trans hline'.symm)⟩) (by
      show r.length < c.next.rest.length
      rw [hrest', List.length_cons, List.length_cons, List.length_append]
      omega) (by rw [hnext']) hr
  refine ⟨c', hc', hcolumn', (leads_of_takes (takes_opening hrest) rfl hpasses ?_).trans hleads⟩
  exact Cursor.length_next_lt hrest

/-- The end of the text closes the block of the document. -/
theorem yields_end (hrest : c.rest = []) :
    Yields (inBlock c ts 0 [-1] allowsKey) ⟨(.streamEnd :: .blockEnd :: ts).reverse, none⟩ :=
  yields_of_end (m := ⟨c, .streamEnd :: .blockEnd :: ts, ts.length + 2, -1, [], 0, false, [], true⟩)
    (takes_end hrest rfl) rfl rfl

end OpeningHand.Yaml.Lexer
