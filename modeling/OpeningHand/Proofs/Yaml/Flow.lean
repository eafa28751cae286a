import OpeningHand.Proofs.Yaml.Written.Scalars

/-!
# Words before colons, and flow collections

A word before a colon is a key if it is not too long: the place where it starts is forgotten after
1024 characters, and then no value may stand at the colon. In a flow collection (`within`) no block
is opened or closed, so one token leads to the next on the same line, whatever its column.
-/

namespace OpeningHand.Yaml

open Writer (startsWithMark)

namespace Lexer

variable {l m : Lexer} {c d : Cursor} {ts ts' : List Token} {indent flow : Int}
  {outer outer' : List Int} {allowsKey : Bool} {r w : List Char} {ch : Char} {n q : Nat}

/-! ## Words before colons -/

/-- A word and the colon that makes it a key. -/
theorem leads_wordKey (hword : IsWord w) (hmark : startsWithMark w = false)
    (hshort : w.length ≤ maxKeyLength)
    (hopens : Opens q .blockMappingStart indent outer ts outer' ts') (hcolumn : c.column = q)
    (hrest : c.rest = w ++ ':' :: r) (hr : isGapOrEnd (r.headD endMark) = true)
    (h : Continues (inBlock (c.skip w.length).next (.value :: .scalar w true :: .key :: ts') q
      outer' false) m) : Leads (inBlock c ts indent outer true) m := by
  have hle : indent ≤ c.column := hcolumn ▸ hopens.le
  have htakes := takesScalar_word hword hmark (plainEnds_colon hr) hrest hle
  rw [Nat.add_zero] at htakes
  have hskip := Cursor.skip_inline hrest hword.inline
  have hpos : 0 < w.length := List.length_pos_iff.mpr hword.nonempty
  apply leads_simpleKey htakes hopens hcolumn _ _ _ _ (Cursor.rest_of_skip hrest) hr h
  · rw [hskip]
  · rw [hskip]
    exact Nat.add_le_add_left hshort _
  · rw [hskip]
    exact Nat.le_add_right _ _
  · rw [Cursor.rest_of_skip hrest, hrest, List.length_append]
    exact Nat.lt_add_of_pos_left hpos

/-- The place of a word that is too long for a key is forgotten, unless a key must start there. -/
theorem dropStale_far (hindent : indent ≠ c.column) (hfar : maxKeyLength < d.index - c.index) :
    (holding (remembered c ts indent true) d ts' indent outer false).dropStale =
      .ok (inBlock d ts' indent outer false) := by
  apply dropStale_of_stale
  intro p hp
  rw [mem_remembered (show p ∈ remembered c ts indent true from hp)]
  exact ⟨decide_eq_false hindent, Bool.or_eq_true_iff.mpr (.inr (decide_eq_true hfar))⟩

/-- No value may stand at a colon where no key stands before it and none may start. -/
theorem readToken_colon (hle : indent ≤ c.column) (hrest : c.rest = ':' :: r)
    (hr : isGapOrEnd (r.headD endMark) = true) :
    (inBlock c ts indent outer false).readToken = .error badToken := by
  have hstarts : Starts c.rest := by
    rw [hrest]
    exact starts_cons.mpr (by decide)
  have hready := ready_of_starts (l := inBlock c ts indent outer false) hstarts nofun
  rw [unwind_of_le hle] at hready
  rw [readToken_value hready hrest hr]
  rfl

theorem settled_inBlock : (inBlock c ts indent outer allowsKey).settled = ts.reverse := by
  simp [settled, inBlock]

/-- After a word that is too long for a key no value may stand: the place where it started is
forgotten, and none starts at the colon. -/
theorem yields_longWord (hword : IsWord w) (hmark : startsWithMark w = false)
    (hlong : maxKeyLength < w.length) (hindent : indent < c.column)
    (hrest : c.rest = w ++ ':' :: r) (hr : isGapOrEnd (r.headD endMark) = true) :
    Yields (inBlock c ts indent outer true) ⟨(.scalar w true :: ts).reverse, some badToken⟩ := by
  intro l₀ fuel hdone hready hfuel
  obtain ⟨fuel, rfl⟩ := Nat.exists_eq_add_of_le' (show 2 ≤ fuel by omega)
  have htakes := takesScalar_word hword hmark (plainEnds_colon hr) hrest (Int.le_of_lt hindent)
  rw [Nat.add_zero] at htakes
  have hskip := Cursor.skip_inline hrest hword.inline
  generalize c.skip w.length = d at htakes hskip
  have hindex : d.index = c.index + w.length := by rw [hskip]
  have hcolumn : d.column = c.column + w.length := by rw [hskip]
  have hdrop : (holding (remembered c ts indent true) d (.scalar w true :: ts) indent outer
      false).dropStale = .ok (inBlock d (.scalar w true :: ts) indent outer false) := by
    apply dropStale_far (Int.ne_of_lt hindent)
    omega
  have hfault : (inBlock d (.scalar w true :: ts) indent outer false).readToken =
      .error badToken :=
    readToken_colon (by omega) (by rw [hskip]) hr
  rw [readFrom_of_step hdone (bind_eq_ok.mpr ⟨_, htakes ts outer true l₀ hready, hdrop⟩),
    readFrom_succ, hfault]
  exact congrArg (Tokens.mk · _) settled_inBlock

/-! ## Flow collections -/

/-- A lexer in flow collections that remembers no place. -/
def within (flow : Int) (c : Cursor) (ts : List Token) (indent : Int) (outer : List Int)
    (allowsKey : Bool) : Lexer :=
  { inBlock c ts indent outer allowsKey with flow := flow }

theorem inFlow_within (hflow : flow ≠ 0) :
    (within flow c ts indent outer allowsKey).inFlow = true :=
  decide_eq_true hflow

theorem unwind_of_flow (hflow : l.flow ≠ 0) (k : Int) : l.unwind k = l := by
  rw [unwind, inFlow, decide_eq_true hflow]
  rfl

/-- Over spaces to the next token. -/
theorem continues_within (hflow : flow ≠ 0) (hrest : c.rest = List.replicate n ' ' ++ r)
    (hr : Starts r) (h : Leads (within flow (c.skip n) ts indent outer allowsKey) m) :
    Continues (within flow c ts indent outer allowsKey) m := by
  have hmark : c.peek ≠ '\ufeff' := by
    cases n with
    | zero => exact (peek_of_starts hrest hr).2.1
    | succ n =>
      rw [Cursor.peek_of_rest hrest]
      decide
  have hpasses := passes_of_line (l := within flow c ts indent outer allowsKey) (c := c.skip n)
    (a := allowsKey) hmark (fun _ => passBlanks_spaces hrest hr) nofun
  rw [unwind_of_flow hflow] at hpasses
  refine ⟨_, hpasses, ?_, h⟩
  show (c.skip n).rest.length ≤ c.rest.length
  rw [Cursor.rest_skip, List.length_drop]
  exact Nat.sub_le _ _

/-! ### Marks -/

theorem takes_flowEntry (hrest : l.cursor.rest = ',' :: r) (h : l.readFlowEntry = .ok m) :
    Takes l m := by
  intro l₀ hready
  obtain ⟨l₁, hdrop, hl⟩ := bind_eq_ok.mp hready
  cases hl
  rw [cursor_unwind] at hrest
  rw [readToken, hdrop]
  show (if _ then _ else _) = _
  rw [Cursor.peek_of_rest hrest]
  exact h

/-- The start of a collection where no key may stand. -/
theorem leads_flowStart (isMap : Bool) (hrest : c.rest = (flowMarks isMap).1 :: r)
    (h : Continues (within (flow + 1) c.next ((flowTokens isMap).1 :: ts) indent outer true) m) :
    Leads (within flow c ts indent outer false) m :=
  leads_of_continues (takes_flowStart hrest rfl) rfl (Cursor.length_next_lt hrest) h

/-- The end of a collection. -/
theorem leads_flowEnd (isMap : Bool) (hrest : c.rest = (flowMarks isMap).2 :: r)
    (h : Continues (within (flow - 1) c.next ((flowTokens isMap).2 :: ts) indent outer false) m) :
    Leads (within flow c ts indent outer allowsKey) m :=
  leads_of_continues (takes_flowEnd hrest rfl) rfl (Cursor.length_next_lt hrest) h

/-- A comma. -/
theorem leads_flowEntry (hrest : c.rest = ',' :: r)
    (h : Continues (within flow c.next (.flowEntry :: ts) indent outer true) m) :
    Leads (within flow c ts indent outer allowsKey) m :=
  leads_of_continues (takes_flowEntry hrest rfl) rfl (Cursor.length_next_lt hrest) h

/-! ### Words -/

/-- Letters and digits are a chunk, in a flow collection or not. -/
theorem plainChunk_alphanum {inFlow : Bool} (hw : ∀ ch ∈ w, ch.isAlphanum = true)
    (hr : plainChunk inFlow r = []) : plainChunk inFlow (w ++ r) = w := by
  induction w with
  | nil => exact hr
  | cons ch w ih =>
    obtain ⟨hch, hw⟩ := List.forall_mem_cons.mp hw
    have hgap := isSolid_of_isAlphanum hch
    rw [isSolid, Bool.not_eq_true'] at hgap
    have hne {x : Char} (hx : x.isAlphanum = false) : decide (ch = x) = false :=
      decide_eq_false (ne_of_isAlphanum hch hx)
    have hflow : isFlowMark ch = false := by
      rw [isFlowMark, hne rfl, hne rfl, hne rfl, hne rfl, hne rfl]
      rfl
    rw [List.cons_append, plainChunk, hgap, hne (x := ':') rfl, hne (x := '?') rfl, hflow, ih hw]
    cases inFlow <;> rfl

/-- What ends a word in a flow collection: a mark of one, or a colon before a blank. -/
structure EndsWord (r : List Char) : Prop where
  chunk : plainChunk true r = []
  solid : ∀ ch ∈ r.head?, isSolid ch = true

theorem endsWord_mark (hch : isFlowMark ch = true) : EndsWord (ch :: r) where
  chunk := by
    rw [plainChunk, hch, Bool.or_true, Bool.and_self, Bool.or_true]
    rfl
  solid x hx := by
    cases hx
    simp only [isFlowMark, Bool.or_eq_true, decide_eq_true_eq] at hch
    rcases hch with (((rfl | rfl) | rfl) | rfl) | rfl <;> rfl

theorem endsWord_colon (hr : isGapOrEnd (r.headD endMark) = true) : EndsWord (':' :: r) where
  chunk := by
    rw [plainChunk, endsAfterColon, hr]
    rfl
  solid x hx := by
    cases hx
    rfl

theorem plainScalar_within (hne : w ≠ []) (hw : ∀ ch ∈ w, ch.isAlphanum = true) (hr : EndsWord r)
    (hrest : c.rest = w ++ r) : plainScalar true indent c = (w, false, c.skip w.length) := by
  have hpeek : c.peek ≠ '#' := by
    obtain ⟨ch, w, rfl⟩ := List.exists_cons_of_ne_nil hne
    rw [Cursor.peek_of_rest hrest]
    exact ne_of_isAlphanum (hw ch List.mem_cons_self) rfl
  have hchunk : (if c.peek = '#' then [] else plainChunk true c.rest) = w := by
    rw [if_neg hpeek, hrest, plainChunk_alphanum hw hr.chunk]
  have hgap : plainGap (c.skip w.length) = ([], false, c.skip w.length) :=
    plainGap_spaces (s := []) (Cursor.rest_of_skip hrest) (List.forall_mem_nil _) hr.solid
  rw [plainScalar, plainFrom]
  simp only [hchunk, List.isEmpty_eq_false_iff.mpr hne, hgap]
  rfl

/-- A plain scalar starts at a letter or digit. -/
theorem takes_word (hch : ch.isAlphanum = true) (hrest : l.cursor.rest = ch :: r)
    (hread : l.readPlain = .ok m) : Takes l m := by
  intro l₀ hready
  obtain ⟨l₁, hdrop, hl⟩ := bind_eq_ok.mp hready
  cases hl
  have hne {x : Char} (hx : x.isAlphanum = false) : decide (ch = x) = false :=
    decide_eq_false (ne_of_isAlphanum hch hx)
  have hne' {x : Char} (hx : x.isAlphanum = false) : (ch = x) = False :=
    eq_false (ne_of_isAlphanum hch hx)
  have hplain : (l₁.unwind l₁.cursor.column).atPlain = true := by
    have hgap := isSolid_of_isAlphanum hch
    rw [isSolid, Bool.not_eq_true'] at hgap
    have hmarks : ("-?:#&*!|>'\"%@`".toList.contains ch) = false := by
      rw [List.contains_eq_mem, decide_eq_false_iff_not]
      intro hmem
      have hall : "-?:#&*!|>'\"%@`".toList.all (fun x => !x.isAlphanum) = true := by decide
      have hnot := List.all_eq_true.mp hall ch hmem
      rw [hch] at hnot
      cases hnot
    rw [atPlain, Cursor.peek_of_rest hrest, hgap, hmarks, isFlowMark, hne rfl, hne rfl, hne rfl,
      hne rfl, hne rfl]
    rfl
  rw [cursor_unwind] at hrest
  rw [readToken, hdrop]
  show (if _ then _ else _) = _
  rw [Cursor.peek_of_rest hrest]
  simp only [endMark, hne (x := '%') rfl, hne (x := '-') rfl, hne (x := '.') rfl,
    hne (x := '?') rfl, hne (x := ':') rfl, hne (x := '|') rfl, hne (x := '>') rfl,
    hne' (x := '\x00') rfl, hne' (x := '[') rfl, hne' (x := '\x7b') rfl, hne' (x := ']') rfl,
    hne' (x := '\x7d') rfl, hne' (x := ',') rfl, hne' (x := '*') rfl, hne' (x := '&') rfl,
    hne' (x := '!') rfl, hne' (x := '\'') rfl, hne' (x := '"') rfl, Bool.false_and, if_false,
    Bool.false_eq_true, hplain, if_true]
  exact hread

/-- A word where no key may stand. -/
theorem leads_flowWord (hne : w ≠ []) (hw : ∀ ch ∈ w, ch.isAlphanum = true) (hr : EndsWord r)
    (hflow : flow ≠ 0) (hrest : c.rest = w ++ r)
    (h : Continues (within flow (c.skip w.length) (.scalar w true :: ts) indent outer false) m) :
    Leads (within flow c ts indent outer false) m := by
  have hplain : plainScalar (within flow c ts indent outer false).inFlow indent c =
      (w, false, c.skip w.length) := by
    rw [inFlow_within hflow]
    exact plainScalar_within hne hw hr hrest
  have hread := readPlain_of_savePlace (l := within flow c ts indent outer false) rfl hplain
  obtain ⟨ch, w, rfl⟩ := List.exists_cons_of_ne_nil hne
  refine leads_of_continues (takes_word (hw ch List.mem_cons_self) hrest hread) rfl ?_ h
  show (c.skip (ch :: w).length).rest.length < c.rest.length
  rw [Cursor.rest_of_skip hrest, hrest, List.length_append, List.length_cons]
  omega

/-- A lexer after a word that started at `c`, where a key could start. -/
def afterWord (flow : Int) (c d : Cursor) (w : List Char) (ts : List Token) (indent : Int)
    (outer : List Int) : Lexer :=
  { within flow d (.scalar w true :: ts) indent outer false with
    places := [(flow, ⟨ts.length, false, c.index, c.line, c.column⟩)] }

theorem takes_flowKey (hne : w ≠ []) (hw : ∀ ch ∈ w, ch.isAlphanum = true) (hr : EndsWord r)
    (hflow : flow ≠ 0) (hrest : c.rest = w ++ r) :
    Takes (within flow c ts indent outer true)
      (afterWord flow c (c.skip w.length) w ts indent outer) := by
  have hsave : (within flow c ts indent outer true).savePlace =
      .ok { within flow c ts indent outer true with
        places := [(flow, ⟨ts.length, false, c.index, c.line, c.column⟩)] } := by
    rw [savePlace, inFlow_within hflow]
    rfl
  have hplain : plainScalar (within flow c ts indent outer true).inFlow indent c =
      (w, false, c.skip w.length) := by
    rw [inFlow_within hflow]
    exact plainScalar_within hne hw hr hrest
  obtain ⟨ch, w, rfl⟩ := List.exists_cons_of_ne_nil hne
  exact takes_word (hw ch List.mem_cons_self) hrest (readPlain_of_savePlace hsave hplain)

/-- The colon after a word puts the key in before it. -/
theorem readValue_afterWord (hflow : flow ≠ 0) : (afterWord flow c d w ts indent outer).readValue =
    .ok (within flow d.next (.value :: .scalar w true :: .key :: ts) indent outer false) := by
  have hlookup {place : KeyPlace} : [(flow, place)].lookup flow = some place :=
    List.lookup_cons_self
  simp [readValue, afterWord, within, inBlock, hlookup, inFlow, hflow, pushAt, push, goTo]

/-- A word and the colon that makes it a key. -/
theorem leads_flowKey (hne : w ≠ []) (hw : ∀ ch ∈ w, ch.isAlphanum = true)
    (hshort : w.length ≤ maxKeyLength) (hflow : flow ≠ 0) (hrest : c.rest = w ++ ':' :: r)
    (hr : isGapOrEnd (r.headD endMark) = true)
    (h : Continues (within flow (c.skip w.length).next (.value :: .scalar w true :: .key :: ts)
      indent outer false) m) : Leads (within flow c ts indent outer true) m := by
  have hskip := Cursor.skip_inline hrest fun ch hch => isInline_of_isAlphanum (hw ch hch)
  have htakes : Takes (within flow c ts indent outer true)
      (afterWord flow c (c.skip w.length) w ts indent outer) :=
    takes_flowKey hne hw (endsWord_colon hr) hflow hrest
  have hpos : 0 < w.length := List.length_pos_iff.mpr hne
  generalize hd : c.skip w.length = d at htakes h
  have hrest' : d.rest = ':' :: r := by rw [← hd, hskip]
  have hpasses : Passes (afterWord flow c d w ts indent outer)
      (afterWord flow c d w ts indent outer) := by
    have hfresh := passes_fresh (l := afterWord flow c d w ts indent outer)
      (show Starts d.rest by rw [hrest']; exact starts_cons.mpr (by decide)) (by
      intro p hp
      rw [List.mem_singleton.mp hp]
      refine Bool.or_eq_false_iff.mpr ⟨decide_eq_false fun h => h ?_, decide_eq_false ?_⟩
      · show c.line = d.line
        rw [← hd, hskip]
      · show ¬ maxKeyLength < d.index - c.index
        rw [← hd, hskip]
        show ¬ maxKeyLength < c.index + w.length - c.index
        omega)
    rwa [unwind_of_flow hflow] at hfresh
  refine (leads_of_takes htakes rfl hpasses ?_).trans (leads_of_continues
    (takes_value hrest' hr (readValue_afterWord hflow)) rfl (Cursor.length_next_lt hrest') h)
  show d.rest.length < c.rest.length
  rw [hrest', hrest, List.length_append]
  exact Nat.lt_add_of_pos_left hpos

/-- A word as a key, with its colon and a space. -/
theorem leads_flowName (hne : w ≠ []) (hw : ∀ ch ∈ w, ch.isAlphanum = true)
    (hshort : w.length ≤ maxKeyLength) (hrest : c.rest = w ++ ':' :: ' ' :: r) (hr : Starts r) :
    ∃ d, d.rest = r ∧
      ∀ {flow : Int} {ts : List Token} {indent : Int} {outer : List Int} {m : Lexer}, flow ≠ 0 →
        Leads (within flow d (.value :: .scalar w true :: .key :: ts) indent outer false) m →
          Leads (within flow c ts indent outer true) m := by
  have hcolon : (c.skip w.length).next.rest = ' ' :: r := by
    rw [Cursor.rest_next, Cursor.rest_of_skip hrest]
    rfl
  refine ⟨(c.skip w.length).next.skip 1, ?_, ?_⟩
  · rw [Cursor.rest_skip, hcolon]
    rfl
  · intro flow ts indent outer m hflow h
    exact leads_flowKey hne hw hshort hflow hrest rfl (continues_within (n := 1) hflow hcolon hr h)

/-- An empty list where no key may stand. -/
theorem leads_noItems (hrest : c.rest = '[' :: ']' :: r) :
    ∃ d, d.rest = r ∧
      ∀ {flow : Int} {ts : List Token} {indent : Int} {outer : List Int} {m : Lexer}, 0 ≤ flow →
        Continues (within flow d (.flowSequenceEnd :: .flowSequenceStart :: ts) indent outer false)
          m → Leads (within flow c ts indent outer false) m := by
  have hopen : c.next.rest = ']' :: r := by
    rw [Cursor.rest_next, hrest]
    rfl
  refine ⟨c.next.next, ?_, ?_⟩
  · rw [Cursor.rest_next, hopen]
    rfl
  · intro flow ts indent outer m hflow h
    have hflow' : flow + 1 ≠ 0 := by omega
    apply leads_flowStart false hrest
    apply continues_within (n := 0) hflow' hopen (starts_cons.mpr (by decide))
    apply leads_flowEnd false hopen
    rw [Int.add_sub_cancel]
    exact h

end Lexer

end OpeningHand.Yaml
