import OpeningHand.Proofs.Yaml.Written.Steps
import OpeningHand.Proofs.Yaml.Written.Plain

/-!
# Taking one token

Which token is taken by what stands at the cursor, and what a lexer in a block is left as. A mark of
a block opens the block if none is open at its column; a scalar is remembered as a place where a key
could start, if a key may start there.
-/

namespace OpeningHand.Yaml.Lexer

variable {l m : Lexer} {c d : Cursor} {ts ts' : List Token} {indent : Int} {outer outer' : List Int}
  {allowsKey : Bool} {r : List Char} {ch : Char} {n q : Nat}

/-! ## The token at the cursor -/

theorem takes_blockEntry (hrest : l.cursor.rest = '-' :: ' ' :: r)
    (h : l.readBlockEntry = .ok m) : Takes l m := by
  intro l₀ hready
  obtain ⟨l₁, hdrop, hl⟩ := bind_eq_ok.mp hready
  cases hl
  rw [cursor_unwind] at hrest
  have hseparator : l₁.cursor.atSeparator = false := by rw [Cursor.atSeparator, hrest]; rfl
  rw [readToken, hdrop]
  show (if _ then _ else _) = _
  rw [Cursor.peek_of_rest hrest, Cursor.peekAt_one hrest, hseparator, Bool.and_false]
  exact h

theorem takes_key (hrest : l.cursor.rest = '?' :: ' ' :: r) (h : l.readKey = .ok m) :
    Takes l m := by
  intro l₀ hready
  obtain ⟨l₁, hdrop, hl⟩ := bind_eq_ok.mp hready
  cases hl
  rw [cursor_unwind] at hrest
  rw [readToken, hdrop]
  show (if _ then _ else _) = _
  rw [Cursor.peek_of_rest hrest, Cursor.peekAt_one hrest, List.headD_cons,
    show isGapOrEnd ' ' = true from rfl, Bool.or_true]
  exact h

/-- At a colon before a blank a value is read, whether it may stand there or not. -/
theorem readToken_value {l₀ : Lexer} (hready : l₀.ready = .ok l) (hrest : l.cursor.rest = ':' :: r)
    (hr : isGapOrEnd (r.headD endMark) = true) : l₀.readToken = l.readValue := by
  obtain ⟨l₁, hdrop, hl⟩ := bind_eq_ok.mp hready
  cases hl
  rw [cursor_unwind] at hrest
  rw [readToken, hdrop]
  show (if _ then _ else _) = _
  rw [Cursor.peek_of_rest hrest, Cursor.peekAt_one hrest, hr, Bool.or_true]
  rfl

theorem takes_value (hrest : l.cursor.rest = ':' :: r) (hr : isGapOrEnd (r.headD endMark) = true)
    (h : l.readValue = .ok m) : Takes l m :=
  fun _ hready => (readToken_value hready hrest hr).trans h

/-- The marks of an empty collection. -/
def flowMarks (isMap : Bool) : Char × Char := if isMap then ('\x7b', '\x7d') else ('[', ']')

/-- The tokens of an empty collection. -/
def flowTokens (isMap : Bool) : Token × Token :=
  if isMap then (.flowMappingStart, .flowMappingEnd) else (.flowSequenceStart, .flowSequenceEnd)

theorem takes_flowStart {isMap : Bool} (hrest : l.cursor.rest = (flowMarks isMap).1 :: r)
    (h : l.readFlowStart (flowTokens isMap).1 = .ok m) : Takes l m := by
  intro l₀ hready
  obtain ⟨l₁, hdrop, hl⟩ := bind_eq_ok.mp hready
  cases hl
  rw [cursor_unwind] at hrest
  rw [readToken, hdrop]
  show (if _ then _ else _) = _
  rw [Cursor.peek_of_rest hrest]
  cases isMap <;> exact h

theorem takes_flowEnd {isMap : Bool} (hrest : l.cursor.rest = (flowMarks isMap).2 :: r)
    (h : l.readFlowEnd (flowTokens isMap).2 = .ok m) : Takes l m := by
  intro l₀ hready
  obtain ⟨l₁, hdrop, hl⟩ := bind_eq_ok.mp hready
  cases hl
  rw [cursor_unwind] at hrest
  rw [readToken, hdrop]
  show (if _ then _ else _) = _
  rw [Cursor.peek_of_rest hrest]
  cases isMap <;> exact h

theorem takes_quoted {isDouble : Bool} (hrest : l.cursor.rest = quoteMark isDouble :: r)
    (h : l.readMark (readQuoted isDouble) = .ok m) : Takes l m := by
  intro l₀ hready
  obtain ⟨l₁, hdrop, hl⟩ := bind_eq_ok.mp hready
  cases hl
  rw [cursor_unwind] at hrest
  rw [readToken, hdrop]
  show (if _ then _ else _) = _
  rw [Cursor.peek_of_rest hrest]
  cases isDouble <;> exact h

theorem takes_end (hrest : l.cursor.rest = []) (h : l.readEnd = .ok m) : Takes l m := by
  intro l₀ hready
  obtain ⟨l₁, hdrop, hl⟩ := bind_eq_ok.mp hready
  cases hl
  rw [cursor_unwind] at hrest
  rw [readToken, hdrop]
  show (if _ then _ else _) = _
  rw [Cursor.peek_of_end hrest]
  exact h

/-! ## Plain scalars -/

/-- A plain scalar may start with `ch` before `r`: the character is no mark, and if it is a mark
before a blank, none follows. -/
structure StartsPlain (ch : Char) (r : List Char) : Prop where
  solid : isSolid ch = true
  unmarked : "#,[]\x7b\x7d&*!|>'\"%@`".toList.contains ch = false
  unblocked : ((ch = '?' || ch = ':' || ch = '-') && isGapOrEnd (r.headD endMark)) = false

theorem StartsPlain.atPlain (h : StartsPlain ch r) (hrest : l.cursor.rest = ch :: r)
    (hflow : l.flow = 0) : l.atPlain = true := by
  obtain ⟨hsolid, hmark, hblock⟩ := h
  rw [isSolid, Bool.not_eq_true'] at hsolid
  simp only [List.contains_eq_mem, decide_eq_false_iff_not] at hmark
  rw [Lexer.atPlain]
  simp only [Cursor.peek_of_rest hrest, Cursor.peekAt_one hrest, hsolid, inFlow, hflow]
  by_cases hgap : isGapOrEnd (r.headD endMark) = true
  · rw [hgap] at hblock ⊢
    simp [isFlowMark] at hmark hblock ⊢
    simp [hmark, hblock]
  · simp [isFlowMark] at hmark hgap ⊢
    simp [hmark, hgap]
    grind

theorem takes_plain (h : StartsPlain ch r) (hrest : l.cursor.rest = ch :: r) (hflow : l.flow = 0)
    (hseparator : l.cursor.atSeparator = false) (hread : l.readPlain = .ok m) : Takes l m := by
  intro l₀ hready
  obtain ⟨l₁, hdrop, hl⟩ := bind_eq_ok.mp hready
  have hplain := h.atPlain hrest hflow
  obtain ⟨hsolid, hmark, hblock⟩ := h
  have hend := (isSolid_iff.mp hsolid).2.2.1
  cases hl
  rw [cursor_unwind] at hrest hseparator
  rw [readToken, hdrop]
  show (if _ then _ else _) = _
  rw [Cursor.peek_of_rest hrest, Cursor.peekAt_one hrest, hseparator]
  have hblocked {x : Char} (hx : x = '?' ∨ x = ':' ∨ x = '-') :
      (decide (ch = x) && isGapOrEnd (r.headD endMark)) = false := by
    by_cases hch : ch = x
    · subst hch
      rcases hx with rfl | rfl | rfl <;> simpa using hblock
    · rw [decide_eq_false hch, Bool.false_and]
  have hhyphen := hblocked (x := '-') (.inr (.inr rfl))
  have hquery := hblocked (x := '?') (.inl rfl)
  have hcolon := hblocked (x := ':') (.inr (.inl rfl))
  simp at hmark
  simp only [hmark, hend, hplain, hflow, inFlow, hhyphen, hquery, hcolon, if_false, if_true,
    decide_false, Bool.false_and, Bool.and_false, Bool.false_or, Bool.false_eq_true, ne_eq,
    not_true]
  exact hread

/-! ## Marks of blocks -/

theorem takes_item (hopens : Opens q .blockSequenceStart indent outer ts outer' ts')
    (hcolumn : c.column = q) (hrest : c.rest = '-' :: ' ' :: r) :
    Takes (inBlock c ts indent outer true) (inBlock c.next (.blockEntry :: ts') q outer' true) := by
  refine takes_blockEntry hrest ?_
  have hread : (inBlock c ts indent outer true).readBlockEntry =
      (((inBlock c ts indent outer true).openBlock c.column ts.length .blockSequenceStart).dropPlace
        >>= fun l => .ok { (l.push .blockEntry).goTo l.cursor.next with allowsKey := true }) := rfl
  rw [hread, hcolumn, openBlock_of_opens hopens]
  rfl

theorem takes_longKey (hopens : Opens q .blockMappingStart indent outer ts outer' ts')
    (hcolumn : c.column = q) (hrest : c.rest = '?' :: ' ' :: r) :
    Takes (inBlock c ts indent outer true) (inBlock c.next (.key :: ts') q outer' true) := by
  refine takes_key hrest ?_
  have hread : (inBlock c ts indent outer true).readKey =
      (((inBlock c ts indent outer true).openBlock c.column ts.length .blockMappingStart).dropPlace
        >>= fun l => .ok { (l.push .key).goTo l.cursor.next with allowsKey := !l.inFlow }) := rfl
  rw [hread, hcolumn, openBlock_of_opens hopens]
  rfl

theorem takes_longValue (hcolumn : c.column = q) (hrest : c.rest = ':' :: r)
    (hr : isGapOrEnd (r.headD endMark) = true) :
    Takes (inBlock c ts q outer true) (inBlock c.next (.value :: ts) q outer true) := by
  refine takes_value hrest hr ?_
  have hread : (inBlock c ts q outer true).readValue =
      .ok { (((inBlock c ts q outer true).openBlock c.column ts.length .blockMappingStart).push
        .value).goTo ((inBlock c ts q outer true).openBlock c.column ts.length
          .blockMappingStart).cursor.next with allowsKey := !((inBlock c ts q outer true).openBlock
            c.column ts.length .blockMappingStart).inFlow } := rfl
  rw [hread, hcolumn, openBlock_of_opens (.here outer ts)]
  rfl

/-! ## Scalars -/

/-- The places remembered at the cursor. -/
def remembered (c : Cursor) (ts : List Token) (indent : Int) (allowsKey : Bool) :
    List (Int × KeyPlace) :=
  if allowsKey then [(0, ⟨ts.length, indent = c.column, c.index, c.line, c.column⟩)] else []

theorem mem_remembered {p : Int × KeyPlace} (h : p ∈ remembered c ts indent allowsKey) :
    p = (0, ⟨ts.length, indent = c.column, c.index, c.line, c.column⟩) := by
  rw [remembered] at h
  split at h
  · exact List.mem_singleton.mp h
  · cases h

theorem savePlace_inBlock : (inBlock c ts indent outer allowsKey).savePlace =
    .ok { inBlock c ts indent outer allowsKey with
      places := remembered c ts indent allowsKey } := by
  cases allowsKey <;> rfl

/-- A lexer in a block that remembers places. -/
def holding (places : List (Int × KeyPlace)) (c : Cursor) (ts : List Token) (indent : Int)
    (outer : List Int) (allowsKey : Bool) : Lexer :=
  { inBlock c ts indent outer allowsKey with places := places }

/-- A quoted scalar of characters is no torn one. -/
theorem quotedToken_map_char (cs : List Char) : quotedToken (cs.map .char) = .scalar cs false := by
  rw [quotedToken, Text.chars?_map_char]

/-- At `c` stands a scalar with the token `t` that ends at `d`. -/
def TakesScalar (c d : Cursor) (t : Token) (indent : Int) (crossed : Bool) : Prop :=
  ∀ ts outer allowsKey, Takes (inBlock c ts indent outer allowsKey)
    (holding (remembered c ts indent allowsKey) d (t :: ts) indent outer crossed)

theorem takesScalar_quoted {isDouble : Bool} {cs : List Char}
    (hrest : c.rest = quoteMark isDouble :: r) (h : quotedScalar isDouble c = .ok (cs.map .char, d)) :
    TakesScalar c d (.scalar cs false) indent false := by
  intro ts outer allowsKey
  refine takes_quoted hrest ?_
  have hquoted : readQuoted isDouble c = .ok (.scalar cs false, d) :=
    bind_eq_ok.mpr ⟨_, h, congrArg (fun t => Except.ok (t, d)) (quotedToken_map_char cs)⟩
  exact bind_eq_ok.mpr ⟨_, savePlace_inBlock, bind_eq_ok.mpr ⟨_, hquoted, rfl⟩⟩

theorem readPlain_of_savePlace {cs : List Char} {crossed : Bool} (hsave : l.savePlace = .ok m)
    (h : plainScalar m.inFlow m.indent m.cursor = (cs, crossed, d)) :
    l.readPlain = .ok { (m.push (.scalar cs true)).goTo d with allowsKey := crossed } := by
  refine bind_eq_ok.mpr ⟨m, hsave, ?_⟩
  simp only [h]
  rfl

theorem takesScalar_plain {cs : List Char} {crossed : Bool} (hstart : StartsPlain ch r)
    (hrest : c.rest = ch :: r) (hseparator : c.atSeparator = false)
    (h : plainScalar false indent c = (cs, crossed, d)) :
    TakesScalar c d (.scalar cs true) indent crossed := by
  intro ts outer allowsKey
  exact takes_plain hstart hrest rfl hseparator (readPlain_of_savePlace savePlace_inBlock h)

end OpeningHand.Yaml.Lexer
