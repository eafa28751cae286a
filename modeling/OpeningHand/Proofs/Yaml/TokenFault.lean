import OpeningHand.Proofs.Yaml.Place

/-!
# Faults of tokens

Which failures reading the tokens of a text can end with, for every text: the tokens cannot be told,
an escape has a number that no character has, a version has too many digits, or an escape has a
number beyond all machine words.
The last is no failure that the reading of a document answers for, so `TokenFault` says of it what
the text must hold.

`Reads` is what every step of the reading keeps, with one law for each way that steps are put
together and one for each step: where it goes on it stands in the text, and where it fails the
failure is one of these.
-/

namespace OpeningHand.Yaml.Lexer

/-- An escape whose number is beyond all machine words stands in a text. -/
def HasHugeEscape (text : List Char) : Prop :=
  ∃ before letter digits after width, text = before ++ '\\' :: letter :: (digits ++ after) ∧
    escapeWidth? letter = some width ∧ digits.length = width ∧ digits.all isHexDigit = true ∧
    0x7fffffff < hexValue digits

/-- The failures that reading the tokens of a text can end with. -/
inductive TokenFault (text : List Char) : Failure → Prop
  | badToken : TokenFault text badToken
  | noCharacter : TokenFault text (.value .noCharacter)
  | tooManyDigits (count : Nat) : TokenFault text (.value (.whole (.tooManyDigits count)))
  | tooLarge (escape : HasHugeEscape text) : TokenFault text (.lapse .tooLarge)

/-- A step in a text: it ends at a place in the text, or with a failure of tokens. -/
structure Reads {α : Type} (text : List Char) (out : α → Cursor) (x : Except Failure α) : Prop where
  place : ∀ a, x = .ok a → (out a).In text
  fault : ∀ e, x = .error e → TokenFault text e

namespace Reads

variable {α β : Type} {text : List Char} {out : α → Cursor} {out' : β → Cursor}

/-- A step that ends at a place in the text. -/
theorem ok {a : α} (h : (out a).In text) : Reads text out (.ok a) :=
  ⟨fun _ ha => by cases ha; exact h, fun _ he => nomatch he⟩

/-- A step that ends with one of the failures of tokens. -/
theorem fail {e : Failure} (h : TokenFault text e) : Reads text out (.error e) :=
  ⟨fun _ ha => (nomatch ha), fun _ he => by cases he; exact h⟩

/-- Refusing a token is the most frequent of them. -/
theorem bad : Reads text out (.error badToken) :=
  fail .badToken

/-- The next step may take for granted that it starts in the text. -/
theorem bind {x : Except Failure α} {f : α → Except Failure β} (hx : Reads text out x)
    (hf : ∀ a, (out a).In text → Reads text out' (f a)) : Reads text out' (x >>= f) := by
  cases x with
  | error e => exact fail (hx.fault e rfl)
  | ok a => exact hf a (hx.place a rfl)

/-- A check before a step only adds the failure of a bad token. -/
theorem check {p : Prop} [Decidable p] {f : PUnit → Except Failure α}
    (h : Reads text out (f ())) :
    Reads text out (if p then (throw badToken : Except Failure PUnit) >>= f else f ()) := by
  split
  · exact bad
  · exact h

/-- Each branch may use what was tested. -/
theorem ite {p : Prop} [Decidable p] {x y : Except Failure α} (hx : p → Reads text out x)
    (hy : ¬ p → Reads text out y) : Reads text out (if p then x else y) := by
  split
  next h => exact hx h
  next h => exact hy h

end Reads

variable {text : List Char} {c : Cursor}

/-! ## Quoted scalars -/

theorem quotedBreaks_reads (h : c.In text) (breaks : List Char) (fuel : Nat) :
    Reads text Prod.snd (quotedBreaks breaks c fuel) := by
  induction fuel generalizing breaks c with
  | zero => exact .ok h
  | succ fuel ih =>
    have hblanks := h.skipWhile fun ch => ch = ' ' || ch = '\t'
    unfold quotedBreaks
    refine .ite (fun _ => .bad) fun _ => .ite (fun _ => ?_) fun _ => ?_
    · exact ih hblanks.lineBreak _
    · exact .ok hblanks

/-- A huge number after a backslash and a letter is a huge escape. -/
theorem hasHugeEscape_of_place {letter : Char} {width : Nat} (h : c.In text)
    (backslash : c.peek = '\\') (hletter : c.next.peek = letter)
    (hwidth : escapeWidth? letter = some width)
    (hlength : (c.next.next.rest.take width).length = width)
    (hhex : (c.next.next.rest.take width).all isHexDigit = true)
    (huge : 0x7fffffff < hexValue (c.next.next.rest.take width)) : HasHugeEscape text := by
  obtain ⟨before, hbefore⟩ := h
  obtain ⟨rest, hrest⟩ := Cursor.rest_eq_cons backslash (by decide)
  have hend : letter ≠ endMark := by
    rintro rfl
    cases hwidth
  obtain ⟨rest', hrest'⟩ := Cursor.rest_eq_cons hletter hend
  have hnext : rest = c.next.rest := by rw [Cursor.rest_next, hrest, List.tail_cons]
  have hnext' : rest' = c.next.next.rest := by rw [Cursor.rest_next, hrest', List.tail_cons]
  refine ⟨before, letter, _, c.next.next.rest.drop width, width, ?_, hwidth, hlength, hhex, huge⟩
  rw [List.take_append_drop, ← hnext', ← hrest', ← hnext, ← hrest, hbefore]

/-- The backslash before an escape is part of the text. -/
theorem escape_reads (h : c.In text) (backslash : c.peek = '\\') :
    Reads text Prod.snd (escape c.next) := by
  unfold escape
  dsimp only
  split
  next => exact .ok h.next.next
  next width _ hwidth =>
    split
    next hdigits =>
      rw [Bool.and_eq_true, decide_eq_true_eq] at hdigits
      unfold pointOfCode
      split
      next huge =>
        exact .fail (.tooLarge (hasHugeEscape_of_place h backslash rfl hwidth hdigits.1 hdigits.2 huge))
      next =>
        split
        · exact .fail .noCharacter
        · exact .ok (h.next.next.skip width)
    next => exact .bad
  next =>
    split
    · exact (quotedBreaks_reads h.next.lineBreak _ _).bind fun _ hc => .ok hc
    · exact .bad

theorem quotedGap_reads (h : c.In text) : Reads text Prod.snd (quotedGap c) := by
  have hblanks := h.run fun ch => ch = ' ' || ch = '\t'
  unfold quotedGap
  dsimp only
  refine .ite (fun _ => .bad) fun _ => .ite (fun _ => ?_) fun _ => ?_
  · exact (quotedBreaks_reads hblanks.lineBreak _ _).bind fun _ hc => .ok hc
  · exact .ok hblanks

/-- A quoted scalar is read piece by piece: escapes have a law of their own, the rest only moves on.
-/
theorem quotedFrom_reads (h : c.In text) (isDouble : Bool) (ps : List Text.Point) (fuel : Nat) :
    Reads text Prod.snd (quotedFrom isDouble ps c fuel) := by
  induction fuel generalizing ps c with
  | zero => exact .bad
  | succ fuel ih =>
    have hchunk := h.run (isQuotedChar isDouble)
    unfold quotedFrom
    dsimp only
    refine .ite (fun _ => ?_) fun _ => .ite (fun hescape => ?_) fun _ => .ite (fun _ => ?_) fun _ => ?_
    · exact (quotedGap_reads hchunk).bind fun _ hc => ih hc _
    · rw [Bool.and_eq_true, decide_eq_true_eq] at hescape
      exact (escape_reads hchunk hescape.2).bind fun _ hc => ih hc _
    · exact ih (hchunk.skip 2) _
    · exact .ok hchunk.next

theorem quotedScalar_reads (h : c.In text) (isDouble : Bool) :
    Reads text Prod.snd (quotedScalar isDouble c) :=
  quotedFrom_reads h.next isDouble _ _

/-! ## Block scalars -/

theorem readIndent_reads (h : c.In text) : Reads text Prod.snd (readIndent c) := by
  unfold readIndent indentDigit?
  split
  next => exact .ok h
  next => exact .ok h.next
  next e he =>
    split at he
    · cases he
    · split at he <;> cases he
      exact .bad

/-- The marks behind a block scalar's indicator may stand in either order, or be missing. -/
theorem blockHeader_reads (h : c.In text) : Reads text (·.2.2) (blockHeader c) := by
  have finish {chomping : Chomping} {indent : Option Nat} {c : Cursor} (h : c.In text) :
      Reads text (·.2.2) (do
        if !isSpaceOrEnd c.peek then throw badToken
        let c := c.skipSpaces.skipComment
        if !isLineEnd c.peek then throw badToken
        return (chomping, indent, c.lineBreak.2) : Except Failure _) :=
    .check (.check (.ok h.skipSpaces.skipComment.lineBreak))
  unfold blockHeader
  dsimp only
  split
  next => exact (readIndent_reads h.next).bind fun _ hc => finish hc
  next =>
    refine (readIndent_reads h).bind fun ⟨indent, c⟩ hc => ?_
    dsimp only
    split
    · exact finish hc.next
    · exact finish hc

/-- After its header nothing in a block scalar is refused. -/
theorem blockScalar_reads (h : c.In text) (isFolded : Bool) (indent : Int) :
    Reads text Prod.snd (blockScalar isFolded indent c) := by
  unfold blockScalar
  refine (blockHeader_reads h.next).bind fun ⟨chomping, increment, c⟩ hc => ?_
  -- the fuel is made opaque, lest the laws be compared by running the steps
  have hlead (fuel : Nat) := in_blockLead hc [] 0 fuel
  have hbreaks (column : Int) (fuel : Nat) := in_blockBreaks hc column [] fuel
  cases increment with
  | none =>
    dsimp only
    generalize c.rest.length + 1 = fuel
    split
    · exact .ok (in_blockLines (hlead fuel) _ _ _ _ _)
    · exact .ok (hlead fuel)
  | some n =>
    dsimp only
    generalize c.rest.length + 1 = fuel
    split
    · exact .ok (in_blockLines (hbreaks _ fuel) _ _ _ _ _)
    · exact .ok (hbreaks _ fuel)

/-! ## Anchors, tags and directives -/

/-- A name that is empty or runs into something else is refused. -/
theorem anchorName_reads (h : c.In text) : Reads text Prod.snd (anchorName c) := by
  have hname := h.next.run isWordChar
  unfold anchorName
  exact .ite (fun _ => .bad) fun _ => .ok hname

theorem addressBytes_reads (h : c.In text) (bytes : List UInt8) (fuel : Nat) :
    Reads text Prod.snd (addressBytes bytes c fuel) := by
  induction fuel generalizing bytes c with
  | zero => exact .ok h
  | succ fuel ih =>
    unfold addressBytes
    exact .ite (fun _ => .ite (fun _ => ih (h.skip 3) _) fun _ => .bad) fun _ => .ok h

/-- The bytes of an address are refused if they are no text. -/
theorem addressFrom_reads (h : c.In text) (chars : List Char) (fuel : Nat) :
    Reads text Prod.snd (addressFrom chars c fuel) := by
  induction fuel generalizing chars c with
  | zero => exact .ok h
  | succ fuel ih =>
    unfold addressFrom
    refine .ite (fun _ => ?_) fun _ => .ite (fun _ => ih h.next _) fun _ => .ok h
    refine (addressBytes_reads h _ _).bind fun ⟨bytes, c⟩ hc => ?_
    dsimp only
    split
    · exact ih hc _
    · exact .bad

theorem address_reads (h : c.In text) : Reads text Prod.snd (address c) := by
  unfold address
  exact .ite (fun _ => addressFrom_reads h _ _) fun _ => .bad

theorem tagHandle_reads (h : c.In text) : Reads text Prod.snd (tagHandle c) := by
  have hword := h.next.run isWordChar
  unfold tagHandle
  refine .ite (fun _ => .bad) fun _ => .ite (fun _ => .ok h.next) fun _ => ?_
  exact .ite (fun _ => .ok hword.next) fun _ => .bad

theorem tag_reads (h : c.In text) : Reads text Prod.snd (tag c) := by
  have finish {token : Token} {c : Cursor} (h : c.In text) :
      Reads text Prod.snd (do
        if !isSpaceOrEnd c.peek then throw badToken
        return (token, c) : Except Failure _) :=
    .check (.ok h)
  unfold tag
  refine .ite (fun _ => ?_) fun _ => .ite (fun _ => ?_) fun _ => .ite (fun _ => ?_) fun _ => ?_
  · exact (address_reads (h.skip 2)).bind fun _ hc => .check (finish hc.next)
  · exact finish h.next
  · exact (tagHandle_reads h).bind fun _ hc => (address_reads hc).bind fun _ hc => finish hc
  · exact (address_reads h.next).bind fun _ hc => finish hc

theorem versionNumber_reads (h : c.In text) : Reads text Prod.snd (versionNumber c) := by
  have hdigits := h.run Char.isDigit
  unfold versionNumber
  exact .ite (fun _ => .bad) fun _ => .ite (fun _ => .fail (.tooManyDigits _)) fun _ => .ok hdigits

theorem versionValue_reads (h : c.In text) : Reads text Prod.snd (versionValue c) := by
  unfold versionValue
  refine (versionNumber_reads h.skipSpaces).bind fun _ hc => .check ?_
  exact (versionNumber_reads hc.next).bind fun _ hc => .check (.ok hc)

theorem handleValue_reads (h : c.In text) : Reads text Prod.snd (handleValue c) := by
  unfold handleValue
  refine (tagHandle_reads h.skipSpaces).bind fun _ hc => .check ?_
  exact (address_reads hc.skipSpaces).bind fun _ hc => .check (.ok hc)

/-- A directive is a version, a handle, or anything else, which is passed over. -/
theorem directive_reads (h : c.In text) : Reads text Prod.snd (directive c) := by
  have hname := h.next.run isWordChar
  unfold directive
  dsimp only
  generalize (c.next.run isWordChar).2 = c at hname
  split
  · exact .bad
  split
  · refine (versionValue_reads hname).bind fun ⟨value, c⟩ hc => ?_
    exact .ite (fun _ => .bad) fun _ => .ok hc.skipSpaces.skipComment.lineBreak
  split
  · refine (handleValue_reads hname).bind fun ⟨value, c⟩ hc => ?_
    exact .ite (fun _ => .bad) fun _ => .ok hc.skipSpaces.skipComment.lineBreak
  · have hrest := hname.skipWhile fun ch => !isLineEnd ch
    generalize c.skipWhile (fun ch => !isLineEnd ch) = c at hrest ⊢
    exact .ite (fun _ => .bad) fun _ => .ok hrest.skipSpaces.skipComment.lineBreak

/-! ## Layout and places of keys -/

variable {l : Lexer}

/-- Closing blocks adds tokens, and stays where it is. -/
theorem cursor_closeBlocks (column : Int) (outer : List Int) (l : Lexer) :
    (closeBlocks column l outer).cursor = l.cursor := by
  induction outer generalizing l with
  | nil => rfl
  | cons indent outer ih =>
    unfold closeBlocks
    split
    · exact ih _
    · rfl

theorem cursor_unwind (column : Int) (l : Lexer) : (l.unwind column).cursor = l.cursor := by
  unfold unwind
  split
  · rfl
  · exact cursor_closeBlocks column _ l

/-- Opening a block adds a token to those that were read. -/
theorem cursor_openBlock (column number : Nat) (t : Token) (l : Lexer) :
    (l.openBlock column number t).cursor = l.cursor := by
  unfold openBlock
  split <;> rfl

/-- A place that has to become a key cannot be given up. -/
theorem dropPlace_reads (h : l.cursor.In text) : Reads text cursor l.dropPlace := by
  unfold dropPlace
  split
  · exact .ok h
  · exact .ite (fun _ => .bad) fun _ => .ok h

theorem dropStale_reads (h : l.cursor.In text) : Reads text cursor l.dropStale := by
  unfold dropStale
  exact .ite (fun _ => .bad) fun _ => .ok h

theorem savePlace_reads (h : l.cursor.In text) : Reads text cursor l.savePlace := by
  unfold savePlace
  exact .ite (fun _ => (dropPlace_reads h).bind fun _ hl => .ok hl) fun _ => .ok h

/-! ## Single tokens -/

/-- Blanks, comments and newlines before a token are passed over. -/
theorem passBlanks_in (h : l.cursor.In text) (fuel : Nat) : (l.passBlanks fuel).cursor.In text := by
  induction fuel generalizing l with
  | zero => exact h
  | succ fuel ih =>
    have hc := h.skipSpaces.skipComment
    unfold passBlanks
    dsimp only
    split
    · exact ih hc.lineBreak
    · exact hc

theorem unwind_in (h : l.cursor.In text) (column : Int) : (l.unwind column).cursor.In text := by
  rw [cursor_unwind]
  exact h

theorem readEnd_reads (h : l.cursor.In text) : Reads text cursor l.readEnd :=
  (dropPlace_reads (unwind_in h _)).bind fun _ hl => .ok hl

theorem readDirective_reads (h : l.cursor.In text) : Reads text cursor l.readDirective :=
  (dropPlace_reads (unwind_in h _)).bind fun _ hl =>
    (directive_reads hl).bind fun _ hc => .ok hc

theorem readSeparator_reads (h : l.cursor.In text) (t : Token) :
    Reads text cursor (l.readSeparator t) :=
  (dropPlace_reads (unwind_in h _)).bind fun _ hl => .ok (hl.skip 3)

theorem readFlowStart_reads (h : l.cursor.In text) (t : Token) :
    Reads text cursor (l.readFlowStart t) :=
  (savePlace_reads h).bind fun _ hl => .ok hl.next

theorem readFlowEnd_reads (h : l.cursor.In text) (t : Token) :
    Reads text cursor (l.readFlowEnd t) :=
  (dropPlace_reads h).bind fun _ hl => .ok hl.next

/-- A comma drops the place of a key that was still possible. -/
theorem readFlowEntry_reads (h : l.cursor.In text) : Reads text cursor l.readFlowEntry :=
  (dropPlace_reads h).bind fun _ hl => .ok hl.next

/-- Opening a block, or not in a flow collection, leaves the lexer where it is. -/
theorem opened_in (h : l.cursor.In text) (column number : Nat) (t : Token) :
    (if l.inFlow then l else l.openBlock column number t).cursor.In text := by
  split
  · exact h
  · rw [cursor_openBlock]
    exact h

theorem readBlockEntry_reads (h : l.cursor.In text) : Reads text cursor l.readBlockEntry := by
  unfold readBlockEntry
  exact .check ((dropPlace_reads (opened_in h _ _ _)).bind fun _ hl => .ok hl.next)

theorem readKey_reads (h : l.cursor.In text) : Reads text cursor l.readKey := by
  unfold readKey
  exact .check ((dropPlace_reads (opened_in h _ _ _)).bind fun _ hl => .ok hl.next)

/-- A value mark either makes a key of the saved place or stands by itself. -/
theorem readValue_reads (h : l.cursor.In text) : Reads text cursor l.readValue := by
  unfold readValue
  split
  next place _ =>
    exact .ok (opened_in (l := pushAt place.number .key { l with places := _ }) h _ _ _).next
  next => exact .ite (fun _ => .bad) fun _ => .ok (opened_in h _ _ _).next

/-- A mark and what it marks: the place may become that of a key. -/
theorem readMark_reads (h : l.cursor.In text) {read : Cursor → Except Failure (Token × Cursor)}
    (hread : ∀ {c : Cursor}, c.In text → Reads text Prod.snd (read c)) :
    Reads text cursor (l.readMark read) :=
  (savePlace_reads h).bind fun _ hl => (hread hl).bind fun _ hc => .ok hc

theorem readName_reads (h : c.In text) (make : List Char → Token) :
    Reads text Prod.snd (readName make c) :=
  (anchorName_reads h).bind fun _ hc => .ok hc

theorem readQuoted_reads (h : c.In text) (isDouble : Bool) :
    Reads text Prod.snd (readQuoted isDouble c) :=
  (quotedScalar_reads h isDouble).bind fun _ hc => .ok hc

theorem readBlock_reads (h : l.cursor.In text) (isFolded : Bool) :
    Reads text cursor (l.readBlock isFolded) :=
  (dropPlace_reads h).bind fun _ hl => (blockScalar_reads hl isFolded _).bind fun _ hc => .ok hc

theorem readPlain_reads (h : l.cursor.In text) : Reads text cursor l.readPlain :=
  (savePlace_reads h).bind fun _ hl => .ok (in_plainScalar hl _ _)

/-! ## All tokens -/

/-- The next token, of whatever kind, keeps the reading in the text. -/
theorem readToken_reads (h : l.cursor.In text) : Reads text cursor l.readToken := by
  have hstart : (if l.cursor.index = 0 && l.cursor.peek = '\ufeff' then l.cursor.next
      else l.cursor).In text := by
    split
    · exact h.next
    · exact h
  unfold readToken
  refine (dropStale_reads (passBlanks_in hstart _)).bind fun l hl => ?_
  have hu := unwind_in hl l.cursor.column
  dsimp only
  generalize l.unwind l.cursor.column = l' at hu ⊢
  refine .ite (fun _ => readEnd_reads hu) fun _ => ?_
  refine .ite (fun _ => readDirective_reads hu) fun _ => ?_
  refine .ite (fun _ => readSeparator_reads hu _) fun _ => ?_
  refine .ite (fun _ => readSeparator_reads hu _) fun _ => ?_
  refine .ite (fun _ => readFlowStart_reads hu _) fun _ => ?_
  refine .ite (fun _ => readFlowStart_reads hu _) fun _ => ?_
  refine .ite (fun _ => readFlowEnd_reads hu _) fun _ => ?_
  refine .ite (fun _ => readFlowEnd_reads hu _) fun _ => ?_
  refine .ite (fun _ => readFlowEntry_reads hu) fun _ => ?_
  refine .ite (fun _ => readBlockEntry_reads hu) fun _ => ?_
  refine .ite (fun _ => readKey_reads hu) fun _ => ?_
  refine .ite (fun _ => readValue_reads hu) fun _ => ?_
  refine .ite (fun _ => readMark_reads hu fun hc => readName_reads hc _) fun _ => ?_
  refine .ite (fun _ => readMark_reads hu fun hc => readName_reads hc _) fun _ => ?_
  refine .ite (fun _ => readMark_reads hu fun hc => tag_reads hc) fun _ => ?_
  refine .ite (fun _ => readBlock_reads hu _) fun _ => ?_
  refine .ite (fun _ => readBlock_reads hu _) fun _ => ?_
  refine .ite (fun _ => readMark_reads hu fun hc => readQuoted_reads hc _) fun _ => ?_
  refine .ite (fun _ => readMark_reads hu fun hc => readQuoted_reads hc _) fun _ => ?_
  exact .ite (fun _ => readPlain_reads hu) fun _ => .bad

seal readToken in
/-- All tokens are read one by one, up to the end of the text or the first fault. -/
theorem readFrom_succ (l : Lexer) (fuel : Nat) :
    Tokens.readFrom l (fuel + 1) =
      if l.isDone then ⟨l.tokens.reverse, none⟩
      else
        match l.readToken >>= dropStale with
        | .ok l => Tokens.readFrom l fuel
        | .error e => ⟨l.settled, some e⟩ := rfl

/-- The induction is on the fuel; running out of it counts as a token that cannot be told. -/
theorem fault_readFrom (h : l.cursor.In text) (fuel : Nat) {e : Failure}
    (he : (Tokens.readFrom l fuel).fault = some e) : TokenFault text e := by
  induction fuel generalizing l with
  | zero =>
    cases he
    exact .badToken
  | succ fuel ih =>
    have hstep : Reads text cursor (l.readToken >>= dropStale) :=
      (readToken_reads h).bind fun _ hl => dropStale_reads hl
    rw [readFrom_succ] at he
    split at he
    · cases he
    · split at he
      next l' heq => exact ih (hstep.place l' heq) he
      next e' heq =>
        cases he
        exact hstep.fault _ heq

/-- The fault of a text's tokens, if there is one, is of these. -/
theorem fault_ofText {e : Failure} (he : (Tokens.ofText text).fault = some e) :
    TokenFault text e :=
  fault_readFrom (Cursor.in_start text) _ he

end OpeningHand.Yaml.Lexer
