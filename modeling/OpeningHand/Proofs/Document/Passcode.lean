import OpeningHand.Proofs.Document.Stages
import OpeningHand.Proofs.Yaml.Digits
import OpeningHand.Proofs.Yaml.Flow
import OpeningHand.Proofs.Yaml.Written.Nodes

/-!
# A card under a passcode without quotes

A document with one card, whose name is a row of digits without quotes (`passcodeLines`). YAML reads
the row as a number or as a text, and the card is named by that. Its tokens, its node and its value
follow in turn, and from them how a load of the document ends, for every row of digits.
-/

namespace OpeningHand

open Yaml Yaml.Lexer

/-- The document with one card under a row of digits; its last line may end with a newline. -/
def Document.passcodeLines (digits : List Char) (isEnded : Bool) : List Char :=
  "deck:\n  ".toList ++ (digits ++ (": \x7bqty: 1, tags: []\x7d\n".toList ++
    ("conditions: []".toList ++ if isEnded then ['\n'] else [])))

/-! ## Tokens -/

namespace Yaml.Lexer

variable {c : Cursor} {ts : List Token} {r : List Char}

/-- The details of one copy without labels. -/
theorem leads_oneCopy (hrest : c.rest = "\x7bqty: 1, tags: []\x7d".toList ++ r) :
    ∃ d, d.rest = r ∧
      ∀ {ts : List Token} {indent : Int} {outer : List Int} {m : Lexer},
        Continues (inBlock d (.flowMappingEnd :: .flowSequenceEnd :: .flowSequenceStart :: .value ::
          .scalar "tags".toList true :: .key :: .flowEntry :: .scalar ['1'] true :: .value ::
          .scalar "qty".toList true :: .key :: .flowMappingStart :: ts) indent outer false) m →
            Leads (inBlock c ts indent outer false) m := by
  have hopen : c.next.rest = "qty".toList ++ ':' :: ' ' :: ("1, tags: []\x7d".toList ++ r) := by
    rw [Cursor.rest_next, hrest]
    rfl
  obtain ⟨c₁, h₁, hqty⟩ := leads_flowName (by decide) (List.all_eq_true.mp (by decide))
    (by decide) hopen (starts_cons.mpr (by decide))
  have hcopies : c₁.rest = ['1'] ++ ',' :: (" tags: []\x7d".toList ++ r) := h₁
  have hcomma : (c₁.skip 1).rest = ',' :: (" tags: []\x7d".toList ++ r) :=
    Cursor.rest_of_skip hcopies
  have hspace : (c₁.skip 1).next.rest = List.replicate 1 ' ' ++ ("tags: []\x7d".toList ++ r) := by
    rw [Cursor.rest_next, hcomma]
    rfl
  have hword : ((c₁.skip 1).next.skip 1).rest =
      "tags".toList ++ ':' :: ' ' :: ("[]\x7d".toList ++ r) := Cursor.rest_of_skip hspace
  obtain ⟨c₂, h₂, htags⟩ := leads_flowName (by decide) (List.all_eq_true.mp (by decide))
    (by decide) hword (starts_cons.mpr (by decide))
  obtain ⟨c₃, h₃, hlabels⟩ := leads_noItems (r := '\x7d' :: r) h₂
  refine ⟨c₃.next, by rw [Cursor.rest_next, h₃]; rfl, ?_⟩
  intro ts indent outer m h
  show Leads (within 0 c ts indent outer false) m
  apply leads_flowStart true hrest
  apply continues_within (n := 0) (by decide) hopen (starts_cons.mpr (by decide))
  apply hqty (by decide)
  apply leads_flowWord (by decide) (List.all_eq_true.mp (by decide)) (endsWord_mark rfl) (by decide)
    hcopies
  apply continues_within (n := 0) (by decide) hcomma (starts_cons.mpr (by decide))
  apply leads_flowEntry hcomma
  apply continues_within (by decide) hspace (starts_cons.mpr (by decide))
  apply htags (by decide)
  apply hlabels (by decide)
  apply continues_within (n := 0) (by decide) h₃ (starts_cons.mpr (by decide))
  exact leads_flowEnd true h₃ h

/-- The first line, and the place of the name. -/
theorem leads_deck (hcolumn : c.column = 0) (hrest : c.rest = "deck:\n  ".toList ++ r)
    (hr : Starts r) : ∃ d, d.rest = r ∧ d.column = 2 ∧
      Leads (inBlock c [] (-1) [] true) (inBlock d [.value, .scalar "deck".toList true, .key,
        .blockMappingStart] 0 [-1] true) := by
  obtain ⟨hword, hmark⟩ := isWord_of_isAlphanum (w := "deck".toList) (by decide)
    (List.all_eq_true.mp (by decide))
  have hcolon : c.rest = "deck".toList ++ ':' :: ("\n  ".toList ++ r) := hrest
  have hline : (c.skip "deck".toList.length).next.rest =
      '\n' :: (List.replicate 2 ' ' ++ r) := by
    rw [Cursor.rest_next, Cursor.rest_of_skip hcolon]
    rfl
  obtain ⟨d, hd, hdcolumn, hleads⟩ := continues_newline hline hr
  refine ⟨d, hd, hdcolumn, ?_⟩
  exact leads_wordKey hword hmark (by decide) (.new [] [] (by decide)) hcolumn hcolon rfl
    (hleads (by decide) (.refl _))

/-- Over the end of the last line, which may be a newline. -/
theorem continues_end {isEnded : Bool} (hrest : c.rest = if isEnded then ['\n'] else []) :
    ∃ d a, d.rest = [] ∧ ∀ {ts : List Token} {outer : List Int},
      Continues (inBlock c ts 0 outer false) (inBlock d ts 0 outer a) := by
  cases isEnded with
  | true =>
    obtain ⟨d, hd, -, hleads⟩ := continues_newline (q := 0) (r := []) hrest starts_nil
    exact ⟨d, true, hd, hleads (Int.le_refl 0) (.refl _)⟩
  | false =>
    refine ⟨c, false, hrest, ?_⟩
    intro ts outer
    have hpasses := passes_fresh (l := inBlock c ts 0 outer false)
      (show Starts c.rest by rw [hrest]; exact starts_nil) nofun
    rw [unwind_of_le (Int.natCast_nonneg _)] at hpasses
    exact ⟨_, hpasses, Nat.le_refl _, .refl _⟩

/-- The last line, which may end with a newline. -/
theorem yields_conditions {isEnded : Bool} (hcolumn : c.column = 0)
    (hrest : c.rest = "conditions: []".toList ++ if isEnded then ['\n'] else []) :
    Yields (inBlock c ts 0 [-1] true) ⟨(.streamEnd :: .blockEnd :: .flowSequenceEnd ::
      .flowSequenceStart :: .value :: .scalar "conditions".toList true :: .key :: ts).reverse,
        none⟩ := by
  obtain ⟨hword, hmark⟩ := isWord_of_isAlphanum (w := "conditions".toList) (by decide)
    (List.all_eq_true.mp (by decide))
  have hcolon : c.rest = "conditions".toList ++ ':' :: (" []".toList ++
      if isEnded then ['\n'] else []) := hrest
  have hspace : (c.skip "conditions".toList.length).next.rest =
      ' ' :: ("[]".toList ++ if isEnded then ['\n'] else []) := by
    rw [Cursor.rest_next, Cursor.rest_of_skip hcolon]
    rfl
  have hopen : (c.skip "conditions".toList.length).next.next.rest =
      '[' :: ']' :: if isEnded then ['\n'] else [] := by
    rw [Cursor.rest_next, hspace]
    rfl
  obtain ⟨d, hd, hitems⟩ := leads_noItems hopen
  obtain ⟨e, a, he, hcontinues⟩ := continues_end hd
  have hleads : Leads (inBlock c ts 0 [-1] true) (inBlock e (.flowSequenceEnd ::
      .flowSequenceStart :: .value :: .scalar "conditions".toList true :: .key :: ts) 0 [-1] a) := by
    apply leads_wordKey (q := 0) hword hmark (by decide) (.here [-1] ts) hcolumn hcolon rfl
    apply continues_space hspace (starts_cons.mpr (by decide)) (by omega)
    exact hitems (Int.le_refl 0) hcontinues
  exact hleads _ (yields_end he)

end Yaml.Lexer

namespace Document

variable {digits : List Char} {isEnded : Bool}

/-- The tokens of the document. -/
def passcodeTokens (digits : List Char) : List Token :=
  [.blockMappingStart, .key, .scalar "deck".toList true, .value,
    .blockMappingStart, .key, .scalar digits true, .value,
    .flowMappingStart, .key, .scalar "qty".toList true, .value, .scalar ['1'] true, .flowEntry,
    .key, .scalar "tags".toList true, .value, .flowSequenceStart, .flowSequenceEnd, .flowMappingEnd,
    .blockEnd, .key, .scalar "conditions".toList true, .value, .flowSequenceStart, .flowSequenceEnd,
    .blockEnd, .streamEnd]

/-- The tokens up to the name, which are handed out if no value may stand after it. -/
def passcodeTokensUpToName (digits : List Char) : List Token :=
  [.blockMappingStart, .key, .scalar "deck".toList true, .value, .scalar digits true]

theorem isWord_digits (digit : ∀ c ∈ digits, c.isDigit = true) (nonempty : digits ≠ []) :
    IsWord digits ∧ Writer.startsWithMark digits = false :=
  isWord_of_isAlphanum nonempty fun c hc => isAlphanum_of_isDigit (digit c hc)

theorem starts_digits (digit : ∀ c ∈ digits, c.isDigit = true) (nonempty : digits ≠ [])
    (r : List Char) : Starts (digits ++ r) := by
  obtain ⟨c, digits, rfl⟩ := List.exists_cons_of_ne_nil nonempty
  exact Text.forall_isDigit
    (P := fun c => isGapOrEnd c = false ∧ c ≠ '#' ∧ c ≠ '\ufeff') (by decide)
      (digit c List.mem_cons_self) |> starts_cons.mpr

/-- The first line is read, and then what the place of the name yields. -/
theorem ofText_passcodeLines {tokens : Tokens} (digit : ∀ c ∈ digits, c.isDigit = true)
    (nonempty : digits ≠ []) (h : ∀ c, c.column = 2 → c.rest = digits ++
      (": \x7bqty: 1, tags: []\x7d\n".toList ++ ("conditions: []".toList ++
        if isEnded then ['\n'] else [])) →
      Yields (inBlock c [.value, .scalar "deck".toList true, .key, .blockMappingStart] 0 [-1] true)
        tokens) : Tokens.ofText (passcodeLines digits isEnded) = tokens := by
  obtain ⟨c, hc, hcolumn, hleads⟩ := leads_deck (c := .start (passcodeLines digits isEnded)) rfl rfl
    (starts_digits digit nonempty _)
  exact ofText_of_yields (starts_cons.mpr (by decide)) (hleads _ (h c hcolumn hc))

/-- The tokens up to the end of the card, the last first. -/
def cardTokens (digits : List Char) : List Token :=
  .flowMappingEnd :: .flowSequenceEnd :: .flowSequenceStart :: .value ::
    .scalar "tags".toList true :: .key :: .flowEntry :: .scalar ['1'] true :: .value ::
    .scalar "qty".toList true :: .key :: .flowMappingStart ::
    [.value, .scalar digits true, .key, .blockMappingStart, .value, .scalar "deck".toList true,
      .key, .blockMappingStart]

/-- The line of the card, if its digits are not too long for a key. -/
theorem leads_card {c : Cursor} {r : List Char} (digit : ∀ c ∈ digits, c.isDigit = true)
    (nonempty : digits ≠ []) (short : digits.length ≤ maxKeyLength) (hcolumn : c.column = 2)
    (hrest : c.rest = digits ++ (": \x7bqty: 1, tags: []\x7d\n".toList ++ r)) (hr : Starts r) :
    ∃ e, e.rest = r ∧ e.column = 0 ∧
      Leads (inBlock c [.value, .scalar "deck".toList true, .key, .blockMappingStart] 0 [-1] true)
        (inBlock e (.blockEnd :: cardTokens digits) 0 [-1] true) := by
  obtain ⟨hword, hmark⟩ := isWord_digits digit nonempty
  have hcolon : (c.skip digits.length).rest = ':' :: (" \x7bqty: 1, tags: []\x7d\n".toList ++ r) :=
    Cursor.rest_of_skip hrest
  have hspace : (c.skip digits.length).next.rest =
      ' ' :: ("\x7bqty: 1, tags: []\x7d".toList ++ '\n' :: r) := by
    rw [Cursor.rest_next, hcolon]
    rfl
  have hopen : (c.skip digits.length).next.next.rest =
      "\x7bqty: 1, tags: []\x7d".toList ++ '\n' :: r := by
    rw [Cursor.rest_next, hspace]
    rfl
  have hcolumn' : (2 : Int) ≤ (c.skip digits.length).next.column + 1 := by
    rw [Cursor.next_inline hcolon rfl, Cursor.skip_inline hrest hword.inline, hcolumn]
    show (2 : Int) ≤ ((2 + digits.length + 1 : Nat) : Int) + 1
    omega
  obtain ⟨d, hd, hdetails⟩ := leads_oneCopy hopen
  obtain ⟨e, he, hecolumn, hline⟩ := continues_line (q := 0) hd hr
  have hclosed : (inBlock e (cardTokens digits) 2 [0, -1] true).unwind (0 : Nat) =
      inBlock e (.blockEnd :: cardTokens digits) 0 [-1] true := by
    rw [unwind_of_lt (by decide)]
    exact unwind_of_le (Int.le_refl 0)
  refine ⟨e, he, hecolumn, ?_⟩
  apply leads_wordKey (q := 2) hword hmark short (.new [-1] _ (by decide)) hcolumn hrest rfl
  apply continues_space hspace (starts_cons.mpr (by decide)) hcolumn'
  apply hdetails
  apply hline
  rw [← hclosed]
  exact .refl _

/-- Digits that are not too long for a key are one. -/
theorem ofText_short (digit : ∀ c ∈ digits, c.isDigit = true) (nonempty : digits ≠ [])
    (short : digits.length ≤ maxKeyLength) :
    Tokens.ofText (passcodeLines digits isEnded) = ⟨passcodeTokens digits, none⟩ := by
  apply ofText_passcodeLines digit nonempty
  intro c hcolumn hrest
  obtain ⟨e, he, hecolumn, hleads⟩ := leads_card digit nonempty short hcolumn hrest
    (starts_cons.mpr (by decide))
  exact hleads _ (yields_conditions hecolumn he)

/-- Digits that are too long for a key are followed by no value. -/
theorem ofText_long (digit : ∀ c ∈ digits, c.isDigit = true) (nonempty : digits ≠ [])
    (long : maxKeyLength < digits.length) : Tokens.ofText (passcodeLines digits isEnded) =
      ⟨passcodeTokensUpToName digits, some badToken⟩ := by
  obtain ⟨hword, hmark⟩ := isWord_digits digit nonempty
  apply ofText_passcodeLines digit nonempty
  intro c hcolumn hrest
  exact yields_longWord hword hmark long (by rw [hcolumn]; decide) hrest rfl

/-! ## The node -/

/-- The node of the document. -/
def passcodeNode (digits : List Char) : Node :=
  .map .map [
    (.scalar .text "deck".toList, .map .map [
      (.scalar (Tag.ofPlain digits) digits, Library.detailsNode '1')]),
    (.scalar .text "conditions".toList, .list .list [])]

theorem ofPlain_ownNames : Tag.ofPlain "deck".toList = .text ∧
    Tag.ofPlain "conditions".toList = .text ∧ Tag.ofPlain "qty".toList = .text ∧
      Tag.ofPlain "tags".toList = .text ∧ Tag.ofPlain ['1'] = .whole := by
  decide

open Compose in
/-- The tokens of the details are composed to their node. -/
theorem gives_oneCopy {fuel : Nat} {rest : List Token} :
    Gives (Compose.node true true (fuel + 8)) (.flowMappingStart :: .key ::
      .scalar "qty".toList true :: .value :: .scalar ['1'] true :: .flowEntry :: .key ::
      .scalar "tags".toList true :: .value :: .flowSequenceStart :: .flowSequenceEnd ::
      .flowMappingEnd :: rest) (Library.detailsNode '1') rest := by
  have hgives : Gives (Compose.node true true (fuel + 8)) (.flowMappingStart :: .key ::
      .scalar "qty".toList true :: .value :: .scalar ['1'] true :: .flowEntry :: .key ::
      .scalar "tags".toList true :: .value :: .flowSequenceStart :: .flowSequenceEnd ::
      .flowMappingEnd :: rest) (.map .map [
        (.scalar (Tag.ofPlain "qty".toList) "qty".toList, .scalar (Tag.ofPlain ['1']) ['1']),
        (.scalar (Tag.ofPlain "tags".toList) "tags".toList, .list .list [])]) rest :=
    fun _ => rfl
  obtain ⟨-, -, hqty, htags, hone⟩ := ofPlain_ownNames
  rwa [hqty, htags, hone] at hgives

open Compose in
/-- The tokens of the document are composed to its node. -/
theorem onlyDocument_passcode {digits : List Char} {k : Scalar} {name : List Char}
    (h : Named digits k name) (fuel : Nat) :
    (onlyDocument (fuel + 16)).run ⟨passcodeTokens digits, none, [], []⟩ =
      .ok (some (passcodeNode digits), ⟨[.streamEnd], none, [], ownHandles⟩) := by
  obtain ⟨hdeck, hconditions, -, -, -⟩ := ofPlain_ownNames
  have hplaced (place : Nat) : (Node.scalar (Tag.ofPlain digits) digits).placed place =
      .scalar (Tag.ofPlain digits) digits := by
    rcases h.tag with htag | htag <;> rw [htag] <;> rfl
  apply onlyDocument_of_gives
  apply gives_record
  apply gives_pair rfl rfl (gives_plain true hdeck rfl)
  · apply gives_record
    exact gives_pair rfl rfl (gives_plain true rfl (hplaced _)) gives_oneCopy gives_pairsEnd
  · exact gives_pair rfl rfl (gives_plain true hconditions rfl) (gives_emptyList true)
      gives_pairsEnd

open Compose in
/-- After the name comes the fault of the tokens. -/
theorem onlyDocument_upToName (digits : List Char) (fuel : Nat) (e : Failure) :
    (onlyDocument (fuel + 8)).run ⟨passcodeTokensUpToName digits, some e, [], []⟩ = .error e :=
  rfl

theorem all_passcodeLines (digit : ∀ c ∈ digits, c.isDigit = true) :
    (passcodeLines digits isEnded).all isTextChar = true := by
  have hdigits : digits.all isTextChar = true := by
    apply List.all_eq_true.mpr
    intro c hc
    exact Text.forall_isDigit (P := fun c => isTextChar c = true) (by decide) (digit c hc)
  have hend : (if isEnded then ['\n'] else []).all isTextChar = true := by
    cases isEnded <;> rfl
  have hfirst : "deck:\n  ".toList.all isTextChar = true := by decide
  have hcard : ": \x7bqty: 1, tags: []\x7d\n".toList.all isTextChar = true := by decide
  have hlast : "conditions: []".toList.all isTextChar = true := by decide
  unfold passcodeLines
  simp only [List.all_append, hdigits, hend, hfirst, hcard, hlast, Bool.and_self]

theorem ofText_passcode {k : Scalar} {name : List Char} (digit : ∀ c ∈ digits, c.isDigit = true)
    (nonempty : digits ≠ []) (short : digits.length ≤ maxKeyLength) (h : Named digits k name) :
    Node.ofText (passcodeLines digits isEnded) = .ok (some (passcodeNode digits)) := by
  have hlength : (passcodeTokens digits).length = 28 := rfl
  have hfuel : 8 * (passcodeTokens digits).length + 8 = 216 + 16 := by rw [hlength]
  have hcompose : Node.compose (passcodeLines digits isEnded) =
      .ok ⟨some (passcodeNode digits), [], false⟩ := by
    rw [Node.compose, all_passcodeLines digit, ofText_short digit nonempty short]
    simp only [hfuel, onlyDocument_passcode h]
    rfl
  have acyclic : (passcodeNode digits).hasBack = false := rfl
  refine bind_eq_ok.mpr ⟨_, hcompose, ?_⟩
  rw [Node.tree_of_acyclic rfl acyclic, Bool.false_and, if_neg Bool.false_ne_true]

/-! ## The value -/

/-- The details of one copy without labels, as data. -/
def oneCopy : Data := .map [(.text "qty", .scalar (.whole 1)), (.text "tags", .list [])]

/-- The value of the document, with the card under a key. -/
def passcodeData (k : Scalar) : Data :=
  .map [(.text "deck", .map [(k, oneCopy)]), (.text "conditions", .list [])]

theorem toData_passcodeNode {k : Scalar} {name : List Char} (h : Named digits k name) :
    (passcodeNode digits).toData = .ok (passcodeData k) := by
  have htext (s : String) : (Node.scalar .text s.toList).toData = .ok (.scalar (.text s)) :=
    Node.toData_scalar (by rw [scalarValue, String.ofList_toList])
  have hempty : (Node.list .list []).toData = .ok (.list []) := Node.toData_list.mpr .nil
  have hdetails : (Library.detailsNode '1').toData = .ok oneCopy := by
    apply Node.toData_plainMap _ (.cons ⟨htext "qty", Node.toData_scalar rfl⟩
      (.cons ⟨htext "tags", hempty⟩ .nil))
    · exact show [Scalar.Key.text "qty", .text "tags"].Nodup by decide
    · decide
  have hcard : (Node.map .map [(.scalar (Tag.ofPlain digits) digits,
      Library.detailsNode '1')]).toData = .ok (.map [(k, oneCopy)]) := by
    apply Node.toData_plainMap _ (.cons ⟨Node.toData_scalar h.value, hdetails⟩ .nil)
    · exact List.nodup_singleton _
    · intro p hp
      rw [List.mem_singleton.mp hp]
      rcases h.tag with htag | htag <;> rw [Node.tag, htag] <;> decide
  apply Node.toData_plainMap _ (.cons ⟨htext "deck", hcard⟩
    (.cons ⟨htext "conditions", hempty⟩ .nil))
  · exact show [Scalar.Key.text "deck", .text "conditions"].Nodup by decide
  · intro p hp
    have htag : p.1.tag = .text := by
      rcases List.mem_cons.mp hp with rfl | hp
      · rfl
      · rw [List.mem_singleton.mp hp]
        rfl
    rw [htag]
    decide

theorem load_passcodeLines {k : Scalar} {name : List Char}
    (digit : ∀ c ∈ digits, c.isDigit = true) (nonempty : digits ≠ [])
    (short : digits.length ≤ maxKeyLength) (h : Named digits k name) :
    Yaml.load (String.ofList (passcodeLines digits isEnded)) = .ok (passcodeData k) := by
  have hnode : Node.ofText (String.ofList (passcodeLines digits isEnded)).toList =
      .ok (some (passcodeNode digits)) := by
    rw [String.toList_ofList]
    exact ofText_passcode digit nonempty short h
  exact (load_eq_ok_iff_of_node hnode).mpr ⟨toData_passcodeNode h, rfl⟩

/-- A row that is too long for a key is a fault of the tokens. -/
theorem load_passcodeLines_long (digit : ∀ c ∈ digits, c.isDigit = true) (nonempty : digits ≠ [])
    (long : maxKeyLength < digits.length) :
    Yaml.load (String.ofList (passcodeLines digits isEnded)) = .error badToken := by
  have hlength : (passcodeTokensUpToName digits).length = 5 := rfl
  have hfuel : 8 * (passcodeTokensUpToName digits).length + 8 = 40 + 8 := by rw [hlength]
  have hcompose : Node.compose (passcodeLines digits isEnded) = .error badToken := by
    rw [Node.compose, all_passcodeLines digit, ofText_long digit nonempty long]
    simp only [hfuel, onlyDocument_upToName]
    rfl
  rw [Yaml.load, String.toList_ofList, Node.ofText, hcompose]
  rfl

/-! ## The scenario -/

variable {k : Scalar} {name : List Char}

theorem keyName_of_named (h : Named digits k name) : keyName k = String.ofList name := by
  rw [keyName, h.text]
  rfl

theorem ne_null_of_named (h : Named digits k name) : k ≠ .null := by
  rintro rfl
  cases h.text
  cases h.digits 'N' List.mem_cons_self

/-- The name of a row of digits is neither blank nor that of a filler. -/
theorem isCardName_of_named (h : Named digits k name) :
    Text.isBlankText name = false ∧ String.ofList name ≠ Card.emptyName := by
  obtain ⟨c, cs, rfl⟩ := List.exists_cons_of_ne_nil h.nonempty
  have hc := h.digits c List.mem_cons_self
  constructor
  · have hblank : Text.isBlank c = false :=
      Text.forall_isDigit (P := fun c => Text.isBlank c = false) (by decide) hc
    rw [Text.isBlankText, List.all_cons, hblank]
    rfl
  · intro heq
    have hlist : c :: cs = Card.emptyName.toList := by
      rw [← heq, String.toList_ofList]
    cases hlist
    cases hc

theorem shaped_passcodeData (h : Named digits k name) :
    Shaped (passcodeData k) [(k, oneCopy)] [] := by
  refine ⟨⟨_, _, rfl, rfl, rfl, rfl⟩, ?_⟩
  intro e he
  rw [List.mem_singleton.mp he]
  exact ⟨ne_null_of_named h, _, _, _, rfl, rfl, rfl, rfl⟩

theorem hasWritableKeys_passcodeData (h : Named digits k name) :
    HasWritableKeys (passcodeData k) := by
  intro es deck hdata hdeck e he n hn
  cases hdata
  cases hdeck
  rw [List.mem_singleton.mp he] at hn
  have htext := h.text
  rw [show k = .whole n from hn] at htext
  exact Number.lt_of_writeWhole? htext

/-- A deck of one copy is built for the name. -/
theorem build_passcode (h : Named digits k name) (minSize : Int) : ∃ deck,
    (Deck.ofEntries (cardsOf [(k, oneCopy)]) minSize).result = .ok deck ∧
      deck.realSlots.map Card.name = [String.ofList name] := by
  obtain ⟨hblank, hfiller⟩ := isCardName_of_named h
  have labels : Details.hasTornLabel oneCopy = false := rfl
  have hoffers :
      Deck.Offers (offerOf (k, oneCopy) labels) (String.ofList name, ⟨1, [], false, []⟩) := by
    rw [offerOf, keyName_of_named h]
    exact .data (by rwa [String.toList_ofList]) rfl
  rw [ofEntries_cardsOf (List.forall_mem_singleton.mpr labels)]
  refine ⟨_, Deck.result_build_eq_ok_iff.mpr ⟨_, .cons hoffers .nil, rfl⟩, ?_⟩
  have hreal : Card.isEmpty ⟨String.ofList name, ⟨1, [], false, []⟩⟩ = false :=
    decide_eq_false hfiller
  rw [Deck.realSlots_of_cards]
  show (([⟨String.ofList name, ⟨1, [], false, []⟩⟩] : List Card).filter _).map _ = _
  rw [List.filter_singleton, hreal]
  rfl

end Document

namespace Library

open Document
open Number (denoted)

/-- How a load of the document with one card under a row of digits ends, if settings can be read. A
row that is not too long for a key is loaded with one real card, whose name is digits; the name
denotes in base ten what the row denotes in base eight if it is octal, in base ten otherwise, so it
denotes the number of the row exactly if the row is not octal or has no other digit than zero before
the last. A longer row is a fault of the tokens. -/
theorem load_passcode {settings : Settings} {minSize : Int} {digits : List Char}
    (hmin : settings.minDeckSize = .ok minSize) (digit : ∀ c ∈ digits, c.isDigit = true)
    (nonempty : digits ≠ []) (isEnded : Bool) (source : String) :
    (digits.length ≤ maxKeyLength → ∃ s name,
      (load settings Deck.ofEntries source
        (String.ofList (passcodeLines digits isEnded))).result = .ok s ∧
      s.deck.realSlots.map Card.name = [String.ofList name] ∧
      name ≠ [] ∧ (∀ c ∈ name, c.isDigit = true) ∧
      denoted 10 name = (if IsOctal digits then denoted 8 digits else denoted 10 digits) ∧
      (denoted 10 name = denoted 10 digits ↔
        ¬ IsOctal digits ∨ ∀ c ∈ digits.dropLast, c = '0')) ∧
    (maxKeyLength < digits.length →
      (load settings Deck.ofEntries source
        (String.ofList (passcodeLines digits isEnded))).result =
          .error (.load source (.yaml .tokens))) := by
  constructor
  · intro short
    obtain ⟨k, name, h⟩ := named_digits digit nonempty (Nat.le_trans short (by decide))
    have hload : Yaml.load (String.ofList (passcodeLines digits isEnded)) = .ok (passcodeData k) :=
      load_passcodeLines digit nonempty short h
    have hhanded := (shaped_passcodeData h).handed (hasWritableKeys_passcodeData h) hload
      (List.nodup_singleton _)
    obtain ⟨deck, hbuilt, hreal⟩ := build_passcode h minSize
    have hread : (Document.read Deck.ofEntries minSize
        (String.ofList (passcodeLines digits isEnded))).result = .ok ⟨deck, []⟩ := by
      rw [Document.result_read, hhanded]
      exact bind_eq_ok.mpr ⟨_, rfl, bind_eq_ok.mpr ⟨_, hbuilt, rfl⟩⟩
    refine ⟨⟨deck, []⟩, name, result_load_eq_ok_iff.mpr ⟨minSize, hmin, hread⟩, hreal, h.nonempty,
      h.digits, h.number, ?_⟩
    rw [h.number]
    by_cases hoctal : IsOctal digits
    · rw [if_pos hoctal, Number.denoted_eight_eq_ten_iff digit]
      exact ⟨.inr, fun hor => hor.resolve_left fun hnot => hnot hoctal⟩
    · rw [if_neg hoctal]
      exact iff_of_true rfl (.inl hoctal)
  · intro long
    apply result_load_of_error hmin
    · rw [Document.result_read, Document.handed, load_passcodeLines_long digit nonempty long]
      rfl
    · rfl

/-- The row 0123 is octal, so its card is named 83. -/
theorem load_passcode_octal :
    Settings.default.minDeckSize = .ok 40 ∧ (∀ c ∈ "0123".toList, c.isDigit = true) ∧
      "0123".toList ≠ [] ∧ "0123".toList.length ≤ maxKeyLength ∧ ∃ s name,
        (load .default Deck.ofEntries "YAML"
          (String.ofList (passcodeLines "0123".toList true))).result = .ok s ∧
        s.deck.realSlots.map Card.name = [String.ofList name] ∧ denoted 10 name = 83 := by
  have digit : ∀ c ∈ "0123".toList, c.isDigit = true := List.all_eq_true.mp (by decide)
  have short : "0123".toList.length ≤ maxKeyLength := by decide
  have hoctal : IsOctal "0123".toList := by decide
  have hmin : Settings.default.minDeckSize = .ok 40 := rfl
  obtain ⟨hload, -⟩ := load_passcode hmin digit (by decide) true "YAML"
  obtain ⟨s, name, hs, hreal, -, -, hnumber, -⟩ := hload short
  rw [if_pos hoctal] at hnumber
  exact ⟨hmin, digit, by decide, short, s, name, hs, hreal, hnumber⟩

/-- The row 010 does not keep its number: its card is named 8. -/
theorem octal_not_kept :
    (∀ c ∈ "010".toList, c.isDigit = true) ∧ "010".toList.length ≤ Number.maxDigits ∧
      ¬ ∃ s name, (load .default Deck.ofEntries "YAML"
          (String.ofList (passcodeLines "010".toList true))).result = .ok s ∧
        s.deck.realSlots.map Card.name = [String.ofList name] ∧
        denoted 10 name = denoted 10 "010".toList := by
  refine ⟨List.all_eq_true.mp (by decide), by decide, ?_⟩
  rintro ⟨s, name, hs, hreal, hnumber⟩
  have hname : (load .default Deck.ofEntries "YAML"
      (String.ofList (passcodeLines "010".toList true))).result.toOption.map (fun s =>
        s.deck.realSlots.map Card.name) = some ["8"] := by
    decide +kernel
  rw [hs] at hname
  have height : String.ofList name = "8" :=
    List.singleton_inj.mp (hreal.symm.trans (Option.some.inj hname))
  have hchars : name = ['8'] := by
    rw [← String.toList_ofList (l := name), height]
    rfl
  rw [hchars] at hnumber
  exact absurd hnumber (by decide)

end Library

end OpeningHand
