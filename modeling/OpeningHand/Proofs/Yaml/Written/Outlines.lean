import OpeningHand.Proofs.Text.Numeral
import OpeningHand.Proofs.Yaml.Written.Keys

/-!
# Tokens of written outlines

What is written for an outline is read as the tokens of its shape (`valueTokens`): each collection
with its entries or items between the tokens that open and close a block, but for the list under a
name, which stands at the name's own column and so opens no block. The reading follows the writing,
value by value, item by item and entry by entry, and whatever blocks an outline opens are closed on
the line after it.
-/

namespace OpeningHand

open Yaml Yaml.Writer Yaml.Lexer

namespace Outline

mutual

/-- How deep collections are nested in an outline. -/
def depth : Outline → Nat
  | .text _ => 0
  | .number _ => 0
  | .flag _ => 0
  | .list items => depthItems items + 1
  | .record entries => depthEntries entries + 1

/-- The greatest depth of items. -/
def depthItems : List Outline → Nat
  | [] => 0
  | o :: os => max o.depth (depthItems os)

/-- The greatest depth of values. -/
def depthEntries : List (String × Outline) → Nat
  | [] => 0
  | (_, o) :: es => max o.depth (depthEntries es)

end

/-- A name is read back: writing keeps it, and before its colon it is not too long for a key. -/
structure IsReadableName (cs : List Char) : Prop where
  kept : IsKept cs
  short : isSimpleKey cs = true → (simpleName 0 cs).length ≤ maxKeyLength

instance (cs : List Char) : Decidable (IsReadableName cs) :=
  decidable_of_iff (IsKept cs ∧ (isSimpleKey cs = true → (simpleName 0 cs).length ≤ maxKeyLength))
    ⟨fun h => ⟨h.1, h.2⟩, fun h => ⟨h.kept, h.short⟩⟩

mutual

/-- All texts, names and numbers of an outline are read back, and the names of a record are
distinct. -/
def Readable : Outline → Prop
  | .text s => IsKept s.toList
  | .number n => n < 10 ^ Number.maxDigits
  | .flag _ => True
  | .list items => ReadableItems items
  | .record entries => (entries.map Prod.fst).Nodup ∧ ReadableEntries entries

/-- `Readable` on items. -/
def ReadableItems : List Outline → Prop
  | [] => True
  | o :: os => o.Readable ∧ ReadableItems os

/-- `Readable` on entries. -/
def ReadableEntries : List (String × Outline) → Prop
  | [] => True
  | (name, o) :: es => IsReadableName name.toList ∧ o.Readable ∧ ReadableEntries es

end

mutual

/-- The tokens of a value; a list has a block of its own after a mark, and none after a name. -/
def valueTokens (own : Bool) : Outline → List Token
  | .text s => [scalarToken s.toList]
  | .number n => [.scalar (Text.decimalDigits n) true]
  | .flag b => [.scalar (if b then "true" else "false").toList true]
  | .list [] => [.flowSequenceStart, .flowSequenceEnd]
  | .record [] => [.flowMappingStart, .flowMappingEnd]
  | .list (o :: os) =>
    if own then .blockSequenceStart :: (itemsTokens (o :: os) ++ [.blockEnd])
    else itemsTokens (o :: os)
  | .record (e :: es) => .blockMappingStart :: (entriesTokens (e :: es) ++ [.blockEnd])

/-- The tokens of items. -/
def itemsTokens : List Outline → List Token
  | [] => []
  | o :: os => .blockEntry :: (valueTokens true o ++ itemsTokens os)

/-- The tokens of entries. -/
def entriesTokens : List (String × Outline) → List Token
  | [] => []
  | (name, o) :: es =>
    .key :: scalarToken name.toList :: .value ::
      (valueTokens (!isSimpleKey name.toList) o ++ entriesTokens es)

end

end Outline

namespace Yaml.Lexer

variable {c : Cursor} {ts ts' : List Token} {indent : Int} {outer outer' : List Int}
  {allowsKey : Bool} {w r : List Char} {column n q : Nat}

/-! ## Single values -/

/-- The digits of a number are a word that starts with no mark. -/
theorem isWord_decimalDigits (k : Nat) : IsWord (Text.decimalDigits k) ∧
    startsWithMark (Text.decimalDigits k) = false :=
  isWord_of_isAlphanum (Text.decimalDigits_ne_nil k) fun _ hch =>
    isAlphanum_of_isDigit (Text.isDigit_of_mem_decimalDigits hch)

/-- So are the texts of truth values. -/
theorem isWord_flag (b : Bool) : IsWord (if b then "true" else "false").toList ∧
    startsWithMark (if b then "true" else "false").toList = false := by
  cases b <;> exact isWord_of_isAlphanum (by decide) (List.all_eq_true.mp (by decide))

/-- Text after a colon or a mark. -/
theorem continues_text {cs : List Char} (hkept : IsKept cs) (hq : q + 2 < maxWidth)
    (hrest : c.rest = ' ' :: (scalarText ⟨true, q + 2⟩ column cs ++
      '\n' :: (List.replicate n ' ' ++ r))) (hr : Starts r) (hcolumn : q < c.column) (hn : n ≤ q) :
    ∃ c', c'.rest = r ∧ c'.column = n ∧ Continues (inBlock c ts q outer allowsKey)
      ((inBlock c' (scalarToken cs :: ts) q outer true).unwind n) := by
  have hnext := Cursor.next_inline hrest rfl
  obtain ⟨c', hc', hcolumn', hleads⟩ : ∃ c', c'.rest = r ∧ c'.column = n ∧
      Leads (inBlock c.next ts q outer allowsKey)
        ((inBlock c' (scalarToken cs :: ts) q outer true).unwind n) :=
    leads_text hkept hq (by rw [hnext]) hr (by rw [hnext]; exact Nat.lt_succ_of_lt hcolumn) hn
  exact ⟨c', hc', hcolumn', continues_space hrest (starts_scalarText _) (by omega) hleads⟩

/-- A word after a colon or a mark. -/
theorem continues_word (hword : IsWord w) (hmark : startsWithMark w = false)
    (hrest : c.rest = ' ' :: (w ++ '\n' :: (List.replicate n ' ' ++ r))) (hr : Starts r)
    (hcolumn : q < c.column) (hn : n ≤ q) :
    ∃ c', c'.rest = r ∧ c'.column = n ∧ Continues (inBlock c ts q outer allowsKey)
      ((inBlock c' (.scalar w true :: ts) q outer true).unwind n) := by
  have hnext := Cursor.next_inline hrest rfl
  obtain ⟨c', hc', hcolumn', hleads⟩ : ∃ c', c'.rest = r ∧ c'.column = n ∧
      Leads (inBlock c.next ts q outer allowsKey)
        ((inBlock c' (.scalar w true :: ts) q outer true).unwind n) :=
    leads_word hword hmark (by rw [hnext]) hr (by rw [hnext]; exact Nat.lt_succ_of_lt hcolumn) hn
  refine ⟨c', hc', hcolumn', continues_space hrest ?_ (by omega) hleads⟩
  obtain ⟨ch, w, rfl⟩ := List.exists_cons_of_ne_nil hword.nonempty
  have hsolid := hword.solid ch List.mem_cons_self
  have hinline := hword.inline ch List.mem_cons_self
  rw [isSolid, Bool.not_eq_true'] at hsolid
  rw [isInline, Bool.and_eq_true, decide_eq_true_eq] at hinline
  exact starts_cons.mpr ⟨hsolid, fun heq => hword.head (congrArg some heq), hinline.2⟩

/-- An empty collection after a colon or a mark. -/
theorem continues_empty (isMap : Bool) (hrest : c.rest = ' ' :: (flowMarks isMap).1 ::
      (flowMarks isMap).2 :: '\n' :: (List.replicate n ' ' ++ r)) (hr : Starts r)
    (hcolumn : q < c.column) :
    ∃ c', c'.rest = r ∧ c'.column = n ∧ Continues (inBlock c ts q outer allowsKey) ((inBlock c'
      ((flowTokens isMap).2 :: (flowTokens isMap).1 :: ts) q outer true).unwind n) := by
  have hnext := Cursor.next_inline hrest rfl
  obtain ⟨c', hc', hcolumn', hleads⟩ : ∃ c', c'.rest = r ∧ c'.column = n ∧
      Leads (inBlock c.next ts q outer allowsKey) ((inBlock c'
        ((flowTokens isMap).2 :: (flowTokens isMap).1 :: ts) q outer true).unwind n) :=
    leads_empty (by rw [hnext]; show (q : Int) ≠ ((c.column + 1 : Nat) : Int); omega)
      (by rw [hnext]) hr
  refine ⟨c', hc', hcolumn', continues_space hrest ?_ (by omega) hleads⟩
  cases isMap <;> exact starts_cons.mpr (by decide)

/-! ## Items and entries as they are written -/

theorem items_singleton (q : Nat) (o : Outline) : items q [o] = '-' :: (afterMark q o ++ []) := rfl

theorem items_cons (q : Nat) (o o' : Outline) (os : List Outline) :
    items q (o :: o' :: os) = '-' :: (afterMark q o ++ (newLine q ++ items q (o' :: os))) := rfl

/-- The text of one entry at a column. -/
def entryText (q : Nat) (name : String) (o : Outline) : List Char :=
  if isSimpleKey name.toList then
    simpleName q name.toList ++ ':' :: afterName q (q + (simpleName q name.toList).length + 1) o
  else longName q name.toList ++ ':' :: afterMark q o

theorem entries_singleton (q : Nat) (name : String) (o : Outline) :
    entries q [(name, o)] = entryText q name o ++ [] := rfl

theorem entries_cons (q : Nat) (name : String) (o : Outline) (e : String × Outline)
    (es : List (String × Outline)) : entries q ((name, o) :: e :: es) =
      entryText q name o ++ (newLine q ++ entries q (e :: es)) := rfl

theorem gap_afterName {o : Outline} (x : List Char) :
    isGapOrEnd ((afterName q column o ++ x).headD endMark) = true := by
  cases o with
  | text | number | flag => rfl
  | list os => cases os <;> rfl
  | record es => cases es <;> rfl

theorem exists_afterMark (q : Nat) (o : Outline) : ∃ x, afterMark q o = ' ' :: x := by
  cases o with
  | text | number | flag => exact ⟨_, rfl⟩
  | list os => cases os <;> exact ⟨_, rfl⟩
  | record es => cases es <;> exact ⟨_, rfl⟩

theorem starts_entryText {name : String} {o : Outline} (x : List Char) :
    Starts (entryText q name o ++ x) := by
  rw [entryText]
  split
  · rw [List.append_assoc]
    exact starts_scalarText _
  · exact starts_cons.mpr (by decide)

theorem starts_entries {e : String × Outline} {es : List (String × Outline)} (x : List Char) :
    Starts (entries q (e :: es) ++ x) := by
  obtain ⟨name, o⟩ := e
  cases es with
  | nil =>
    rw [entries_singleton, List.append_assoc]
    exact starts_entryText _
  | cons e es =>
    rw [entries_cons, List.append_assoc]
    exact starts_entryText _

theorem starts_items {o : Outline} {os : List Outline} (x : List Char) :
    Starts (items q (o :: os) ++ x) :=
  starts_cons.mpr (by decide)

/-! ## Outlines -/

/-- What is written after a name and its colon is read as the tokens of the value. -/
def ReadsName (o : Outline) : Prop :=
  ∀ (c : Cursor) (ts : List Token) (outer : List Int) (allowsKey : Bool) (r : List Char) (n q : Nat),
    c.rest = afterName q c.column o ++ '\n' :: (List.replicate n ' ' ++ r) → Starts r →
    q < c.column → n ≤ q → q + 2 * o.depth + 2 < maxWidth →
    ∃ c', c'.rest = r ∧ c'.column = n ∧ Continues (inBlock c ts q outer allowsKey)
      ((inBlock c' ((o.valueTokens false).reverse ++ ts) q outer true).unwind n)

/-- What is written after a mark is read as the tokens of the value. -/
def ReadsMark (o : Outline) : Prop :=
  ∀ (c : Cursor) (ts : List Token) (outer : List Int) (r : List Char) (n q : Nat),
    c.rest = afterMark q o ++ '\n' :: (List.replicate n ' ' ++ r) → Starts r →
    c.column = q + 1 → n ≤ q → q + 2 * o.depth + 2 < maxWidth →
    ∃ c', c'.rest = r ∧ c'.column = n ∧ Continues (inBlock c ts q outer true)
      ((inBlock c' ((o.valueTokens true).reverse ++ ts) q outer true).unwind n)

/-- What is written for items is read as their tokens. -/
def ReadsItems (os : List Outline) : Prop :=
  ∀ (c : Cursor) (ts ts' : List Token) (indent : Int) (outer outer' : List Int) (r : List Char)
    (n q : Nat), Opens q .blockSequenceStart indent outer ts outer' ts' → c.column = q →
    c.rest = items q os ++ '\n' :: (List.replicate n ' ' ++ r) → Starts r → n ≤ q →
    q + 2 * Outline.depthItems os + 2 < maxWidth →
    ∃ c', c'.rest = r ∧ c'.column = n ∧ Leads (inBlock c ts indent outer true)
      ((inBlock c' ((Outline.itemsTokens os).reverse ++ ts') q outer' true).unwind n)

/-- What is written for entries is read as their tokens. -/
def ReadsEntries (es : List (String × Outline)) : Prop :=
  ∀ (c : Cursor) (ts ts' : List Token) (indent : Int) (outer outer' : List Int) (r : List Char)
    (n q : Nat), Opens q .blockMappingStart indent outer ts outer' ts' → c.column = q →
    c.rest = entries q es ++ '\n' :: (List.replicate n ' ' ++ r) → Starts r → n ≤ q →
    q + 2 * Outline.depthEntries es + 2 < maxWidth →
    ∃ c', c'.rest = r ∧ c'.column = n ∧ Leads (inBlock c ts indent outer true)
      ((inBlock c' ((Outline.entriesTokens es).reverse ++ ts') q outer' true).unwind n)

/-! ### Items and entries -/

/-- A hyphen and its value. -/
theorem leads_item {o : Outline} (ho : ReadsMark o)
    (hopens : Opens q .blockSequenceStart indent outer ts outer' ts') (hcolumn : c.column = q)
    (hrest : c.rest = '-' :: (afterMark q o ++ '\n' :: (List.replicate n ' ' ++ r)))
    (hr : Starts r) (hn : n ≤ q) (hdepth : q + 2 * o.depth + 2 < maxWidth) :
    ∃ c', c'.rest = r ∧ c'.column = n ∧ Leads (inBlock c ts indent outer true)
      ((inBlock c' ((Outline.itemsTokens [o]).reverse ++ ts') q outer' true).unwind n) := by
  obtain ⟨y, hy⟩ := exists_afterMark q o
  have hrest' : c.rest = '-' :: ' ' :: (y ++ '\n' :: (List.replicate n ' ' ++ r)) := by
    rw [hrest, hy]
    rfl
  have hnext := Cursor.next_inline hrest rfl
  obtain ⟨c', hc', hcolumn', h⟩ := ho c.next (.blockEntry :: ts') outer' r n q (by rw [hnext]) hr
    (by rw [hnext, hcolumn]) hn hdepth
  refine ⟨c', hc', hcolumn', leads_of_continues (takes_item hopens hcolumn hrest') rfl ?_ ?_⟩
  · exact Cursor.length_next_lt hrest'
  · rw [Outline.itemsTokens, Outline.itemsTokens, List.append_nil, List.reverse_cons,
      List.append_assoc]
    exact h

theorem readsItems_singleton {o : Outline} (ho : ReadsMark o) : ReadsItems [o] := by
  intro c ts ts' indent outer outer' r n q hopens hcolumn hrest hr hn hdepth
  rw [items_singleton, List.append_nil] at hrest
  rw [Outline.depthItems, Outline.depthItems, Nat.max_zero] at hdepth
  exact leads_item ho hopens hcolumn hrest hr hn hdepth

theorem readsItems_cons {o o' : Outline} {os : List Outline} (ho : ReadsMark o)
    (hos : ReadsItems (o' :: os)) : ReadsItems (o :: o' :: os) := by
  intro c ts ts' indent outer outer' r n q hopens hcolumn hrest hr hn hdepth
  rw [items_cons, List.cons_append, List.append_assoc, List.append_assoc] at hrest
  rw [Outline.depthItems] at hdepth
  obtain ⟨d, hd, hcolumn', hitem⟩ := leads_item ho hopens hcolumn hrest (starts_items _)
    (Nat.le_refl q) (by omega)
  rw [unwind_self] at hitem
  obtain ⟨c', hc', hcolumn'', hitems⟩ := hos d _ _ q outer' outer' r n q (.here _ _) hcolumn' hd hr hn
    (by omega)
  refine ⟨c', hc', hcolumn'', hitem.trans ?_⟩
  have htokens : Outline.itemsTokens (o :: o' :: os) =
      Outline.itemsTokens [o] ++ Outline.itemsTokens (o' :: os) := by
    rw [Outline.itemsTokens, Outline.itemsTokens.eq_2 o [], Outline.itemsTokens.eq_1,
      List.append_nil, List.cons_append]
  rw [htokens, List.reverse_append, List.append_assoc]
  exact hitems

/-- A name and its value. -/
theorem leads_entry {name : String} {o : Outline} (hname : Outline.IsReadableName name.toList)
    (ho : ReadsName o) (ho' : ReadsMark o)
    (hopens : Opens q .blockMappingStart indent outer ts outer' ts') (hcolumn : c.column = q)
    (hrest : c.rest = entryText q name o ++ '\n' :: (List.replicate n ' ' ++ r))
    (hr : Starts r) (hn : n ≤ q) (hdepth : q + 2 * o.depth + 2 < maxWidth) :
    ∃ c', c'.rest = r ∧ c'.column = n ∧ Leads (inBlock c ts indent outer true)
      ((inBlock c' ((Outline.entriesTokens [(name, o)]).reverse ++ ts') q outer' true).unwind n) := by
  have htokens (own : Bool) : (Token.key :: scalarToken name.toList :: .value ::
      (o.valueTokens own ++ [])).reverse ++ ts' = (o.valueTokens own).reverse ++
        .value :: scalarToken name.toList :: .key :: ts' := by simp
  rw [Outline.entriesTokens, Outline.entriesTokens, htokens]
  rw [entryText] at hrest
  by_cases hsimple : isSimpleKey name.toList = true
  · rw [if_pos hsimple, List.append_assoc, List.cons_append] at hrest
    rw [hsimple]
    have hline : isMultiline name.toList = false := by
      simp only [isSimpleKey, Bool.and_eq_true, Bool.not_eq_true'] at hsimple
      exact hsimple.2
    have hshort : (simpleName q name.toList).length ≤ maxKeyLength := by
      have hsame : simpleName q name.toList = simpleName 0 name.toList := scalarText_line rfl rfl hline
      rw [hsame]
      exact hname.short hsimple
    obtain ⟨d, hd, hdcolumn, hkey⟩ := leads_simpleName hname.kept hsimple hshort hopens hcolumn
      hrest (gap_afterName _)
    rw [← hdcolumn] at hd
    obtain ⟨c', hc', hcolumn', h⟩ := ho d _ outer' false r n q hd hr (by omega) hn hdepth
    exact ⟨c', hc', hcolumn', hkey _ h⟩
  · rw [if_neg hsimple, List.append_assoc, List.cons_append] at hrest
    rw [Bool.eq_false_iff.mpr hsimple]
    have hgap : isGapOrEnd ((afterMark q o ++ '\n' :: (List.replicate n ' ' ++ r)).headD endMark) =
        true := by
      obtain ⟨y, hy⟩ := exists_afterMark q o
      rw [hy]
      rfl
    obtain ⟨d, hd, hdcolumn, hkey⟩ := leads_longName hname.kept (by omega) hopens hcolumn hrest hgap
    obtain ⟨c', hc', hcolumn', h⟩ := ho' d _ outer' r n q hd hr hdcolumn hn hdepth
    exact ⟨c', hc', hcolumn', hkey _ h⟩

theorem readsEntries_singleton {name : String} {o : Outline}
    (hname : Outline.IsReadableName name.toList) (ho : ReadsName o) (ho' : ReadsMark o) :
    ReadsEntries [(name, o)] := by
  intro c ts ts' indent outer outer' r n q hopens hcolumn hrest hr hn hdepth
  rw [entries_singleton, List.append_nil] at hrest
  rw [Outline.depthEntries, Outline.depthEntries, Nat.max_zero] at hdepth
  exact leads_entry hname ho ho' hopens hcolumn hrest hr hn hdepth

theorem readsEntries_cons {name : String} {o : Outline} {e : String × Outline}
    {es : List (String × Outline)} (hname : Outline.IsReadableName name.toList) (ho : ReadsName o)
    (ho' : ReadsMark o) (hes : ReadsEntries (e :: es)) : ReadsEntries ((name, o) :: e :: es) := by
  intro c ts ts' indent outer outer' r n q hopens hcolumn hrest hr hn hdepth
  rw [entries_cons, List.append_assoc, List.append_assoc] at hrest
  rw [Outline.depthEntries] at hdepth
  obtain ⟨d, hd, hcolumn', hentry⟩ := leads_entry hname ho ho' hopens hcolumn hrest
    (starts_entries _) (Nat.le_refl q) (by omega)
  rw [unwind_self] at hentry
  obtain ⟨c', hc', hcolumn'', hentries⟩ := hes d _ _ q outer' outer' r n q (.here _ _) hcolumn' hd hr
    hn (by omega)
  refine ⟨c', hc', hcolumn'', hentry.trans ?_⟩
  have htokens : Outline.entriesTokens ((name, o) :: e :: es) =
      Outline.entriesTokens [(name, o)] ++ Outline.entriesTokens (e :: es) := by
    rw [Outline.entriesTokens, Outline.entriesTokens.eq_2 name o [], Outline.entriesTokens.eq_1,
      List.append_nil]
    rfl
  rw [htokens, List.reverse_append, List.append_assoc]
  exact hentries

/-! ### Collections -/

theorem readsName_list {o : Outline} {os : List Outline} (h : ReadsItems (o :: os)) :
    ReadsName (.list (o :: os)) := by
  intro c ts outer allowsKey r n q hrest hr hcolumn hn hdepth
  rw [afterName, List.append_assoc] at hrest
  rw [Outline.depth] at hdepth
  obtain ⟨d, hd, hdcolumn, hline⟩ := continues_newline hrest (starts_items _)
  obtain ⟨c', hc', hcolumn', hitems⟩ := h d ts ts q outer outer r n q (.here _ _) hdcolumn hd hr hn
    (by omega)
  exact ⟨c', hc', hcolumn', hline (Int.le_refl q) hitems⟩

/-- The tokens of a block with all around it that closes with it. -/
theorem unwind_block {t : Token} (tokens : List Token) (hn : n < q) {k : Nat} :
    (inBlock c (tokens.reverse ++ t :: ts) q (k :: outer) true).unwind n =
      (inBlock c ((t :: (tokens ++ [.blockEnd])).reverse ++ ts) k outer true).unwind n := by
  rw [unwind_of_lt (Int.ofNat_lt.mpr hn)]
  simp

theorem readsMark_list {o : Outline} {os : List Outline} (h : ReadsItems (o :: os)) :
    ReadsMark (.list (o :: os)) := by
  intro c ts outer r n q hrest hr hcolumn hn hdepth
  rw [afterMark, List.cons_append] at hrest
  rw [Outline.depth] at hdepth
  have hnext := Cursor.next_inline hrest rfl
  obtain ⟨c', hc', hcolumn', hitems⟩ := h c.next ts (.blockSequenceStart :: ts) q outer (q :: outer) r n
    (q + 2) (.new _ _ (by omega)) (by rw [hnext, hcolumn]) (by rw [hnext]) hr (by omega) (by omega)
  rw [unwind_block _ (by omega)] at hitems
  exact ⟨c', hc', hcolumn', continues_space hrest (starts_items _) (by omega) hitems⟩

theorem readsName_record {e : String × Outline} {es : List (String × Outline)}
    (h : ReadsEntries (e :: es)) : ReadsName (.record (e :: es)) := by
  intro c ts outer allowsKey r n q hrest hr hcolumn hn hdepth
  rw [afterName, List.append_assoc] at hrest
  rw [Outline.depth] at hdepth
  obtain ⟨d, hd, hdcolumn, hline⟩ := continues_newline hrest (starts_entries _)
  obtain ⟨c', hc', hcolumn', hentries⟩ := h d ts (.blockMappingStart :: ts) q outer (q :: outer) r n
    (q + 2) (.new _ _ (by omega)) hdcolumn hd hr (by omega) (by omega)
  rw [unwind_block _ (by omega)] at hentries
  exact ⟨c', hc', hcolumn', hline (by omega) hentries⟩

theorem readsMark_record {e : String × Outline} {es : List (String × Outline)}
    (h : ReadsEntries (e :: es)) : ReadsMark (.record (e :: es)) := by
  intro c ts outer r n q hrest hr hcolumn hn hdepth
  rw [afterMark, List.cons_append] at hrest
  rw [Outline.depth] at hdepth
  have hnext := Cursor.next_inline hrest rfl
  obtain ⟨c', hc', hcolumn', hentries⟩ := h c.next ts (.blockMappingStart :: ts) q outer (q :: outer) r
    n (q + 2) (.new _ _ (by omega)) (by rw [hnext, hcolumn]) (by rw [hnext]) hr (by omega) (by omega)
  rw [unwind_block _ (by omega)] at hentries
  exact ⟨c', hc', hcolumn', continues_space hrest (starts_entries _) (by omega) hentries⟩

/-! ### All values -/

mutual

/-- A value after a name is read as its tokens. -/
theorem readsName : ∀ o : Outline, o.Readable → ReadsName o
  | .text _, h => fun _ _ _ _ _ _ _ hrest hr hcolumn hn hdepth =>
    continues_text h hdepth hrest hr hcolumn hn
  | .number k, _ => fun _ _ _ _ _ _ _ hrest hr hcolumn hn _ =>
    continues_word (isWord_decimalDigits k).1 (isWord_decimalDigits k).2 hrest hr hcolumn hn
  | .flag b, _ => fun _ _ _ _ _ _ _ hrest hr hcolumn hn _ =>
    continues_word (isWord_flag b).1 (isWord_flag b).2 hrest hr hcolumn hn
  | .list [], _ => fun _ _ _ _ _ _ _ hrest hr hcolumn _ _ =>
    continues_empty false hrest hr hcolumn
  | .record [], _ => fun _ _ _ _ _ _ _ hrest hr hcolumn _ _ =>
    continues_empty true hrest hr hcolumn
  | .list (o :: os), h => readsName_list (readsItems (o :: os) h (List.cons_ne_nil _ _))
  | .record (e :: es), h => readsName_record (readsEntries (e :: es) h.2 (List.cons_ne_nil _ _))

/-- A value after a mark is read as its tokens. -/
theorem readsMark : ∀ o : Outline, o.Readable → ReadsMark o
  | .text _, h => fun _ _ _ _ _ _ hrest hr hcolumn hn hdepth =>
    continues_text h hdepth hrest hr (by omega) hn
  | .number k, _ => fun _ _ _ _ _ _ hrest hr hcolumn hn _ =>
    continues_word (isWord_decimalDigits k).1 (isWord_decimalDigits k).2 hrest hr (by omega) hn
  | .flag b, _ => fun _ _ _ _ _ _ hrest hr hcolumn hn _ =>
    continues_word (isWord_flag b).1 (isWord_flag b).2 hrest hr (by omega) hn
  | .list [], _ => fun _ _ _ _ _ _ hrest hr hcolumn _ _ =>
    continues_empty false hrest hr (by omega)
  | .record [], _ => fun _ _ _ _ _ _ hrest hr hcolumn _ _ =>
    continues_empty true hrest hr (by omega)
  | .list (o :: os), h => readsMark_list (readsItems (o :: os) h (List.cons_ne_nil _ _))
  | .record (e :: es), h => readsMark_record (readsEntries (e :: es) h.2 (List.cons_ne_nil _ _))

/-- Items are read as their tokens. -/
theorem readsItems : ∀ os : List Outline, Outline.ReadableItems os → os ≠ [] → ReadsItems os
  | [], _ => fun h => absurd rfl h
  | [o], h => fun _ => readsItems_singleton (readsMark o h.1)
  | o :: o' :: os, h => fun _ =>
    readsItems_cons (readsMark o h.1) (readsItems (o' :: os) h.2 (List.cons_ne_nil _ _))

/-- Entries are read as their tokens. -/
theorem readsEntries : ∀ es : List (String × Outline), Outline.ReadableEntries es → es ≠ [] →
    ReadsEntries es
  | [], _ => fun h => absurd rfl h
  | [(_, o)], h => fun _ => readsEntries_singleton h.1 (readsName o h.2.1) (readsMark o h.2.1)
  | (_, o) :: e :: es, h => fun _ =>
    readsEntries_cons h.1 (readsName o h.2.1) (readsMark o h.2.1)
      (readsEntries (e :: es) h.2.2 (List.cons_ne_nil _ _))

end

/-- The tokens of a document are those of its record. -/
theorem tokens_entries {es : List (String × Outline)} (hread : Outline.ReadableEntries es)
    (hne : es ≠ []) (hdepth : 2 * Outline.depthEntries es + 2 < maxWidth) :
    Tokens.ofText (entries 0 es ++ ['\n']) = ⟨.blockMappingStart ::
      (Outline.entriesTokens es ++ [.blockEnd, .streamEnd]), none⟩ := by
  obtain ⟨e, es, rfl⟩ := List.exists_cons_of_ne_nil hne
  have hrest : (Cursor.start (entries 0 (e :: es) ++ ['\n'])).rest =
      entries 0 (e :: es) ++ '\n' :: (List.replicate 0 ' ' ++ []) := rfl
  obtain ⟨c, hc, -, hleads⟩ := readsEntries (e :: es) hread hne _ [] [.blockMappingStart] (-1) []
    [-1] [] 0 0 (.new _ _ (by decide)) rfl hrest starts_nil (Nat.le_refl 0) (by omega)
  have hunwind : (inBlock c ((Outline.entriesTokens (e :: es)).reverse ++ [.blockMappingStart])
      (0 : Nat) [-1] true).unwind (0 : Nat) = inBlock c
        ((Outline.entriesTokens (e :: es)).reverse ++ [.blockMappingStart]) 0 [-1] true :=
    unwind_self
  rw [hunwind] at hleads
  rw [ofText_of_yields (starts_entries _) (hleads _ (yields_end hc))]
  simp

end Yaml.Lexer

end OpeningHand
