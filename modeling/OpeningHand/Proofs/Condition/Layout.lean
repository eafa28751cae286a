import OpeningHand.Proofs.Condition.Tree
import Mathlib.Data.List.Forall2

/-!
# Layout

Blanks between tokens make no difference to what a text is read as. Two texts with the same tokens,
place aside (`lexemes`), are read side by side: their readers stay alike item by item
(`Reader.read_agree`), although positions differ and names are cut out of different texts. So both
are read as the same condition, up to the blanks inside names (`Condition.spaced`), or both are
refused for the same reason (`parse_agree`).
-/

namespace OpeningHand.Condition

/-! ## Blanks in names -/

/-- The characters with one space for every run of blanks; after a blank its run goes on. -/
def squeezeFrom (afterBlank : Bool) : List Char → List Char
  | [] => []
  | c :: cs =>
    if Text.isBlank c then
      if afterBlank then squeezeFrom true cs else ' ' :: squeezeFrom true cs
    else c :: squeezeFrom false cs

/-- A text with one space for every run of blanks. -/
def squeeze (name : String) : String :=
  String.ofList (squeezeFrom false name.toList)

mutual

/-- A condition with one space for every run of blanks inside its names. -/
def spaced : Condition → Condition
  | .card test => .card { test with name := squeeze test.name }
  | .group k members => .group k (spacedAll members)

/-- `spaced` for every condition of a list. -/
def spacedAll : List Condition → List Condition
  | [] => []
  | c :: cs => c.spaced :: spacedAll cs

end

theorem spacedAll_eq_map (cs : List Condition) : spacedAll cs = cs.map spaced := by
  induction cs with
  | nil => rfl
  | cons c cs ih => rw [spacedAll, ih, List.map_cons]

theorem squeezeFrom_run {w : List Char} (inner : ∀ c ∈ w, isInner c = true) (ne : w ≠ [])
    (afterBlank : Bool) (rest : List Char) :
    squeezeFrom afterBlank (w ++ rest) = w ++ squeezeFrom false rest := by
  induction w generalizing afterBlank with
  | nil => exact absurd rfl ne
  | cons c w ih =>
    obtain ⟨hc, hw⟩ := List.forall_mem_cons.mp inner
    rw [List.cons_append, squeezeFrom, isBlank_of_isInner hc, if_neg Bool.false_ne_true,
      List.cons_append]
    cases w with
    | nil => rfl
    | cons d w => rw [ih hw (List.cons_ne_nil d w)]

theorem squeezeFrom_blanks {gap : List Char} (blank : ∀ c ∈ gap, Text.isBlank c = true)
    (rest : List Char) : squeezeFrom true (gap ++ rest) = squeezeFrom true rest := by
  induction gap with
  | nil => rfl
  | cons c gap ih =>
    obtain ⟨hc, hgap⟩ := List.forall_mem_cons.mp blank
    rw [List.cons_append, squeezeFrom, if_pos hc, if_pos rfl, ih hgap]

theorem squeezeFrom_gap {gap : List Char} (blank : ∀ c ∈ gap, Text.isBlank c = true)
    (ne : gap ≠ []) (rest : List Char) :
    squeezeFrom false (gap ++ rest) = ' ' :: squeezeFrom true rest := by
  cases gap with
  | nil => exact absurd rfl ne
  | cons c gap =>
    obtain ⟨hc, hgap⟩ := List.forall_mem_cons.mp blank
    rw [List.cons_append, squeezeFrom, if_pos hc, if_neg Bool.false_ne_true,
      squeezeFrom_blanks hgap]

/-- Words and the blanks between them, after a run that ends, with one space for each gap. -/
theorem Laid.squeezeFrom_eq {p : Nat} {cs : List Char} {ts : List Token} (h : Laid p cs ts)
    (words : ∀ t ∈ ts, t.kind = .word) (ends : EndsRun cs)
    (last : ∀ c ∈ cs.getLast?, Text.isBlank c = false) :
    squeezeFrom false cs = ts.flatMap fun t => ' ' :: t.chars := by
  induction h with
  | @done p gap blank =>
    cases hlast : gap.getLast? with
    | none =>
      rw [List.getLast?_eq_none_iff.mp hlast]
      rfl
    | some c =>
      have := blank c (List.mem_of_getLast? hlast)
      rw [last c hlast] at this
      cases this
  | opening => cases words _ List.mem_cons_self
  | closing => cases words _ List.mem_cons_self
  | @run p gap w rest ts blank ne inner restEnds more ih =>
    obtain ⟨_, words⟩ := List.forall_mem_cons.mp words
    -- the run before has ended, so a blank must come before the next word
    have hgap : gap ≠ [] := by
      rintro rfl
      obtain ⟨c, w, rfl⟩ := List.exists_cons_of_ne_nil ne
      have := ends c rfl
      rw [inner c List.mem_cons_self] at this
      cases this
    have hrest : ∀ c ∈ rest.getLast?, Text.isBlank c = false := by
      intro c hc
      refine last c ?_
      rw [List.getLast?_append, List.getLast?_append, Option.mem_def.mp hc]
      rfl
    rw [squeezeFrom_gap blank hgap, squeezeFrom_run inner ne, ih words restEnds hrest,
      List.flatMap_cons, List.cons_append]

/-- A name that is cut out of a text, with single spaces, is its words with single spaces. -/
theorem squeeze_slice {s : String} {before after more : List Token} {first : Token}
    (h : tokens s = before ++ (first :: more ++ after))
    (words : ∀ t ∈ first :: more, t.kind = .word) :
    squeeze (slice s.toList first more) =
      String.ofList (first.chars ++ more.flatMap fun t => ' ' :: t.chars) := by
  obtain ⟨laid, stop⟩ := laid_slice h
  obtain ⟨last, hlast, hblank⟩ := laid.ends_iff.mpr stop
  obtain ⟨word, more_words⟩ := List.forall_mem_cons.mp words
  obtain ⟨rest, hname, ne, inner, ends, tail⟩ := laid.head_word word
  have hrest : ∀ c ∈ rest.getLast?, Text.isBlank c = false := by
    intro c hc
    rw [hname, List.getLast?_append, Option.mem_def.mp hc] at hlast
    exact Option.some.inj hlast ▸ hblank
  rw [squeeze, hname, squeezeFrom_run inner ne, tail.squeezeFrom_eq more_words ends hrest]

/-! ## Runs that agree -/

/-- Two readings end alike: each with a result, and the results are related, or both with the same
reason, wherever in the text. -/
inductive Agree {α β : Type} (R : α → β → Prop) : Except ReadError α → Except ReadError β → Prop
  | ok {a b} (related : R a b) : Agree R (.ok a) (.ok b)
  | fault {f p q} : Agree R (.error (.fault f p)) (.error (.fault f q))
  | tooManyDigits {n} : Agree R (.error (.tooManyDigits n)) (.error (.tooManyDigits n))

theorem Agree.bind {α β α' β' : Type} {R : α → β → Prop} {S : α' → β' → Prop}
    {x : Except ReadError α} {y : Except ReadError β} {f : α → Except ReadError α'}
    {g : β → Except ReadError β'} (h : Agree R x y) (hf : ∀ a b, R a b → Agree S (f a) (g b)) :
    Agree S (x >>= f) (y >>= g) := by
  cases h with
  | ok related => exact hf _ _ related
  | fault => exact .fault
  | tooManyDigits => exact .tooManyDigits

theorem agree_refl {α : Type} (x : Except ReadError α) : Agree Eq x x := by
  cases x with
  | ok a => exact .ok rfl
  | error e => cases e <;> constructor

/-! ## Phrases and items -/

/-- Tokens of the same kind and the same characters, wherever they stand. -/
def Token.Alike (t u : Token) : Prop :=
  t.kind = u.kind ∧ t.chars = u.chars

theorem words_of_alike {ts us : List Token} (h : List.Forall₂ Token.Alike ts us)
    (words : ∀ u ∈ us, u.kind = .word) : ∀ t ∈ ts, t.kind = .word := by
  induction h with
  | nil => exact words
  | cons h _ ih =>
    obtain ⟨word, words⟩ := List.forall_mem_cons.mp words
    exact List.forall_mem_cons.mpr ⟨h.1.trans word, ih words⟩

theorem ends_of_alike {ts us : List Token} (h : List.Forall₂ Token.Alike ts us)
    (ends : Ends us) : Ends ts := by
  cases h with
  | nil => exact ends
  | cons h _ => exact ends_cons (h.1 ▸ ends _ rfl)

/-- Conditions that differ in the blanks inside names at most. -/
def Alike (c d : Condition) : Prop :=
  c.spaced = d.spaced

/-- Words that stand together in a text. -/
def Together (s : String) (first : Token) (more : List Token) : Prop :=
  (∃ before after, tokens s = before ++ (first :: more ++ after)) ∧
    ∀ t ∈ first :: more, t.kind = .word

theorem Together.tail {s : String} {first second : Token} {more : List Token}
    (h : Together s first (second :: more)) : Together s second more := by
  obtain ⟨⟨before, after, h⟩, words⟩ := h
  refine ⟨⟨before ++ [first], after, ?_⟩, (List.forall_mem_cons.mp words).2⟩
  rw [h, List.append_assoc]
  rfl

variable {s t : String}

theorem squeeze_slice_alike {first first' : Token} {more more' : List Token}
    (here : Together s first more) (there : Together t first' more')
    (chars : first.chars = first'.chars) (alike : List.Forall₂ Token.Alike more more') :
    squeeze (slice s.toList first more) = squeeze (slice t.toList first' more') := by
  obtain ⟨⟨_, _, hs⟩, words⟩ := here
  obtain ⟨⟨_, _, ht⟩, words'⟩ := there
  have hmore : (more.flatMap fun u => ' ' :: u.chars) = more'.flatMap fun u => ' ' :: u.chars := by
    clear hs ht words words'
    induction alike with
    | nil => rfl
    | cons h _ ih => rw [List.flatMap_cons, List.flatMap_cons, h.2, ih]
  rw [squeeze_slice hs words, squeeze_slice ht words', chars, hmore]

/-- Alike words in two texts are read alike: a quantity is read off the first word, and the names
differ in their blanks at most. -/
theorem readPhrase_agree {first first' : Token} {more more' : List Token}
    (here : Together s first more) (there : Together t first' more')
    (chars : first.chars = first'.chars) (alike : List.Forall₂ Token.Alike more more') :
    Agree (fun a b => Alike (.card a) (.card b)) (readPhrase s.toList first more)
      (readPhrase t.toList first' more') := by
  have named (n : Nat) (b : Bound) : Alike (.card ⟨slice s.toList first more, n, b⟩)
      (.card ⟨slice t.toList first' more', n, b⟩) := by
    simp only [Alike, spaced, squeeze_slice_alike here there chars alike]
  unfold readPhrase
  rw [chars]
  -- what is read depends on the first word and on whether another one follows
  cases alike with
  | nil =>
    cases Lead.ofWord first'.chars with
    | count digits => exact .ok (named 1 .exactly)
    | least digits => exact (agree_refl _).bind fun _ _ _ => .fault
    | glued => exact .fault
    | name => exact .ok (named 1 .exactly)
  | @cons second second' more more' hsecond hmore =>
    have counted (n : Nat) (b : Bound) : Alike (.card ⟨slice s.toList second more, n, b⟩)
        (.card ⟨slice t.toList second' more', n, b⟩) := by
      simp only [Alike, spaced, squeeze_slice_alike here.tail there.tail hsecond.2 hmore]
    cases Lead.ofWord first'.chars with
    | count digits => exact (agree_refl _).bind fun n _ hn => hn ▸ .ok (counted n .exactly)
    | least digits => exact (agree_refl _).bind fun n _ hn => hn ▸ .ok (counted n .atLeast)
    | glued => exact .fault
    | name => exact .ok (named 1 .exactly)

/-- Items that are read alike in two texts. -/
inductive Item.Alike (s t : String) : Item → Item → Prop
  | opening {p q} : Alike s t (.opening p) (.opening q)
  | closing {p q} : Alike s t (.closing p) (.closing q)
  | connective {k p q} : Alike s t (.connective k p) (.connective k q)
  | phrase {first first' more more'} (chars : first.chars = first'.chars)
      (tests : Agree (fun a b => Condition.Alike (.card a) (.card b))
        (readPhrase s.toList first more) (readPhrase t.toList first' more')) :
      Alike s t (.phrase first more) (.phrase first' more')

/-- Tokens of one text that are like those of another have items like theirs. The induction is on
the items of the other text. -/
theorem Cut.alike {us : List Token} {items : List Item} (h : Cut us items) :
    ∀ {ts before before' : List Token}, List.Forall₂ Token.Alike ts us → tokens s = before ++ ts →
      tokens t = before' ++ us → List.Forall₂ (Item.Alike s t) (Item.ofTokens ts) items := by
  induction h with
  | nil =>
    intro ts _ _ alike _ _
    cases alike
    exact .nil
  | opening kind _ ih =>
    intro ts before before' alike hs ht
    cases alike with
    | cons h alike =>
      rw [List.append_cons] at hs ht
      rw [ofTokens_opening (h.1.trans kind)]
      exact .cons .opening (ih alike hs ht)
  | closing kind _ ih =>
    intro ts before before' alike hs ht
    cases alike with
    | cons h alike =>
      rw [List.append_cons] at hs ht
      rw [ofTokens_closing (h.1.trans kind)]
      exact .cons .closing (ih alike hs ht)
  | connective kind _ ih =>
    intro ts before before' alike hs ht
    cases alike with
    | cons h alike =>
      rw [List.append_cons] at hs ht
      rw [ofTokens_connective (h.1.trans kind)]
      exact .cons .connective (ih alike hs ht)
  | @phrase first' words' us items kind' ends' _ ih =>
    intro ts before before' alike hs ht
    cases alike with
    | @cons first _ ts _ h alike =>
      obtain ⟨words, rest, rfl, hwords, hrest⟩ : ∃ words rest, ts = words ++ rest ∧
          List.Forall₂ Token.Alike words words' ∧ List.Forall₂ Token.Alike rest us :=
        ⟨_, _, (List.take_append_drop words'.length ts).symm,
          List.forall₂_take_append ts words' us alike, List.forall₂_drop_append ts words' us alike⟩
      have kind := words_of_alike (.cons h hwords) kind'
      rw [ofTokens_phrase kind (ends_of_alike hrest ends')]
      have tests := readPhrase_agree ⟨⟨before, rest, hs⟩, kind⟩ ⟨⟨before', us, ht⟩, kind'⟩ h.2 hwords
      refine .cons (.phrase h.2 tests) (@ih rest (before ++ first :: words)
        (before' ++ first' :: words') hrest ?_ ?_)
      · rw [hs, List.append_assoc, List.cons_append]
      · rw [ht, List.append_assoc, List.cons_append]

/-! ## Readers -/

/-- Levels at which the same was read, wherever they were opened. -/
structure Level.Alike (l m : Level) : Prop where
  opener : Option.Rel (fun _ _ => True) l.opener m.opener
  connective : l.connective = m.connective
  members : List.Forall₂ Condition.Alike l.members m.members

/-- Readers that have read the same, wherever they stand. -/
structure Reader.Alike (r q : Reader) : Prop where
  level : r.level.Alike q.level
  outer : List.Forall₂ Level.Alike r.outer q.outer
  wantsTerm : r.wantsTerm = q.wantsTerm

theorem Level.Alike.add {l m : Level} {c d : Condition} (h : l.Alike m) (alike : c.Alike d) :
    (l.add c).Alike (m.add d) :=
  ⟨h.opener, h.connective, .cons alike h.members⟩

theorem alike_group {k : Connective} {cs ds : List Condition}
    (h : List.Forall₂ Condition.Alike cs ds) : Alike (.group k cs) (.group k ds) := by
  have hmap : cs.map spaced = ds.map spaced := by
    rw [← List.forall₂_eq_eq_eq, List.forall₂_map_left_iff, List.forall₂_map_right_iff]
    exact h
  rw [Alike, spaced, spaced, spacedAll_eq_map, spacedAll_eq_map, hmap]

theorem Level.Alike.close {l m : Level} (h : l.Alike m) :
    Option.Rel Condition.Alike l.close m.close := by
  obtain ⟨opener, connective, members⟩ := l
  obtain ⟨opener', connective', members'⟩ := m
  obtain ⟨-, rfl, hmembers⟩ := h
  dsimp only at hmembers
  cases connective with
  | some k => exact .some (alike_group (List.rel_reverse hmembers))
  | none =>
    cases hmembers with
    | nil => exact .none
    | cons h _ => exact .some h

/-- Where a term must come, alike items do the same to alike readers. Positions differ, so of the
levels only whether they were opened, and how many there are, may decide. -/
theorem Reader.readTerm_agree {r q : Reader} {item item' : Item} (h : r.Alike q)
    (alike : item.Alike s t item') :
    Agree Reader.Alike (r.readTerm s.toList item) (q.readTerm t.toList item') := by
  obtain ⟨⟨opener, connective, members⟩, outer, wantsTerm⟩ := r
  obtain ⟨⟨opener', connective', members'⟩, outer', wantsTerm'⟩ := q
  obtain ⟨⟨hopener, hconnective, hmembers⟩, houter, -⟩ := h
  cases alike with
  | phrase chars tests =>
    exact tests.bind fun a b hab =>
      .ok ⟨Level.Alike.add ⟨hopener, hconnective, hmembers⟩ hab, houter, rfl⟩
  | opening =>
    simp only [readTerm, houter.length_eq]
    split
    · exact .fault
    · exact .ok ⟨⟨.some trivial, rfl, .nil⟩, .cons ⟨hopener, hconnective, hmembers⟩ houter, rfl⟩
  | closing =>
    dsimp only at hopener hmembers
    cases hopener <;> cases hmembers <;> exact .fault
  | connective => exact .fault

/-- After a term, alike items do the same to alike readers. -/
theorem Reader.readLink_agree {r q : Reader} {item item' : Item} (h : r.Alike q)
    (alike : item.Alike s t item') :
    Agree Reader.Alike (r.readLink item) (q.readLink item') := by
  obtain ⟨⟨opener, connective, members⟩, outer, wantsTerm⟩ := r
  obtain ⟨⟨opener', connective', members'⟩, outer', wantsTerm'⟩ := q
  have hclose := h.level.close
  obtain ⟨⟨hopener, rfl, hmembers⟩, houter, -⟩ := h
  dsimp only at hopener hmembers houter
  cases alike with
  | phrase chars tests =>
    cases hopener with
    | some => exact .fault
    | none =>
      simp only [readLink, Item.word, chars]
      exact .fault
  | opening => cases hopener <;> exact .fault
  | @connective k =>
    cases connective with
    | none => exact .ok ⟨⟨hopener, rfl, hmembers⟩, houter, rfl⟩
    | some first =>
      simp only [readLink]
      split
      · exact .ok ⟨⟨hopener, rfl, hmembers⟩, houter, rfl⟩
      · exact .fault
  | closing =>
    simp only [readLink]
    cases houter with
    | nil => exact .fault
    | cons hlevel houter =>
      generalize Level.close ⟨opener, connective, members⟩ = c at hclose
      generalize Level.close ⟨opener', connective, members'⟩ = d at hclose
      cases hclose with
      | some h => exact .ok ⟨hlevel.add h, houter, rfl⟩
      | none => exact .fault

theorem Reader.read_agree {r q : Reader} {item item' : Item} (h : r.Alike q)
    (alike : item.Alike s t item') :
    Agree Reader.Alike (r.read s.toList item) (q.read t.toList item') := by
  unfold read
  rw [h.wantsTerm]
  split
  · exact readTerm_agree h alike
  · exact readLink_agree h alike

theorem Reader.readAll_agree {items items' : List Item}
    (alike : List.Forall₂ (Item.Alike s t) items items') :
    ∀ {r q : Reader}, r.Alike q →
      Agree Reader.Alike (r.readAll s.toList items) (q.readAll t.toList items') := by
  induction alike with
  | nil => exact fun h => .ok h
  | cons hitem _ ih => exact fun h => (read_agree h hitem).bind fun _ _ => ih

theorem Reader.finish_agree {r q : Reader} (h : r.Alike q) :
    Agree Condition.Alike (r.finish s.toList) (q.finish t.toList) := by
  have hclose := h.level.close
  have hopener := h.level.opener
  unfold finish
  rw [h.wantsTerm]
  split
  · exact .fault
  · generalize r.level.close = c at hclose
    generalize q.level.close = d at hclose
    generalize r.level.opener = opener at hopener
    generalize q.level.opener = opener' at hopener
    cases hopener with
    | some => exact .fault
    | none =>
      cases hclose with
      | some h => exact .ok h
      | none => exact .fault

/-! ## Texts -/

/-- The tokens of a text, place aside. -/
def lexemes (text : String) : List (TokenKind × List Char) :=
  (tokens text).map fun t => (t.kind, t.chars)

theorem alike_of_lexemes (h : lexemes s = lexemes t) :
    List.Forall₂ Token.Alike (tokens s) (tokens t) := by
  rw [lexemes, lexemes, ← List.forall₂_eq_eq_eq, List.forall₂_map_left_iff,
    List.forall₂_map_right_iff] at h
  exact h.imp fun _ _ => Prod.mk.inj

/-- Two texts with the same tokens are read as the same condition, but for the blanks inside names,
or they are refused for the same reason. -/
theorem parse_agree (h : lexemes s = lexemes t) : Agree Alike (parse s) (parse t) := by
  have alike := alike_of_lexemes h
  by_cases hs : tokens s = []
  · rw [hs] at alike
    rw [parse_of_no_tokens hs, parse_of_no_tokens (List.forall₂_nil_left_iff.mp alike)]
    exact .fault
  · have ht : tokens t ≠ [] := fun ht => hs (by rwa [ht, List.forall₂_nil_right_iff] at alike)
    have items := (cut_ofTokens (tokens t)).alike alike (List.nil_append _).symm
      (List.nil_append _).symm
    have start : Reader.start.Alike Reader.start := ⟨⟨.none, rfl, .nil⟩, .nil, rfl⟩
    rw [parse_of_tokens hs, parse_of_tokens ht]
    exact (Reader.readAll_agree items start).bind fun _ _ => Reader.finish_agree

/-- Blanks inside a name, after a quantity and around parentheses. -/
theorem parse_agree_blanks :
    lexemes "2+ A  B AND (C)" = lexemes "2+\tA B\nAND( C )" ∧
      Agree Alike (parse "2+ A  B AND (C)") (parse "2+\tA B\nAND( C )") :=
  have same : lexemes "2+ A  B AND (C)" = lexemes "2+\tA B\nAND( C )" := by decide
  ⟨same, parse_agree same⟩

end OpeningHand.Condition
