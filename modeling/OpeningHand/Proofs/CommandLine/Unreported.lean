import OpeningHand.CommandLine.Run
import OpeningHand.Proofs.Document.Saving
import OpeningHand.Proofs.Session.Memory

/-!
# Failures that are not reported

A command reports every failure of the library's own. What is left are the failures of others: a
reference in the settings file that leads nowhere, met when the least size of a deck or the order of
a document is asked for, and the lapses of a document's value. This module says for every command
when it fails so (`report_unreported_iff`).
-/

namespace OpeningHand

/-! ## Settings -/

namespace Settings

variable {s : Settings} {e : Failure}

/-- Of the failures to read a setting, those of the file's references go unreported. -/
theorem text?_bind_unreported_iff {α : Type} {f : Option String → Except Failure α}
    (hf : ∀ value? e, f value? = .error e → e.isReported = true) (sectionName option : String) :
    ((s.text? sectionName option >>= f) = .error e ∧ e.isReported = false) ↔
      ∃ fault, s.store.value? sectionName option = .error fault ∧ e = .ini fault := by
  unfold text?
  cases s.store.value? sectionName option with
  | error fault =>
    constructor
    · rintro ⟨h, -⟩
      cases h
      exact ⟨fault, rfl, rfl⟩
    · rintro ⟨_, h, rfl⟩
      cases h
      exact ⟨rfl, rfl⟩
  | ok value? =>
    refine iff_of_false ?_ fun ⟨_, h, _⟩ => nomatch h
    rintro ⟨h, hreported⟩
    exact Bool.false_ne_true (hreported.symm.trans (hf value? e h))

theorem whole?_unreported_iff (sectionName option : String) :
    s.whole? sectionName option = .error e ∧ e.isReported = false ↔
      ∃ fault, s.store.value? sectionName option = .error fault ∧ e = .ini fault := by
  refine text?_bind_unreported_iff (fun value? e h => ?_) sectionName option
  cases value? with
  | none => cases h
  | some value =>
    dsimp only at h
    split at h
    · cases h
    · cases h
      rfl

theorem flag?_unreported_iff (sectionName option : String) :
    s.flag? sectionName option = .error e ∧ e.isReported = false ↔
      ∃ fault, s.store.value? sectionName option = .error fault ∧ e = .ini fault := by
  refine text?_bind_unreported_iff (fun value? e h => ?_) sectionName option
  cases value? with
  | none => cases h
  | some value =>
    dsimp only at h
    split at h
    · cases h
    · cases h
      rfl

theorem minDeckSize_unreported_iff :
    s.minDeckSize = .error e ∧ e.isReported = false ↔
      ∃ fault, s.store.value? "Deck" "min_size" = .error fault ∧ e = .ini fault := by
  rw [minDeckSize, bind_eq_error, or_iff_left fun ⟨_, _, h⟩ => nomatch h]
  exact whole?_unreported_iff "Deck" "min_size"

theorem sortKeys_unreported_iff :
    s.sortKeys = .error e ∧ e.isReported = false ↔
      ∃ fault, s.store.value? "Yaml" "sort_keys" = .error fault ∧ e = .ini fault := by
  rw [sortKeys, bind_eq_error, or_iff_left fun ⟨_, _, h⟩ => nomatch h]
  exact flag?_unreported_iff "Yaml" "sort_keys"

/-- A file that is no settings file cannot be decoded, or is at fault in its lines. -/
theorem ofFile_error {path : Files.Path} {bytes : List UInt8} (h : ofFile path bytes = .error e) :
    (∃ fault, e = .undecodable fault) ∨ ∃ fault, e = .ini fault := by
  have ini {α : Type} {x : Except Ini.Fault α} {e : Failure} (h : x.mapError .ini = .error e) :
      ∃ fault, e = .ini fault := by
    cases x with
    | ok a => cases h
    | error fault =>
      cases h
      exact ⟨fault, rfl⟩
  have hread : Ini.read path.toText bytes default.store = .error e := by
    unfold ofFile at h
    cases hstore : Ini.read path.toText bytes default.store with
    | ok store =>
      rw [hstore] at h
      cases h
    | error e' =>
      rw [hstore] at h
      cases h
      rfl
  unfold Ini.read at hread
  dsimp only at hread
  split at hread
  · rcases bind_eq_error.mp hread with h | ⟨_, _, h⟩
    · exact .inr (ini h)
    · exact .inr (ini h)
  · rcases bind_eq_error.mp hread with h | ⟨_, _, h⟩
    · exact .inr (ini h)
    · cases h
      exact .inl ⟨_, rfl⟩

end Settings

/-! ## Loading -/

/-- Of the failures to load a document, those of references in the settings and lapses go
unreported. -/
theorem Library.load_unreported_iff {s : Settings} {source text : String} {e : Failure}
    (followed : Yaml.Followed text) :
    (load s Deck.ofEntries source text).result = .error e ∧ e.isReported = false ↔
      (∃ fault, s.store.value? "Deck" "min_size" = .error fault ∧ e = .ini fault) ∨
        ∃ minSize l, s.minDeckSize = .ok minSize ∧ Yaml.Lapses text l ∧ e = .lapse l := by
  unfold load
  rw [← Settings.minDeckSize_unreported_iff]
  cases s.minDeckSize with
  | error e' =>
    constructor
    · rintro ⟨h, hreported⟩
      cases h
      exact .inl ⟨rfl, hreported⟩
    · rintro (⟨h, hreported⟩ | ⟨_, _, h, -⟩)
      · cases h
        exact ⟨rfl, hreported⟩
      · cases h
  | ok minSize =>
    rw [or_iff_right fun ⟨h, _⟩ => nomatch h]
    constructor
    · rintro ⟨h, hreported⟩
      rcases Document.load_ends followed minSize source with ⟨_, hs⟩ | ⟨_, hcause, -⟩ | ⟨l, hl⟩
      · cases hs.symm.trans h
      · cases hcause.symm.trans h
        cases hreported
      · cases hl.symm.trans h
        exact ⟨minSize, l, rfl, (Document.load_eq_lapse_iff followed minSize source).mp hl, rfl⟩
    · rintro ⟨_, l, -, hl, rfl⟩
      exact ⟨(Document.load_eq_lapse_iff followed minSize source).mpr hl, rfl⟩

namespace Tools

variable {e : Failure}

/-- A file that cannot be read as a text is reported. -/
theorem isReported_of_textOf {bytes : Except Files.Fault (List UInt8)}
    (h : textOf bytes = .error e) : e.isReported = true := by
  unfold textOf at h
  split at h
  · cases h
    rfl
  · split at h
    · cases h
      rfl
    · cases h

/-- Loading a file goes unreported as loading its text does. -/
theorem loadFile_unreported_iff {t : Tools} {p : Files.Path}
    {bytes : Except Files.Fault (List UInt8)} :
    (t.loadFile p bytes).result = .error e ∧ e.isReported = false ↔
      ∃ text, textOf bytes = .ok text ∧
        (Library.load t.settings t.builder p.name text).result = .error e ∧
        e.isReported = false := by
  rw [result_loadFile]
  constructor
  · rintro ⟨h, hreported⟩
    rcases bind_eq_error.mp h with h | ⟨text, htext, h⟩
    · cases hreported.symm.trans (isReported_of_textOf h)
    · rcases bind_eq_error.mp h with h | ⟨_, _, h⟩
      · exact ⟨text, htext, h, hreported⟩
      · cases h
  · rintro ⟨text, htext, hload, hreported⟩
    exact ⟨bind_eq_error.mpr (.inr ⟨text, htext, bind_eq_error.mpr (.inl hload)⟩), hreported⟩

end Tools

/-- Every failure to read a condition is reported. -/
theorem Condition.isReported_of_read {expression : String} {e : Failure}
    (h : (read expression).result = .error e) : e.isReported = true := by
  unfold read readPoints at h
  cases hparse : parsePoints (Text.points expression) with
  | ok c =>
    rw [hparse] at h
    cases h
  | error refusal =>
    rw [hparse] at h
    cases refusal <;> cases h <;> rfl

/-! ## Converting -/

namespace PasscodeList

variable {e : Failure}

theorem isReported_of_passcodes {lines : List (List Char)}
    (h : (passcodes lines).result = .error e) : e.isReported = true := by
  induction lines with
  | nil => cases h
  | cons line lines ih =>
    rw [passcodes] at h
    split at h
    · exact ih h
    · split at h
      · exact ih h
      · simp only [Recorded.result_bind] at h
        rcases bind_eq_error.mp h with h | ⟨_, _, h⟩
        · unfold Recorded.ofExcept passcodeOf at h
          split at h
          · cases h
          · cases h
            rfl
        · rcases bind_eq_error.mp h with h | ⟨_, _, h⟩
          · exact ih h
          · cases h

/-- Converting never goes unreported. -/
theorem isReported_of_convert {names : List (String × String)} {text : String}
    (h : (convert names text).result = .error e) : e.isReported = true := by
  unfold convert at h
  rw [Recorded.result_bind] at h
  rcases bind_eq_error.mp h with h | ⟨_, _, h⟩
  · unfold read at h
    split at h
    · cases h
      rfl
    · rw [Recorded.result_bind] at h
      rcases bind_eq_error.mp h with h | ⟨_, _, h⟩
      · exact isReported_of_passcodes h
      · cases h
  · cases h

end PasscodeList

/-! ## Commands -/

namespace CommandLine

open Files (Disk Path)

/-- What is in the file that a command reads, on a disk. -/
def contentsIn (d : Disk) (c : Command) : Contents :=
  match c.file? with
  | none => fun p => .error (.missing p.toText)
  | some file => fun _ => d.read (.ofText file)

/-- A command that loads the document in a file. -/
def Command.Loads (file : String) (c : Command) : Prop :=
  c = .check file ∨ ∃ output, c = .normalize file output

/-- The text of the document that a command loads from a disk. -/
def Command.LoadsText (d : Disk) (text : String) (c : Command) : Prop :=
  ∃ file, c.Loads file ∧ Tools.textOf (d.read (.ofText file)) = .ok text

/-- The failures of a command that are not reported: the least size of a deck, or whether to sort,
is a reference that leads nowhere, or the value of the document lapses. -/
inductive Unreported (s : Settings) (d : Disk) : Command → Failure → Prop where
  | leastSize {c : Command} {file text : String} {fault : Ini.Fault} (loads : c.Loads file)
      (reads : Tools.textOf (d.read (.ofText file)) = .ok text)
      (bad : s.store.value? "Deck" "min_size" = .error fault) :
      Unreported s d c (.ini fault)
  | value {c : Command} {file text : String} {minSize : Int} {l : Lapse} (loads : c.Loads file)
      (reads : Tools.textOf (d.read (.ofText file)) = .ok text)
      (size : s.minDeckSize = .ok minSize) (lapses : Yaml.Lapses text l) :
      Unreported s d c (.lapse l)
  | order {file text : String} {output : Option String} {scenario : Scenario} {fault : Ini.Fault}
      (reads : Tools.textOf (d.read (.ofText file)) = .ok text)
      (loaded : (Library.load s Deck.ofEntries (Path.ofText file).name text).result = .ok scenario)
      (bad : s.store.value? "Yaml" "sort_keys" = .error fault) :
      Unreported s d (.normalize file output) (.ini fault)

theorem Command.Loads.unreported {s : Settings} {d : Disk} {c : Command} {file : String}
    {e : Failure} (loads : c.Loads file)
    (followed : ∀ text, c.LoadsText d text → Yaml.Followed text)
    (h : ((Tools.ofSettings s).loadFile (.ofText file) (d.read (.ofText file))).result = .error e)
    (hreported : e.isReported = false) : Unreported s d c e := by
  obtain ⟨text, htext, hload⟩ := Tools.loadFile_unreported_iff.mp ⟨h, hreported⟩
  rcases (Library.load_unreported_iff (followed text ⟨file, loads, htext⟩)).mp hload with
    ⟨fault, hfault, rfl⟩ | ⟨_, l, hsize, hl, rfl⟩
  · exact .leastSize loads htext hfault
  · exact .value loads htext hsize hl

/-- A check goes unreported as the load of its file does. -/
theorem result_check (s : Settings) (contents : Contents) (file : String) :
    ((Command.check file).report (.ofSettings s) contents).result = do
      let loaded ← ((Tools.ofSettings s).loadFile (.ofText file) (contents (.ofText file))).result
      return ⟨unlines (summary loaded.scenario), none⟩ := by
  rw [Command.report]
  simp only [Recorded.result_bind]
  rfl

theorem result_normalize (s : Settings) (contents : Contents) (file : String)
    (output : Option String) :
    ((Command.normalize file output).report (.ofSettings s) contents).result = do
      let loaded ← ((Tools.ofSettings s).loadFile (.ofText file) (contents (.ofText file))).result
      let sortKeys ← s.sortKeys
      return ⟨Document.writeAll sortKeys loaded.scenario.deck
        (loaded.scenario.conditions.map Condition.render), output⟩ := by
  rw [Command.report]
  simp only [Recorded.result_bind]
  refine bind_congr_of_ok fun loaded hloaded => ?_
  rw [Tools.result_loadFile] at hloaded
  obtain ⟨text, -, hloaded⟩ := bind_eq_ok.mp hloaded
  obtain ⟨scenario, hscenario, heq⟩ := bind_eq_ok.mp hloaded
  cases heq
  rw [show (Tools.ofSettings s).settings = s from rfl,
    Library.result_save s (Library.hasShortQuantities_of_load hscenario)]
  cases s.sortKeys <;> rfl

theorem Unreported.fails {s : Settings} {d : Disk} {c : Command} {e : Failure}
    (followed : ∀ text, c.LoadsText d text → Yaml.Followed text) (h : Unreported s d c e) :
    (c.report (.ofSettings s) (contentsIn d c)).result = .error e ∧ e.isReported = false := by
  have loadFails {c : Command} {file text : String} {e : Failure} (loads : c.Loads file)
      (reads : Tools.textOf (d.read (.ofText file)) = .ok text)
      (fails : (Library.load s Deck.ofEntries (Path.ofText file).name text).result = .error e ∧
        e.isReported = false) :
      (c.report (.ofSettings s) (contentsIn d c)).result = .error e ∧ e.isReported = false := by
    obtain ⟨hfile, hreported⟩ :=
      (Tools.loadFile_unreported_iff (t := .ofSettings s)).mpr ⟨text, reads, fails⟩
    refine ⟨?_, hreported⟩
    rcases loads with rfl | ⟨output, rfl⟩
    · rw [result_check]
      exact bind_eq_error.mpr (.inl hfile)
    · rw [result_normalize]
      exact bind_eq_error.mpr (.inl hfile)
  cases h with
  | leastSize loads reads bad =>
    have htext := followed _ ⟨_, loads, reads⟩
    exact loadFails loads reads ((Library.load_unreported_iff htext).mpr (.inl ⟨_, bad, rfl⟩))
  | value loads reads size lapses =>
    have htext := followed _ ⟨_, loads, reads⟩
    exact loadFails loads reads
      ((Library.load_unreported_iff htext).mpr (.inr ⟨_, _, size, lapses, rfl⟩))
  | @order file text output scenario fault reads loaded bad =>
    obtain ⟨hsort, hreported⟩ := Settings.sortKeys_unreported_iff.mpr ⟨fault, bad, rfl⟩
    refine ⟨?_, hreported⟩
    have hfile : ((Tools.ofSettings s).loadFile (.ofText file) (d.read (.ofText file))).result =
        .ok ⟨text, scenario⟩ := by
      rw [Tools.result_loadFile]
      exact bind_eq_ok.mpr ⟨text, reads, bind_eq_ok.mpr ⟨scenario, loaded, rfl⟩⟩
    rw [result_normalize]
    exact bind_eq_error.mpr (.inr ⟨_, hfile, bind_eq_error.mpr (.inl hsort)⟩)

/-- The failures of a command that are not reported are these and no others. -/
theorem report_unreported_iff {s : Settings} {d : Disk} {c : Command} {e : Failure}
    (followed : ∀ text, c.LoadsText d text → Yaml.Followed text) :
    (c.report (.ofSettings s) (contentsIn d c)).result = .error e ∧ e.isReported = false ↔
      Unreported s d c e := by
  refine ⟨?_, Unreported.fails followed⟩
  rintro ⟨h, hreported⟩
  cases c with
  | check file =>
    rw [result_check] at h
    rcases bind_eq_error.mp h with h | ⟨_, _, h⟩
    · exact Command.Loads.unreported (.inl rfl) followed h hreported
    · cases h
  | normalize file output =>
    rw [result_normalize] at h
    rcases bind_eq_error.mp h with h | ⟨loaded, hloaded, h⟩
    · exact Command.Loads.unreported (.inr ⟨output, rfl⟩) followed h hreported
    · rcases bind_eq_error.mp h with h | ⟨_, _, h⟩
      · obtain ⟨fault, bad, rfl⟩ := Settings.sortKeys_unreported_iff.mp ⟨h, hreported⟩
        rw [Tools.result_loadFile] at hloaded
        obtain ⟨text, reads, hloaded⟩ := bind_eq_ok.mp hloaded
        obtain ⟨scenario, hscenario, -⟩ := bind_eq_ok.mp hloaded
        exact .order reads hscenario bad
      · cases h
  | parse expression asJson =>
    have hread : (Condition.read expression).result = .error e := by
      rw [Command.report] at h
      simp only [Recorded.result_bind] at h
      rcases bind_eq_error.mp h with h | ⟨_, _, h⟩
      · exact h
      · cases h
    cases hreported.symm.trans (Condition.isReported_of_read hread)
  | convert file output =>
    rw [Command.report] at h
    simp only [Tools.convertFile, Recorded.result_bind] at h
    rcases bind_eq_error.mp h with h | ⟨_, _, h⟩
    · rcases bind_eq_error.mp h with h | ⟨text, _, h⟩
      · cases hreported.symm.trans (Tools.isReported_of_textOf h)
      · cases hreported.symm.trans (PasscodeList.isReported_of_convert h)
    · cases h

end CommandLine

end OpeningHand
