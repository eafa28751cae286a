import OpeningHand.Proofs.Ini.Layers
import OpeningHand.Proofs.Result
import OpeningHand.Settings

/-!
# Settings over their defaults

Which of the places a setting can have decides: its section in the file, that section in the
defaults, or the file's values for all sections (`textOr_ofFile`). A file's own value always goes
before a default. Its values for all sections come after the defaults, though, and reach the
sections of the defaults too; the theorem says for which files, settings and fallbacks this shows.
-/

namespace OpeningHand

namespace Settings

/-- What a file alone gives for a setting, else its default, else the fallback. -/
def layered (file : Ini.Store) (sectionName option : String) (fallback : Option String) :
    Except Failure (Option String) := do
  textOr ⟨file⟩ sectionName option (← default.textOr sectionName option fallback)

variable {file : Ini.Store} {sectionName option : String}

/-- The value that a setting has with a file over the defaults. -/
def inForce? (file : Ini.Store) (sectionName option : String) : Option String :=
  ((file.own? sectionName option).or (default.store.own? sectionName option)).or
    (if file.Has sectionName ∨ default.store.Has sectionName then
      file.own? Ini.defaultSection option
    else none)

/-- A value for all sections is kept from a section of the file by a default. -/
def KeptOut (file : Ini.Store) (sectionName option : String) : Prop :=
  file.Has sectionName ∧ file.own? sectionName option = none ∧
    ∃ value ∈ file.own? Ini.defaultSection option,
      ∃ value' ∈ default.store.own? sectionName option, value ≠ value'

/-- A value for all sections goes before a fallback in a section that only the defaults have. -/
def Overreaches (file : Ini.Store) (sectionName option : String) (fallback : Option String) :
    Prop :=
  ¬ file.Has sectionName ∧ default.store.Has sectionName ∧
    default.store.own? sectionName option = none ∧
    ∃ value ∈ file.own? Ini.defaultSection option, fallback ≠ some value

theorem default_noReferences : default.store.NoReferences := by decide

theorem own?_default_all (option : String) :
    default.store.own? Ini.defaultSection option = none := rfl

/-- A setting without references is given as it is written. -/
theorem textOr_eq {s : Settings} (sectionName key : String) (fallback : Option String)
    (h : ∀ value, s.store.raw? sectionName (Ini.optionName key.toList) = some value →
      '%' ∉ value.toList) :
    s.textOr sectionName key fallback =
      .ok ((s.store.raw? sectionName (Ini.optionName key.toList)).or fallback) := by
  rw [textOr, text?, Ini.Store.value?_eq h]
  rfl

theorem textOr_store (h : file.NoReferences) (sectionName key : String)
    (fallback : Option String) :
    textOr ⟨file⟩ sectionName key fallback =
      .ok ((file.raw? sectionName (Ini.optionName key.toList)).or fallback) :=
  textOr_eq sectionName key fallback fun value hvalue =>
    have ⟨_, hown⟩ := Ini.Store.own?_of_raw? hvalue
    h value (Ini.Store.mem_values hown)

theorem raw?_default (sectionName option : String) :
    default.store.raw? sectionName option = default.store.own? sectionName option := by
  by_cases hsection : default.store.Has sectionName
  · rw [Ini.Store.raw?_eq _ _ hsection, own?_default_all, Option.or_none]
  · rw [Ini.Store.raw?_eq_none _ _ hsection, Ini.Store.own?_eq_none_of_not_has hsection]

theorem layered_eq (h : file.NoReferences) (sectionName key : String)
    (fallback : Option String) :
    layered file sectionName key fallback =
      .ok ((file.raw? sectionName (Ini.optionName key.toList)).or
        ((default.store.own? sectionName (Ini.optionName key.toList)).or fallback)) := by
  rw [layered, textOr_store default_noReferences, raw?_default]
  exact textOr_store h sectionName key _

/-- The value in force is that of the file alone, the default or the fallback, unless a value for
all sections is kept out or overreaches. -/
theorem inForce?_or_eq_iff (fallback : Option String) :
    (inForce? file sectionName option).or fallback =
        (file.raw? sectionName option).or
          ((default.store.own? sectionName option).or fallback) ↔
      ¬ KeptOut file sectionName option ∧ ¬ Overreaches file sectionName option fallback := by
  unfold inForce? KeptOut Overreaches
  -- the file has the section, or the defaults alone have it, or none has
  by_cases hfile : file.Has sectionName
  · rw [Ini.Store.raw?_eq _ _ hfile, if_pos (.inl hfile)]
    cases file.own? sectionName option <;> cases default.store.own? sectionName option <;>
      cases file.own? Ini.defaultSection option <;> simp [hfile, eq_comm]
  · rw [Ini.Store.raw?_eq_none _ _ hfile, Ini.Store.own?_eq_none_of_not_has hfile]
    by_cases hdefault : default.store.Has sectionName
    · cases default.store.own? sectionName option <;>
        cases file.own? Ini.defaultSection option <;> simp [hfile, hdefault, eq_comm]
    · simp [hfile, hdefault, Ini.Store.own?_eq_none_of_not_has hdefault]

/-- A file without references that can be read alone can be read over the defaults. Every setting
then has its own value in the file, else its default, else the file's value for all sections if the
file or the defaults have its section, else the fallback. That is what the file alone gives, else
the default, else the fallback, just if no value for all sections is kept out and none
overreaches. -/
theorem textOr_ofFile {path : Files.Path} {bytes : List UInt8}
    (hread : Ini.read path.toText bytes .empty = .ok file) (hplain : file.NoReferences) :
    ∃ s, ofFile path bytes = .ok s ∧ ∀ sectionName key fallback,
      s.textOr sectionName key fallback =
        .ok ((inForce? file sectionName (Ini.optionName key.toList)).or fallback) ∧
      (s.textOr sectionName key fallback = layered file sectionName key fallback ↔
        ¬ KeptOut file sectionName (Ini.optionName key.toList) ∧
          ¬ Overreaches file sectionName (Ini.optionName key.toList) fallback) := by
  obtain ⟨whole, hwhole, hlayers⟩ := (Ini.read_over path.toText bytes default.store).of_ok hread
  refine ⟨⟨whole⟩, by rw [ofFile, hwhole]; rfl, fun sectionName key fallback => ?_⟩
  have noReference (value : String)
      (hvalue : whole.raw? sectionName (Ini.optionName key.toList) = some value) :
      '%' ∉ value.toList :=
    (hlayers.mem_values hvalue).elim (hplain value) (default_noReferences value)
  have hinForce : textOr ⟨whole⟩ sectionName key fallback =
      .ok ((inForce? file sectionName (Ini.optionName key.toList)).or fallback) := by
    rw [textOr_eq sectionName key fallback noReference, hlayers.raw?_eq, own?_default_all,
      Option.or_none]
    rfl
  refine ⟨hinForce, ?_⟩
  rw [hinForce, layered_eq hplain, Except.ok.injEq, inForce?_or_eq_iff]

/-- A file that has a least size for all sections, and names the section of decks. -/
def sharedSize : List UInt8 := "[DEFAULT]\nmin_size = 60\n[Deck]\n".toUTF8.toList

/-- What that file holds. -/
def sharedSizeStore : Ini.Store := ⟨[("min_size", "60")], [("Deck", [])]⟩

/-- The least size for all sections is kept out of the section of decks, and in force elsewhere. -/
theorem textOr_ofFile_sharedSize :
    Ini.read (Files.Path.ofText "settings.ini").toText sharedSize .empty = .ok sharedSizeStore ∧
      sharedSizeStore.NoReferences ∧ ∃ s, ofFile (.ofText "settings.ini") sharedSize = .ok s ∧
        s.textOr "Deck" "MIN_SIZE" none = .ok (some "40") ∧
        s.textOr "Deck" "MIN_SIZE" none ≠ layered sharedSizeStore "Deck" "MIN_SIZE" none ∧
        s.textOr "Yaml" "min_size" none = .ok (some "60") := by
  have hread : Ini.read (Files.Path.ofText "settings.ini").toText sharedSize .empty =
      .ok sharedSizeStore := toOption_eq_some.mp (by decide +kernel)
  have hplain : sharedSizeStore.NoReferences := by decide
  have hkept : KeptOut sharedSizeStore "Deck" (Ini.optionName "MIN_SIZE".toList) :=
    ⟨by decide, by decide, "60", by decide, "40", by decide, by decide⟩
  obtain ⟨s, hs, hvalues⟩ := textOr_ofFile hread hplain
  obtain ⟨hdeck, hlayered⟩ := hvalues "Deck" "MIN_SIZE" none
  exact ⟨hread, hplain, s, hs, hdeck, fun heq => (hlayered.mp heq).1 hkept,
    (hvalues "Yaml" "min_size" none).1⟩

/-- The file alone gives its least size to decks, but the default stays in force. -/
theorem sharedSize_not_layered :
    ∃ s, Ini.read (Files.Path.ofText "settings.ini").toText sharedSize .empty =
        .ok sharedSizeStore ∧
      sharedSizeStore.NoReferences ∧ ofFile (.ofText "settings.ini") sharedSize = .ok s ∧
      layered sharedSizeStore "Deck" "min_size" none = .ok (some "60") ∧
      s.textOr "Deck" "min_size" none = .ok (some "40") :=
  ⟨⟨⟨[("min_size", "60")], [("Deck", [("min_size", "40")]),
      ("Logging", [("log_level", "INFO"), ("log_to_file", "false"), ("log_dir", "logs")]),
      ("Yaml", [("sort_keys", "false")])]⟩⟩,
    toOption_eq_some.mp (by decide +kernel), by decide, toOption_eq_some.mp (by decide +kernel),
    toOption_eq_some.mp (by decide +kernel), toOption_eq_some.mp (by decide +kernel)⟩

end Settings

end OpeningHand
