import Mathlib.Tactic.Push
import LanguageDetection.Proofs.FloatingPoint.Order
import LanguageDetection.Settings
import LanguageDetection.Thresholds

/-!
# Loading settings

Which thresholds are usable (`Thresholds.Sound`), and what becomes of a document whose thresholds
are not.
-/

namespace LanguageDetection

/-!
## Usable thresholds

`Thresholds.Sound` says what usable thresholds are like, over the floating-point numbers that the
program computes with: shares are numbers from 0 to 1, which leaves out what is not a number, the
low confidence is not above the medium one, and both counts are positive.  The search for a fault
draws the line in exactly this place (`fault?_eq_none_iff`).

The faults are found by what is *not* less or equal.  Of floating-point numbers two can be
incomparable, so that `float_le_of_not_lt` needs both to be numbers; that they are is what a share
in range is good for.
-/

/-! ### Shares -/

/-- A share is a number from 0 to 1. -/
structure IsShare (x : Float) : Prop where
  zero_le : 0 ≤ x
  le_one : x ≤ 1
  isNaN_eq_false : x.isNaN = false

namespace Thresholds

/-- The test for a ratio tells the shares, and so refuses what is not a number. -/
lemma isRatio_iff {x : Float} : isRatio x = true ↔ IsShare x := by
  have hzero : (Scalar.ofNat 0 : Float) = 0 := by decide +kernel
  have hone : (Scalar.ofNat 1 : Float) = 1 := by decide +kernel
  unfold isRatio
  rw [Bool.and_eq_true, decide_eq_true_iff, decide_eq_true_iff, hzero, hone]
  constructor
  · rintro ⟨hnonneg, hle⟩
    exact ⟨hnonneg, hle, (float_isNaN_eq_false_of_le hle).1⟩
  · intro h
    exact ⟨h.zero_le, h.le_one⟩

/-! ### Usable thresholds -/

/-- Thresholds that can be used. -/
structure Sound (thresholds : Thresholds Float) : Prop where
  matchTolerance : IsShare thresholds.matchTolerance
  mediumConfidence : IsShare thresholds.mediumConfidence
  lowConfidence : IsShare thresholds.lowConfidence
  binaryRatioThreshold : IsShare thresholds.binaryRatioThreshold
  low_le_medium : thresholds.lowConfidence ≤ thresholds.mediumConfidence
  one_le_maxOccurrences : 1 ≤ thresholds.maxOccurrencesPerSignature
  one_le_minTokens : 1 ≤ thresholds.minTokensForFullConfidence

variable {thresholds : Thresholds Float}

/-- Thresholds without a fault are those that can be used. -/
theorem fault?_eq_none_iff : thresholds.fault? = none ↔ thresholds.Sound := by
  constructor
  · intro h
    unfold fault? at h
    split_ifs at h with htolerance hmedium hlow hbinary hlt hoccurrences htokens
    rw [Bool.not_eq_true', Bool.not_eq_false, isRatio_iff] at htolerance hmedium hlow hbinary
    exact {
      matchTolerance := htolerance
      mediumConfidence := hmedium
      lowConfidence := hlow
      binaryRatioThreshold := hbinary
      low_le_medium := float_le_of_not_lt hlow.isNaN_eq_false hmedium.isNaN_eq_false hlt
      one_le_maxOccurrences := Nat.one_le_iff_ne_zero.mpr hoccurrences
      one_le_minTokens := Nat.one_le_iff_ne_zero.mpr htokens }
  · intro h
    have hoccurrences := Nat.one_le_iff_ne_zero.mp h.one_le_maxOccurrences
    have htokens := Nat.one_le_iff_ne_zero.mp h.one_le_minTokens
    unfold fault?
    simp [isRatio_iff.mpr h.matchTolerance, isRatio_iff.mpr h.mediumConfidence,
      isRatio_iff.mpr h.lowConfidence, isRatio_iff.mpr h.binaryRatioThreshold,
      float_not_lt_of_le h.low_le_medium, hoccurrences, htokens]

/-- The usual thresholds can be used. -/
theorem sound_default : (Thresholds.default : Thresholds Float).Sound := by
  rw [← fault?_eq_none_iff, ← Option.isNone_iff_eq_none]
  decide +kernel

/-- Usable thresholds pass the check as they are. -/
lemma check_eq_ok (h : thresholds.Sound) : thresholds.check = .ok thresholds := by
  unfold check
  rw [fault?_eq_none_iff.mpr h]

/-- The check tells the fault of all others. -/
lemma exists_check_eq_error (h : ¬ thresholds.Sound) :
    ∃ fault, thresholds.fault? = some fault ∧
      thresholds.check = .error (.configuration fault.message) := by
  rw [← fault?_eq_none_iff] at h
  obtain ⟨fault, hfault⟩ := Option.ne_none_iff_exists'.mp h
  refine ⟨fault, hfault, ?_⟩
  unfold check
  rw [hfault]

/-- The check is passed by the thresholds that can be used. -/
theorem check_eq_ok_iff : thresholds.check = .ok thresholds ↔ thresholds.Sound := by
  refine ⟨fun h => ?_, check_eq_ok⟩
  by_contra hunsound
  obtain ⟨fault, -, hcheck⟩ := exists_check_eq_error hunsound
  rw [hcheck] at h
  cases h

end Thresholds

/-!
## Loading

Settings come from a document that is asked for (`loadFile`) or from one that is found (`discover`),
and in both ways the thresholds in force are usable.  They differ in what becomes of unusable ones:
the document asked for is refused, and the one that is found loses its thresholds.

`loadFile_of_text` says what becomes of a document that is asked for, `dropUnusable_of_sound` and
`dropUnusable_of_not_sound` what becomes of one that is found, and `LoadingLaw` compares them. All
this holds whatever turns the text of a document into settings.
-/

namespace Settings

/-! ### Dropping thresholds -/

/-- Settings whose thresholds, if there are any, can be used. -/
def Sound (settings : Settings Float) : Prop :=
  ∀ thresholds ∈ settings.detection, thresholds.Sound

section Sound

variable {settings : Settings Float}

/-- The thresholds in force can be used. -/
lemma Sound.sound_thresholds (h : settings.Sound) : settings.thresholds.Sound := by
  unfold thresholds
  cases hdetection : settings.detection with
  | none => exact Thresholds.sound_default
  | some thresholds => exact h thresholds hdetection

lemma sound_empty : ({} : Settings Float).Sound := by
  intro thresholds h
  cases h

/-- Settings that are not sound have thresholds to blame. -/
lemma exists_of_not_sound (h : ¬ settings.Sound) :
    ∃ thresholds, settings.detection = some thresholds ∧ ¬ thresholds.Sound := by
  unfold Sound at h
  push Not at h
  exact h

/-- From sound settings nothing is dropped. -/
lemma dropUnusable_of_sound (h : settings.Sound) : settings.dropUnusable = settings := by
  unfold dropUnusable
  cases hdetection : settings.detection with
  | none => rfl
  | some thresholds =>
    rw [Option.bind_some, Thresholds.fault?_eq_none_iff.mpr (h thresholds hdetection)]

/-- From settings that are not sound the thresholds are dropped, and only they. -/
lemma dropUnusable_of_not_sound (h : ¬ settings.Sound) :
    settings.dropUnusable = { settings with detection := none } := by
  obtain ⟨thresholds, hdetection, hunsound⟩ := exists_of_not_sound h
  obtain ⟨fault, hfault, -⟩ := Thresholds.exists_check_eq_error hunsound
  unfold dropUnusable
  rw [hdetection, Option.bind_some, hfault]

/-- What is left can be used. -/
lemma sound_dropUnusable (settings : Settings Float) : settings.dropUnusable.Sound := by
  by_cases h : settings.Sound
  · rwa [dropUnusable_of_sound h]
  · rw [dropUnusable_of_not_sound h]
    intro thresholds hthresholds
    cases hthresholds

end Sound

/-! ### Documents that are found -/

section Loading

variable {parse : DocumentReader} {files : FileReader}

/-- A document that cannot be read is refused with the error of its reader. -/
lemma read_of_error {text : String} {error : Error} (h : parse text = .error error) :
    Settings.read text parse = .error error := by
  unfold Settings.read
  rw [h]
  rfl

/-- A document that can be read is accepted, less the thresholds that cannot be used. -/
lemma read_of_ok {text : String} {settings : Settings Float} (h : parse text = .ok settings) :
    Settings.read text parse = .ok settings.dropUnusable := by
  unfold Settings.read
  rw [h]
  rfl

/-- Settings that are read without a path are sound. -/
lemma sound_of_read_eq_ok {text : String} {settings : Settings Float}
    (h : Settings.read text parse = .ok settings) : settings.Sound := by
  cases hparse : parse text with
  | error error =>
    rw [read_of_error hparse] at h
    cases h
  | ok parsed =>
    rw [read_of_ok hparse] at h
    cases h
    exact sound_dropUnusable parsed

/-- Settings that a search finds are sound. -/
lemma sound_discover (files : FileReader) (directory : Path) (parse : DocumentReader) :
    (discover files directory parse).Sound := by
  unfold discover
  dsimp only
  cases hfound : (directory.ancestors searchDepth).findSome? fun ancestor =>
      load? files (documentIn ancestor) parse with
  | none => exact sound_empty
  | some settings =>
    obtain ⟨ancestor, -, hload⟩ := List.exists_of_findSome?_eq_some hfound
    unfold load? at hload
    obtain ⟨text, -, hread⟩ := Option.bind_eq_some_iff.mp hload
    cases hsettings : Settings.read text parse with
    | error error =>
      rw [hsettings] at hread
      cases hread
    | ok read =>
      rw [hsettings] at hread
      cases hread
      exact sound_of_read_eq_ok hsettings

/-- A search from the current directory finds sound settings, also where there is no such directory.
-/
lemma sound_discoverHere (files : FileReader) (directory : Option Path) (parse : DocumentReader) :
    (discoverHere files directory parse).Sound := by
  cases directory with
  | none => exact sound_empty
  | some directory => exact sound_discover files directory parse

/-! ### A document that is asked for -/

section File

variable {path : Path} {text : String} {settings : Settings Float}

/-- A file that cannot be read is named together with what is wrong with it. -/
lemma loadFile_of_fault {fault : FileError} (h : files.text path = .error fault) :
    loadFile files path parse =
      .error ((Error.io fault.message).addContext ("Reading " ++ path.text)) := by
  unfold loadFile
  rw [h]
  rfl

variable (htext : files.text path = .ok text)

include htext

/-- A document that can be read is parsed, and then its thresholds are checked. -/
lemma loadFile_of_text :
    loadFile files path parse =
      (withContext ("Parsing " ++ path.text) (parse text)).bind fun settings =>
        match settings.detection with
        | none => .ok settings
        | some thresholds =>
          (withContext ("Validating " ++ path.text) thresholds.check).map fun _ => settings := by
  unfold loadFile
  rw [htext]
  change (withContext ("Parsing " ++ path.text) (parse text)).bind _ = _
  congr 1
  funext settings
  cases settings.detection with
  | none => rfl
  | some thresholds =>
    dsimp only
    cases thresholds.check <;> rfl

/-- What cannot be parsed fails with the error of the parser. -/
lemma loadFile_of_error {error : Error} (h : parse text = .error error) :
    loadFile files path parse = .error (error.addContext ("Parsing " ++ path.text)) := by
  rw [loadFile_of_text htext, h]
  rfl

/-- The settings of a document are those that it makes, if their thresholds can be used. -/
lemma loadFile_of_sound (h : parse text = .ok settings) (hsound : settings.Sound) :
    loadFile files path parse = .ok settings := by
  rw [loadFile_of_text htext, h]
  cases hdetection : settings.detection with
  | none => simp [withContext, Except.mapError, Except.bind, hdetection]
  | some thresholds =>
    have hcheck := Thresholds.check_eq_ok (hsound thresholds hdetection)
    simp [withContext, Except.mapError, Except.bind, Except.map, hdetection, hcheck]

/-- Thresholds that cannot be used fail with their fault. -/
lemma exists_loadFile_eq_error (h : parse text = .ok settings) (hunsound : ¬ settings.Sound) :
    ∃ thresholds fault, settings.detection = some thresholds ∧ thresholds.fault? = some fault ∧
      loadFile files path parse = .error
        ((Error.configuration fault.message).addContext ("Validating " ++ path.text)) := by
  obtain ⟨thresholds, hdetection, hfaulty⟩ := exists_of_not_sound hunsound
  obtain ⟨fault, hfault, hcheck⟩ := Thresholds.exists_check_eq_error hfaulty
  refine ⟨thresholds, fault, hdetection, hfault, ?_⟩
  rw [loadFile_of_text htext, h]
  simp [withContext, Except.mapError, Except.bind, Except.map, hdetection, hcheck]

end File

/-- Settings that are loaded from a file are sound. -/
lemma sound_of_loadFile_eq_ok {path : Path} {settings : Settings Float}
    (h : loadFile files path parse = .ok settings) : settings.Sound := by
  cases htext : files.text path with
  | error fault =>
    rw [loadFile_of_fault htext] at h
    cases h
  | ok text =>
    cases hparse : parse text with
    | error error =>
      rw [loadFile_of_error htext hparse] at h
      cases h
    | ok parsed =>
      by_cases hsound : parsed.Sound
      · rw [loadFile_of_sound htext hparse hsound] at h
        cases h
        exact hsound
      · obtain ⟨thresholds, fault, -, -, heq⟩ := exists_loadFile_eq_error htext hparse hsound
        rw [heq] at h
        cases h

/-- Settings that are loaded are sound, whether from a file or through a search. -/
lemma sound_of_load_eq_ok {directory explicit : Option Path} {settings : Settings Float}
    (h : load files directory explicit parse = .ok settings) : settings.Sound := by
  cases explicit with
  | some path => exact sound_of_loadFile_eq_ok h
  | none =>
    cases h
    exact sound_discoverHere files directory parse

/-! ### The two ways compared -/

/-- What holds of the settings that are loaded, by whatever way, and of the two ways with the same
text. -/
structure LoadingLaw (parse : DocumentReader) (files : FileReader) : Prop where
  /-- The check is passed by the thresholds that can be used. -/
  check_eq_ok_iff (thresholds : Thresholds Float) :
    thresholds.check = .ok thresholds ↔ thresholds.Sound
  sound_read {text : String} {settings : Settings Float} :
    Settings.read text parse = .ok settings → settings.thresholds.Sound
  sound_discover (directory : Path) : (discover files directory parse).thresholds.Sound
  sound_discoverHere (directory : Option Path) :
    (discoverHere files directory parse).thresholds.Sound
  sound_loadFile {path : Path} {settings : Settings Float} :
    loadFile files path parse = .ok settings → settings.thresholds.Sound
  sound_load {directory explicit : Option Path} {settings : Settings Float} :
    load files directory explicit parse = .ok settings → settings.thresholds.Sound
  /-- Where the text makes no settings, both ways fail. -/
  of_error {path : Path} {text : String} {error : Error} :
    files.text path = .ok text → parse text = .error error →
      Settings.read text parse = .error error ∧
        loadFile files path parse = .error (error.addContext ("Parsing " ++ path.text))
  /-- Where the thresholds can be used or are not given, both ways lead to the same settings. -/
  of_sound {path : Path} {text : String} {settings : Settings Float} :
    files.text path = .ok text → parse text = .ok settings → settings.Sound →
      Settings.read text parse = .ok settings ∧ loadFile files path parse = .ok settings
  /-- Where they cannot be used, the document asked for is refused with their fault, and the other
  one is left with its form of the output. -/
  of_not_sound {path : Path} {text : String} {settings : Settings Float} :
    files.text path = .ok text → parse text = .ok settings → ¬ settings.Sound →
      Settings.read text parse = .ok { detection := none, output := settings.output } ∧
        ∃ thresholds fault, settings.detection = some thresholds ∧
          thresholds.fault? = some fault ∧
          loadFile files path parse = .error
            ((Error.configuration fault.message).addContext ("Validating " ++ path.text))

/-- The law of loading holds of all files and of everything that reads documents. -/
theorem loadingLaw_load (parse : DocumentReader) (files : FileReader) :
    LoadingLaw parse files where
  check_eq_ok_iff _ := Thresholds.check_eq_ok_iff
  sound_read h := (sound_of_read_eq_ok h).sound_thresholds
  sound_discover directory := (sound_discover files directory parse).sound_thresholds
  sound_discoverHere directory := (sound_discoverHere files directory parse).sound_thresholds
  sound_loadFile h := (sound_of_loadFile_eq_ok h).sound_thresholds
  sound_load h := (sound_of_load_eq_ok h).sound_thresholds
  of_error htext hparse :=
    ⟨read_of_error hparse, loadFile_of_error htext hparse⟩
  of_sound htext hparse hsound := by
    refine ⟨?_, loadFile_of_sound htext hparse hsound⟩
    rw [read_of_ok hparse, dropUnusable_of_sound hsound]
  of_not_sound htext hparse hunsound := by
    refine ⟨?_, exists_loadFile_eq_error htext hparse hunsound⟩
    rw [read_of_ok hparse, dropUnusable_of_not_sound hunsound]

/-- A low confidence of two is dropped, with the rest of its table. -/
example :
    (Settings.read "[detection]\nlow_confidence = 2.0\n").toOption.map (·.detection.isNone) =
      some true := by
  decide +kernel

end Loading

end Settings

end LanguageDetection
