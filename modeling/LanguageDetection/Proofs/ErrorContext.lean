import LanguageDetection.Proofs.Settings.Discovery

/-!
# Errors behind contexts

On its way to the caller an error gets contexts, each one in front of those before it.  The text of
the error stays readable at the end (`Error.message_addContexts`), but the text is all that is left
of it: behind a context no error tells any more that the caller can mend it
(`Error.isUserFixable_addContexts`).

A document that is asked for is loaded with a context for each of its failures.  So thresholds that
cannot be used are an error of the caller as long as they are only checked, and not one any more
when they are loaded (`ContextLaw`).
-/

namespace LanguageDetection

/-! ## Contexts -/

namespace Error

variable (error : Error) (contexts : List String)

/-- The failure with contexts put in front of its text, one after another. -/
def addContexts : Error :=
  contexts.foldl addContext error

/-- The context that is added last stands in front. -/
lemma addContexts_concat (context : String) :
    error.addContexts (contexts ++ [context]) = (error.addContexts contexts).addContext context :=
  List.foldl_concat ..

/-- The contexts stand in front of the text, the last one first. -/
theorem message_addContexts :
    (error.addContexts contexts).message =
      ": ".intercalate (contexts.reverse ++ [error.message]) := by
  induction contexts using List.reverseRecOn with
  | nil => exact String.intercalate_singleton.symm
  | append_singleton contexts context ih =>
    have hne : contexts.reverse ++ [error.message] ≠ [] := by simp
    rw [addContexts_concat, List.reverse_concat, List.cons_append,
      String.intercalate_cons_of_ne_nil hne, ← ih]
    rfl

/-- The caller can mend the failure as long as no context stands in front of it. -/
theorem isUserFixable_addContexts :
    (error.addContexts contexts).isUserFixable = (contexts.isEmpty && error.isUserFixable) := by
  induction contexts using List.reverseRecOn with
  | nil => rfl
  | append_singleton contexts context =>
    rw [addContexts_concat]
    simp [addContext, isUserFixable]

end Error

namespace Settings

/-- The result with contexts put in front of the failure, one after another. -/
def withContexts {α : Type} (contexts : List String) (result : Except Error α) : Except Error α :=
  contexts.foldl (fun result context => withContext context result) result

/-- The contexts of a result are those of its failure. -/
theorem withContexts_eq_mapError {α : Type} (contexts : List String) (result : Except Error α) :
    withContexts contexts result = result.mapError (·.addContexts contexts) := by
  induction contexts generalizing result with
  | nil => cases result <;> rfl
  | cons context contexts ih =>
    change withContexts contexts (withContext context result) = _
    rw [ih]
    cases result <;> rfl

/-! ## Failures of loading -/

section Loading

variable {parse : DocumentReader} {files : FileReader} {path : Path}

/-- A document that cannot be loaded is refused with one context. -/
lemma exists_eq_addContext_of_loadFile {error : Error}
    (h : loadFile files path parse = .error error) :
    ∃ (cause : Error) (context : String), error = cause.addContext context := by
  cases htext : files.text path with
  | error fault =>
    rw [loadFile_of_fault htext] at h
    exact ⟨_, _, (Except.error.inj h).symm⟩
  | ok text =>
    cases hparse : parse text with
    | error cause =>
      rw [loadFile_of_error htext hparse] at h
      exact ⟨_, _, (Except.error.inj h).symm⟩
    | ok settings =>
      by_cases hsound : settings.Sound
      · rw [loadFile_of_sound htext hparse hsound] at h
        cases h
      · obtain ⟨thresholds, fault, -, -, heq⟩ := exists_loadFile_eq_error htext hparse hsound
        rw [heq] at h
        exact ⟨_, _, (Except.error.inj h).symm⟩

end Loading

/-! ## The law -/

/-- What contexts keep of an error, and what they lose. -/
structure ContextLaw (parse : DocumentReader) (files : FileReader) : Prop where
  message_eq (error : Error) (contexts : List String) :
    (error.addContexts contexts).message =
      ": ".intercalate (contexts.reverse ++ [error.message])
  isUserFixable_iff (error : Error) (contexts : List String) :
    (error.addContexts contexts).isUserFixable = true ↔
      contexts = [] ∧ error.isUserFixable = true
  /-- The contexts of a result are those of its error, and a result without one has none. -/
  withContexts_eq {α : Type} (contexts : List String) (result : Except Error α) :
    withContexts contexts result = result.mapError (·.addContexts contexts)
  /-- No error of loading is one that the caller can mend. -/
  isUserFixable_loadFile {path : Path} {error : Error} :
    loadFile files path parse = .error error → error.isUserFixable = false
  /-- Thresholds that cannot be used fail with an error that the caller can mend when they are
  checked, and with its text, but not with that error, when they are loaded. -/
  of_not_sound {path : Path} {text : String} {settings : Settings Float} :
    files.text path = .ok text → parse text = .ok settings → ¬ settings.Sound →
      ∃ thresholds fault, settings.detection = some thresholds ∧
        thresholds.check = .error fault ∧ fault.isUserFixable = true ∧
        ∃ error, loadFile files path parse = .error error ∧
          error.message = "Validating " ++ path.text ++ ": " ++ fault.message ∧
          error.isUserFixable = false

/-- The law of contexts holds of all errors, of all files and of everything that reads documents. -/
theorem contextLaw_loadFile (parse : DocumentReader) (files : FileReader) :
    ContextLaw parse files where
  message_eq := Error.message_addContexts
  isUserFixable_iff error contexts := by
    rw [Error.isUserFixable_addContexts, Bool.and_eq_true, List.isEmpty_iff]
  withContexts_eq := withContexts_eq_mapError
  isUserFixable_loadFile h := by
    obtain ⟨cause, context, rfl⟩ := exists_eq_addContext_of_loadFile h
    rfl
  of_not_sound htext hparse hunsound := by
    obtain ⟨thresholds, fault, hdetection, hfault, hload⟩ :=
      exists_loadFile_eq_error htext hparse hunsound
    have hcheck : thresholds.check = .error (.configuration fault.message) := by
      unfold Thresholds.check
      rw [hfault]
    exact ⟨thresholds, _, hdetection, hcheck, rfl, _, hload, rfl, rfl⟩

/-! ## What is lost -/

/-- A settings document with a low confidence that is out of range. -/
def lowConfidenceOfTwo : String := "[detection]\nlow_confidence = 2.0\n"

/-- It can be read, and its thresholds cannot be used. -/
lemma exists_ofDocument_lowConfidenceOfTwo :
    ∃ settings, ofDocument lowConfidenceOfTwo = .ok settings ∧ ¬ settings.Sound := by
  have hfaulty : ((ofDocument lowConfidenceOfTwo).toOption.any fun settings =>
      settings.detection.any (·.fault?.isSome)) = true := by
    decide +kernel
  cases hparse : ofDocument lowConfidenceOfTwo with
  | error error =>
    rw [hparse] at hfaulty
    exact absurd hfaulty Bool.false_ne_true
  | ok settings =>
    refine ⟨settings, rfl, fun hsound => ?_⟩
    rw [hparse] at hfaulty
    change settings.detection.any _ = true at hfaulty
    obtain ⟨thresholds, hdetection, hfault⟩ := (Option.any_eq_true _ _).mp hfaulty
    rw [Thresholds.fault?_eq_none_iff.mpr (hsound thresholds hdetection)] at hfault
    exact Bool.false_ne_true hfault

/-- An error that the caller can mend does not stay one, neither behind a context that is put in
front of it nor where thresholds out of range are loaded. -/
theorem not_forall_isUserFixable_addContexts_eq :
    (¬ ∀ (error : Error) (contexts : List String),
      (error.addContexts contexts).isUserFixable = error.isUserFixable) ∧
    ¬ ∀ (files : FileReader) (path : Path) (text : String) (settings : Settings Float)
      (error : Error), files.text path = .ok text → ofDocument text = .ok settings →
        ¬ settings.Sound → loadFile files path = .error error → error.isUserFixable = true := by
  constructor
  · intro h
    exact absurd (h (.configuration "low_confidence out of range") ["Validating c.toml"])
      (by decide)
  · intro h
    obtain ⟨settings, hparse, hunsound⟩ := exists_ofDocument_lowConfidenceOfTwo
    let files : FileReader := fun _ => .ok (Utf8.encode lowConfidenceOfTwo.toList)
    have htext : files.text (.ofString "c.toml") = .ok lowConfidenceOfTwo := by
      rw [FileReader.text_of_read_eq_encode rfl, String.ofList_toList]
    obtain ⟨thresholds, fault, -, -, hload⟩ := exists_loadFile_eq_error htext hparse hunsound
    exact absurd (h files _ _ settings _ htext hparse hunsound hload) Bool.false_ne_true

end Settings

end LanguageDetection
