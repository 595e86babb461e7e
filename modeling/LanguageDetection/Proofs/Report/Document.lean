import LanguageDetection.Proofs.Decimal.ReadBack
import LanguageDetection.Proofs.Json.RoundTrip
import LanguageDetection.Proofs.Ranking
import LanguageDetection.Report
import LanguageDetection.Sources

/-!
# Reports as documents

What a document of detections says is read back from it, so that it determines what is reported.
-/

namespace LanguageDetection

/-!
## Decoding

What a part of a document stands for: a text, a natural number, a floating-point number, one of a
few named things, the items of an array or a member of an object.  Each way to read a part is the
inverse of the way to write it.
-/

namespace Json

/-! ### Texts and names -/

/-- The text, if it is one. -/
def text? : Json → Option String
  | string text => some text
  | _ => none

@[simp] lemma text?_string (text : String) : (string text).text? = some text :=
  rfl

/-- The first of these things whose identifier is the text. -/
def named? {α : Type} (things : List α) (id : α → String) (json : Json) : Option α :=
  json.text?.bind fun text => things.find? (id · == text)

/-! ### Numbers -/

/-- The natural number, if it is one. -/
def natural? : Json → Option ℕ
  | number text => (Decimal.Literal.read? text.toList).bind fun literal =>
    if literal.isWhole && !literal.negative then some literal.coefficient else none
  | _ => none

/-- The floating-point number, if it is a number. -/
def float? : Json → Option Float
  | number text => (Decimal.Literal.read? text.toList).map Decimal.Literal.toFloat
  | _ => none

section Numbers

open Decimal

/-- The literal of a natural number. -/
def naturalLiteral (n : ℕ) : Literal :=
  { negative := false, whole := digits n, fraction := none, exponent := none }

/-- A natural number is written as a literal of digits. -/
lemma natural_eq (n : ℕ) : natural n = number (String.ofList (naturalLiteral n).spell) := by
  have hspell : (naturalLiteral n).spell = digits n := by
    simp [naturalLiteral, Literal.spell, Literal.spellSign, Literal.spellFraction,
      Literal.spellExponent]
  rw [hspell]
  rfl

/-- The literal of a natural number is sound. -/
lemma isSound_naturalLiteral (n : ℕ) : (naturalLiteral n).IsSound where
  whole := isDigits_digits n
  fraction := nofun
  exponent := nofun

/-- A natural number is a document that is well formed. -/
lemma wellFormed_natural (n : ℕ) : (natural n).WellFormed := by
  rw [natural_eq]
  exact .number (isSound_naturalLiteral n) (Literal.hasLeadingZero_eq_false length_digits_eq_one)

/-- A sound literal is read as it is spelled, up to its end. -/
lemma read?_spell {literal : Literal} (h : literal.IsSound) :
    Literal.read? (String.ofList literal.spell).toList = some literal := by
  have hprefix := Literal.readPrefix_spell h (show Literal.Ends [] from nofun)
  rw [List.append_nil] at hprefix
  unfold Literal.read?
  rw [String.toList_ofList, hprefix]

/-- A natural number is read off its document again. -/
@[simp] lemma natural?_natural (n : ℕ) : (natural n).natural? = some n := by
  have hcoefficient : (naturalLiteral n).coefficient = n := by
    unfold Literal.coefficient naturalLiteral
    rw [Option.getD_none, List.append_nil, digitsValue_digits]
  rw [natural_eq, natural?, read?_spell (isSound_naturalLiteral n), Option.bind_some, hcoefficient]
  rfl

variable {x : Float}

/-- A finite number is written as the literal of its shortest decimal. -/
lemma float_eq {negative : Bool} {m : ℕ} {e : ℤ} (h : Binary.ofFloat x = .finite negative m e) :
    float x = number (String.ofList ((decimalOf m e).literal negative).spell) := by
  unfold float
  rw [h, ← text_json_of_finite h]

/-- A floating-point number is a document that is well formed. -/
lemma wellFormed_float (x : Float) : (float x).WellFormed := by
  cases h : Binary.ofFloat x with
  | nan =>
    unfold float
    rw [h]
    exact .null
  | infinite negative =>
    unfold float
    rw [h]
    exact .null
  | finite negative m e =>
    rw [float_eq h]
    exact .number (Scientific.isSound_literal _ _) (Scientific.hasLeadingZero_literal _ _)

/-- A finite number is read back. -/
theorem float?_float (h : x.isFinite = true) : (float x).float? = some x := by
  obtain ⟨negative, m, e, hvalue⟩ := Binary.exists_ofFloat_eq h
  rw [float_eq hvalue, float?, read?_spell (Scientific.isSound_literal _ _), Option.map_some,
    toFloat_literal hvalue]

end Numbers

/-! ### Arrays and objects -/

/-- The items of an array. -/
def items? : Json → Option (List Json)
  | array items => some items
  | _ => none

@[simp] lemma items?_array (items : List Json) : (array items).items? = some items :=
  rfl

/-- The first member of an object with this key. -/
def member? (key : String) : Json → Option Json
  | object members => members.lookup key
  | _ => none

section Members

variable {key key' : String} {value : Json} {members : List (String × Json)}

@[simp] lemma member?_cons_self : (object ((key, value) :: members)).member? key = some value := by
  rw [member?, List.lookup_cons_self]

@[simp] lemma member?_cons_of_ne (h : key' ≠ key) :
    (object ((key', value) :: members)).member? key = (object members).member? key := by
  rw [member?, member?, List.lookup_cons, beq_false_of_ne h.symm]

@[simp] lemma member?_nil : (object []).member? key = none :=
  rfl

end Members

/-- What is decoded from what is encoded, item by item. -/
lemma mapM_map_eq_some {α : Type} {encode : α → Json} {decode : Json → Option α} {items : List α}
    (h : ∀ item ∈ items, decode (encode item) = some item) :
    (items.map encode).mapM decode = some items := by
  induction items with
  | nil => rfl
  | cons item items ih =>
    obtain ⟨hitem, hitems⟩ := List.forall_mem_cons.mp h
    rw [List.map_cons, List.mapM_cons, hitem, ih hitems]
    rfl

end Json

/-!
## Reports

The document of a list of detections is one JSON document and a line feed, and the list can be read
off it again: each report, each candidate and each piece of evidence is the inverse image of its own
object.  So two lists with finite numbers never have the same document.
-/

open Json

/-! ### Evidence -/

namespace Evidence

variable {evidence : Evidence Float}

/-- The piece of evidence that an object stands for. -/
def ofJson? (json : Json) : Option (Evidence Float) := do
  let label ← (← json.member? "label").text?
  let markerClass ←
    (← json.member? "class").named? [.strong, .weak, .disqualifier] MarkerClass.id
  let kind ← (← json.member? "kind").named?
    [.keyword, .operator, .comment, .pattern, .extension] MarkerKind.id
  let count ← (← json.member? "count").natural?
  let contribution ← (← json.member? "contribution").float?
  return { label, markerClass, kind, count, contribution }

/-- The object of a piece of evidence is well formed. -/
lemma wellFormed_toJson (evidence : Evidence Float) : evidence.toJson.WellFormed := by
  refine .object (by simp) ?_
  simp only [List.forall_mem_cons, List.not_mem_nil, false_imp_iff, implies_true, and_true]
  exact ⟨.string _, .string _, .string _, wellFormed_natural _, wellFormed_float _⟩

/-- The class of a marker is read off its identifier. -/
lemma named?_markerClass (markerClass : MarkerClass) :
    (Json.string markerClass.id).named? [.strong, .weak, .disqualifier] MarkerClass.id =
      some markerClass := by
  cases markerClass <;> decide +kernel

/-- The kind of a marker is read off its identifier. -/
lemma named?_kind (kind : MarkerKind) :
    (Json.string kind.id).named? [.keyword, .operator, .comment, .pattern, .extension]
      MarkerKind.id = some kind := by
  cases kind <;> decide +kernel

/-- A piece of evidence is read off its object again. -/
lemma ofJson?_toJson (h : evidence.contribution.isFinite = true) :
    ofJson? evidence.toJson = some evidence := by
  unfold ofJson? toJson
  simp [named?_markerClass, named?_kind, float?_float h]

end Evidence

/-! ### Candidates -/

namespace Candidate

/-- Every number of the candidate is finite. -/
structure IsFinite (candidate : Candidate Float) : Prop where
  rawScore : candidate.rawScore.isFinite = true
  confidence : candidate.confidence.isFinite = true
  contribution : ∀ evidence ∈ candidate.evidence, evidence.contribution.isFinite = true

instance (candidate : Candidate Float) : Decidable candidate.IsFinite :=
  decidable_of_iff (candidate.rawScore.isFinite = true ∧ candidate.confidence.isFinite = true ∧
    ∀ evidence ∈ candidate.evidence, evidence.contribution.isFinite = true)
    ⟨fun ⟨rawScore, confidence, contribution⟩ => ⟨rawScore, confidence, contribution⟩,
      fun ⟨rawScore, confidence, contribution⟩ => ⟨rawScore, confidence, contribution⟩⟩

/-- The candidate that an object stands for. -/
def ofJson? (json : Json) : Option (Candidate Float) := do
  let language ← Language.ofId? (← (← json.member? "language").text?)
  let rawScore ← (← json.member? "raw_score").float?
  let confidence ← (← json.member? "confidence").float?
  let strongHits ← (← json.member? "strong_hits").natural?
  let evidence ← (← (← json.member? "evidence").items?).mapM Evidence.ofJson?
  return { language, rawScore, confidence, strongHits, evidence }

variable {candidate : Candidate Float}

/-- The object of a candidate is well formed. -/
lemma wellFormed_toJson (candidate : Candidate Float) : candidate.toJson.WellFormed := by
  refine .object (by simp) ?_
  simp only [List.forall_mem_cons, List.not_mem_nil, false_imp_iff, implies_true, and_true]
  refine ⟨.string _, wellFormed_float _, wellFormed_float _, wellFormed_natural _, .array ?_⟩
  exact List.forall_mem_map.mpr fun evidence _ => evidence.wellFormed_toJson

/-- A candidate is read off its object again. -/
lemma ofJson?_toJson (h : candidate.IsFinite) : ofJson? candidate.toJson = some candidate := by
  have hevidence : (candidate.evidence.map Evidence.toJson).mapM Evidence.ofJson? =
      some candidate.evidence :=
    mapM_map_eq_some fun evidence hmem => Evidence.ofJson?_toJson (h.contribution evidence hmem)
  unfold ofJson? toJson
  simp [Language.ofId?_id, float?_float h.rawScore, float?_float h.confidence, hevidence]

end Candidate

/-! ### Reports -/

namespace DetectionReport

/-- Every number of the report is finite. -/
structure IsFinite (report : DetectionReport Float) : Prop where
  top : report.classification.top.IsFinite
  ranked : ∀ candidate ∈ report.classification.ranked, candidate.IsFinite

instance (report : DetectionReport Float) : Decidable report.IsFinite :=
  decidable_of_iff (report.classification.top.IsFinite ∧
    ∀ candidate ∈ report.classification.ranked, candidate.IsFinite)
    ⟨fun ⟨top, ranked⟩ => ⟨top, ranked⟩, fun ⟨top, ranked⟩ => ⟨top, ranked⟩⟩

/-- The reason that a member stands for, if there is one. -/
def inconclusive? (json : Json) : Option (Option Inconclusive) :=
  match json.member? "inconclusive" with
  | some reason =>
    (reason.named? [.emptyInput, .binaryInput, .noEvidence] Inconclusive.id).map some
  | none => some none

/-- The report that an object stands for. -/
def ofJson? (json : Json) : Option (DetectionReport Float) := do
  let source ← (← json.member? "source").text?
  let top ← Candidate.ofJson? (← json.member? "top")
  let ranked ← (← (← json.member? "ranked").items?).mapM Candidate.ofJson?
  let tokenCount ← (← json.member? "token_count").natural?
  let inconclusive ← inconclusive? json
  return { source, classification := { top, ranked, tokenCount, inconclusive } }

/-- The keys of the object of a report. -/
def keys (report : DetectionReport Float) : List String :=
  ["source", "top", "ranked", "token_count"] ++
    if report.classification.isInconclusive then ["inconclusive"] else []

/-- What the object of a report is like. -/
structure IsObject (report : DetectionReport Float) (json : Json) : Prop where
  keys_eq : ∃ members, json = .object members ∧ members.map Prod.fst = report.keys
  ofJson?_eq : ofJson? json = some report

variable {report : DetectionReport Float}

/-- The object of a report has the keys of a report, in order. -/
lemma keys_toJson (report : DetectionReport Float) :
    ∃ members, report.toJson = .object members ∧ members.map Prod.fst = report.keys := by
  refine ⟨_, rfl, ?_⟩
  unfold keys Classification.members Classification.isInconclusive
  cases report.classification.inconclusive <;> rfl

/-- The object of a report is well formed. -/
lemma wellFormed_toJson (report : DetectionReport Float) : report.toJson.WellFormed := by
  have hranked : (Json.array (report.classification.ranked.map Candidate.toJson)).WellFormed :=
    .array (List.forall_mem_map.mpr fun candidate _ => candidate.wellFormed_toJson)
  unfold toJson Classification.members
  refine .object ?_ ?_
  · cases report.classification.inconclusive <;> simp
  · cases report.classification.inconclusive <;>
      simp [WellFormed.string, Candidate.wellFormed_toJson, hranked, wellFormed_natural]

/-- The reason of an inconclusive report is read off its identifier. -/
lemma named?_inconclusive (reason : Inconclusive) :
    (Json.string reason.id).named? [.emptyInput, .binaryInput, .noEvidence] Inconclusive.id =
      some reason := by
  cases reason <;> decide +kernel

/-- Whether a report is inconclusive, and why, is read off its object. -/
lemma inconclusive?_toJson (report : DetectionReport Float) :
    inconclusive? report.toJson = some report.classification.inconclusive := by
  unfold inconclusive? toJson Classification.members
  cases report.classification.inconclusive with
  | none => simp
  | some reason => simp [named?_inconclusive]

/-- A report is read off its object again. -/
lemma ofJson?_toJson (h : report.IsFinite) : ofJson? report.toJson = some report := by
  have hranked : (report.classification.ranked.map Candidate.toJson).mapM Candidate.ofJson? =
      some report.classification.ranked :=
    mapM_map_eq_some fun candidate hmem => Candidate.ofJson?_toJson (h.ranked candidate hmem)
  unfold ofJson?
  rw [inconclusive?_toJson]
  unfold toJson Classification.members
  simp [Candidate.ofJson?_toJson h.top, hranked]

/-- The object of a report is one. -/
lemma isObject_toJson (h : report.IsFinite) : report.IsObject report.toJson where
  keys_eq := report.keys_toJson
  ofJson?_eq := ofJson?_toJson h

end DetectionReport

/-! ### Lists of reports -/

namespace Report.Document

/-- The JSON document of a list of detections. -/
def json : List (DetectionReport Float) → Json
  | [report] => report.toJson
  | reports => .array (reports.map DetectionReport.toJson)

/-- The list of detections that a JSON document stands for. -/
def decode? (json : Json) : Option (List (DetectionReport Float)) :=
  match json.items? with
  | some items => items.mapM DetectionReport.ofJson?
  | none => (DetectionReport.ofJson? json).map fun report => [report]

/-- What the JSON document of a list of detections is like: a single report is an object, and none
or several are an array of objects in the order of the list. -/
structure Shows (json : Json) (reports : List (DetectionReport Float)) : Prop where
  single {report : DetectionReport Float} : reports = [report] → report.IsObject json
  several : reports.length ≠ 1 →
    ∃ items, json = .array items ∧ List.Forall₂ DetectionReport.IsObject reports items
  decoded : decode? json = some reports

variable {reports reports' : List (DetectionReport Float)}

/-- None or several reports are an array. -/
lemma json_of_length_ne_one (h : reports.length ≠ 1) :
    json reports = .array (reports.map DetectionReport.toJson) := by
  unfold json
  split
  · exact absurd rfl h
  · rfl

/-- Detections are written as one document. -/
lemma detections_eq (reports : List (DetectionReport Float)) :
    detections reports = (json reports).document := by
  match reports with
  | [] => rfl
  | [_] => rfl
  | _ :: _ :: _ => rfl

/-- The document of some reports is well formed. -/
lemma wellFormed_json (reports : List (DetectionReport Float)) : (json reports).WellFormed := by
  unfold json
  split
  · exact DetectionReport.wellFormed_toJson _
  · exact .array (List.forall_mem_map.mpr fun report _ => report.wellFormed_toJson)

/-- The document of some reports shows these reports. -/
lemma shows_json (h : ∀ report ∈ reports, report.IsFinite) : Shows (json reports) reports where
  single {report} heq := by
    subst heq
    exact DetectionReport.isObject_toJson (h report List.mem_cons_self)
  several hlength := by
    refine ⟨_, json_of_length_ne_one hlength, ?_⟩
    rw [List.forall₂_map_right_iff, List.forall₂_same]
    exact fun report hmem => DetectionReport.isObject_toJson (h report hmem)
  decoded := by
    unfold json
    split
    · next report =>
      have hreport := DetectionReport.ofJson?_toJson (h report List.mem_cons_self)
      change (DetectionReport.ofJson? report.toJson).map _ = _
      rw [hreport, Option.map_some]
    · exact mapM_map_eq_some fun report hmem => DetectionReport.ofJson?_toJson (h report hmem)

/-- What the document of a list of detections is like. -/
structure DocumentLaw (reports : List (DetectionReport Float)) : Prop where
  /-- It is one JSON document and a line feed. -/
  exists_json : ∃ text json, detections reports = text ++ "\n" ∧ read? text = some json ∧
    json.WellFormed ∧ Shows json reports
  /-- No other list has the same document. -/
  eq_of_detections_eq {reports' : List (DetectionReport Float)} :
    (∀ report ∈ reports', report.IsFinite) → detections reports' = detections reports →
      reports' = reports

/-- The law holds of all lists of detections with finite numbers. -/
theorem documentLaw_detections (h : ∀ report ∈ reports, report.IsFinite) :
    DocumentLaw reports where
  exists_json := by
    refine ⟨String.ofList ((json reports).write 0), json reports, ?_, ?_, ?_, ?_⟩
    · rw [detections_eq, document_eq]
    · exact (wellFormed_json reports).read?_write
    · exact wellFormed_json reports
    · exact shows_json h
  eq_of_detections_eq {reports'} h' heq := by
    rw [detections_eq, detections_eq] at heq
    have hjson : json reports' = json reports :=
      (wellFormed_json reports).eq_of_document_eq (wellFormed_json reports') heq
    apply Option.some.inj
    rw [← (shows_json h').decoded, ← (shows_json h).decoded, hjson]

/-- A file with a quotation mark in its name, and a blank text. -/
def namedAndBlank : List (DetectionReport Float) :=
  let evidence : Evidence Float :=
    { label := "fn\n\"λ\"", markerClass := .strong, kind := .keyword, count := 3,
      contribution := 0.1 }
  let candidate : Candidate Float :=
    { language := .rust, rawScore := 2.25, confidence := 1, strongHits := 3,
      evidence := [evidence] }
  [{ source := "a\"b.rs",
     classification :=
      { top := candidate, ranked := [candidate], tokenCount := 7, inconclusive := none } },
   { source := Sources.inputLabel, classification := .ofReason .emptyInput [] 0 }]

/-- The law holds of a report under a name with a quotation mark and of one on an empty text. -/
theorem documentLaw_namedAndBlank :
    (∀ report ∈ namedAndBlank, report.IsFinite) ∧ DocumentLaw namedAndBlank := by
  have hfinite : ∀ report ∈ namedAndBlank, report.IsFinite := by decide +kernel
  exact ⟨hfinite, documentLaw_detections hfinite⟩

end Report.Document

end LanguageDetection
