import LanguageDetection.Proofs.Decimal.Layout
import LanguageDetection.Proofs.Report.Styled
import LanguageDetection.Report

/-!
# Reports in colour

A report is laid out as styled text, in which cells are filled up to their width before they get a
style.  So colour adds nothing to a report but escape sequences: taken out again, they leave the
plain report, line by line (`ColourLaw`).  This needs reports whose own texts have no escape
character.  What the layout adds to them are words of its own, names of languages and numbers, none
of which has one either.
-/

namespace LanguageDetection

/-! ## Texts without an escape character -/

namespace IsUnescaped

/-- A text in two parts has no escape character if neither part has one. -/
@[simp] lemma append_iff {a b : String} :
    IsUnescaped (a ++ b) ↔ IsUnescaped a ∧ IsUnescaped b := by
  unfold IsUnescaped
  rw [String.toList_append, List.mem_append, not_or]

/-- Neither a digit nor a point is an escape character. -/
lemma escape_notMem {text : List Char} (h : ∀ c ∈ text, c.isDigit = true ∨ c = '.') :
    '\x1b' ∉ text := by
  intro hmem
  rcases h _ hmem with hdigit | hpoint
  · exact absurd hdigit (by decide)
  · exact absurd hpoint (by decide)

/-- A natural number is written without an escape character. -/
@[simp] lemma repr (n : Nat) : IsUnescaped n.repr := by
  unfold IsUnescaped
  rw [Nat.toList_repr]
  exact escape_notMem fun c hc => Or.inl ((Decimal.isDigits_digits n).isDigit c hc)

@[simp] lemma displayName (language : Language) : IsUnescaped language.displayName := by
  cases language <;> decide

@[simp] lemma describe (reason : Inconclusive) : IsUnescaped reason.describe := by
  cases reason <;> decide

/-- Texts are put together with a separator. -/
lemma intercalate {separator : String} {texts : List String} (hseparator : IsUnescaped separator)
    (h : ∀ text ∈ texts, IsUnescaped text) : IsUnescaped (separator.intercalate texts) := by
  unfold IsUnescaped at *
  rw [String.toList_intercalate]
  induction texts with
  | nil => exact List.not_mem_nil
  | cons text texts ih =>
    rw [List.forall_mem_cons] at h
    cases texts with
    | nil =>
      rw [List.map_singleton, List.intercalate_singleton]
      exact h.1
    | cons next texts =>
      rw [List.map_cons, List.map_cons, List.intercalate_cons_cons, ← List.map_cons,
        List.mem_append, List.mem_append, not_or, not_or]
      exact ⟨⟨h.1, hseparator⟩, ih h.2⟩

end IsUnescaped

/-! ## Numbers -/

namespace Decimal

/-- A decimal without an exponent is made of digits and a point. -/
lemma isDigit_or_point_of_mem_positional {wholeFraction : Bool} {decimal : Scientific} {c : Char}
    (h : c ∈ positional wholeFraction decimal) : c.isDigit = true ∨ c = '.' := by
  by_cases hexponent : 0 ≤ decimal.exponent
  · unfold positional at h
    rw [if_pos hexponent] at h
    rcases List.mem_append.mp h with hdigit | hfraction
    · exact Or.inl ((isDigits_digits _).isDigit c hdigit)
    · cases wholeFraction <;> simp at hfraction
      rcases hfraction with rfl | rfl
      · exact Or.inr rfl
      · exact Or.inl rfl
  · have hsplit : positional wholeFraction decimal =
        decimal.paddedDigits.take decimal.wholeLength ++
          '.' :: decimal.paddedDigits.drop decimal.wholeLength := by
      unfold positional
      rw [if_neg hexponent]
      rfl
    rw [hsplit] at h
    rcases List.mem_append.mp h with hwhole | hfraction
    · exact Or.inl (decimal.isDigit_of_mem_paddedDigits (List.mem_of_mem_take hwhole))
    · rcases List.mem_cons.mp hfraction with rfl | hdigit
      · exact Or.inr rfl
      · exact Or.inl (decimal.isDigit_of_mem_paddedDigits (List.mem_of_mem_drop hdigit))

/-- A number with fixed decimal places has no escape character. -/
@[simp] lemma isUnescaped_fixed (places : Nat) (x : Float) : IsUnescaped (fixed places x) := by
  unfold fixed
  split
  · decide
  · split <;> decide
  · next negative mantissa exponent _ =>
    have hdigits : '\x1b' ∉ fixedDigits places mantissa exponent :=
      IsUnescaped.escape_notMem fun c hc => isDigit_or_point_of_mem_positional hc
    unfold IsUnescaped signed
    rw [String.toList_ofList]
    split <;> simp [hdigits]

end Decimal

namespace Report.Terminal

@[simp] lemma isUnescaped_padEnd {width : Nat} {text : String} :
    IsUnescaped (padEnd width text) ↔ IsUnescaped text := by
  simp [padEnd, IsUnescaped]

@[simp] lemma isUnescaped_padStart {width : Nat} {text : String} :
    IsUnescaped (padStart width text) ↔ IsUnescaped text := by
  simp [padStart, IsUnescaped]

end Report.Terminal

/-! ## Lines of a terminal -/

@[simp] lemma Span.text_plain (text : String) : (plain text).text = text := rfl

namespace StyledText

@[simp] lemma isUnescaped_nil : IsUnescaped [] := by
  simp [IsUnescaped]

@[simp] lemma isUnescaped_cons {span : Span} {text : StyledText} :
    IsUnescaped (span :: text) ↔ LanguageDetection.IsUnescaped span.text ∧ IsUnescaped text :=
  List.forall_mem_cons

@[simp] lemma isUnescaped_append {a b : StyledText} :
    IsUnescaped (a ++ b) ↔ IsUnescaped a ∧ IsUnescaped b :=
  List.forall_mem_append

lemma isUnescaped_flatMap {α : Type} {f : α → StyledText} {l : List α} :
    IsUnescaped (l.flatMap f) ↔ ∀ a ∈ l, IsUnescaped (f a) :=
  List.forall_mem_flatMap

end StyledText

/-- The labels of the evidence have no escape character. -/
def Candidate.IsUnescaped (candidate : Candidate Float) : Prop :=
  ∀ evidence ∈ candidate.evidence, LanguageDetection.IsUnescaped evidence.label

/-- No text of the report has an escape character. -/
structure DetectionReport.IsUnescaped (report : DetectionReport Float) : Prop where
  source : LanguageDetection.IsUnescaped report.source
  ranked : ∀ candidate ∈ report.classification.ranked, candidate.IsUnescaped

/-- No text of the report has an escape character. -/
structure ValidationReport.IsUnescaped (report : ValidationReport Float) : Prop where
  source : LanguageDetection.IsUnescaped report.source
  suggestions : ∀ suggestion ∈ report.verdict.suggestions,
    LanguageDetection.IsUnescaped suggestion

/-- No text of the row has an escape character. -/
structure LanguageRow.IsUnescaped (row : LanguageRow) : Prop where
  id : LanguageDetection.IsUnescaped row.id
  name : LanguageDetection.IsUnescaped row.name
  aliases : ∀ name ∈ row.aliases, LanguageDetection.IsUnescaped name
  extensions : ∀ extension ∈ row.extensions, LanguageDetection.IsUnescaped extension

namespace Report.Terminal

/-- The line of a piece of evidence has the escape characters of its label. -/
lemma isUnescaped_evidenceLine {evidence : Evidence Float} (h : IsUnescaped evidence.label) :
    (evidenceLine evidence).IsUnescaped := by
  simp +decide [evidenceLine, dimmed, h]

/-- The lines of a candidate have no escape character of their own. -/
lemma isUnescaped_candidateLines {candidate : Candidate Float} (h : candidate.IsUnescaped)
    (position : Nat) : (candidateLines position candidate).IsUnescaped := by
  have hevidence : ∀ evidence ∈ candidate.evidence.take listed,
      (evidenceLine evidence).IsUnescaped := fun evidence hmem =>
    isUnescaped_evidenceLine (h evidence (List.mem_of_mem_take hmem))
  unfold candidateLines
  rw [StyledText.isUnescaped_cons]
  constructor
  · simp +decide
  · split
    · exact StyledText.isUnescaped_flatMap.mpr hevidence
    · exact StyledText.isUnescaped_nil

/-- The lines of a ranking have no escape character of their own. -/
lemma isUnescaped_rankingLines {candidates : List (Candidate Float)}
    (h : ∀ candidate ∈ candidates, candidate.IsUnescaped) (position : Nat) :
    (rankingLines position candidates).IsUnescaped := by
  induction candidates generalizing position with
  | nil => exact StyledText.isUnescaped_nil
  | cons candidate candidates ih =>
    rw [List.forall_mem_cons] at h
    rw [rankingLines, StyledText.isUnescaped_append]
    exact ⟨isUnescaped_candidateLines h.1 position, ih h.2 (position + 1)⟩

/-- A confidence is shown without an escape character. -/
lemma isUnescaped_confidence (thresholds : Thresholds Float) (value : Float) :
    IsUnescaped (confidence thresholds value).text := by
  simp +decide [confidence, coloured]

/-- The lines of a detection have no escape character of their own. -/
lemma isUnescaped_detection {report : DetectionReport Float} (h : report.IsUnescaped)
    (thresholds : Thresholds Float) (showAll : Bool) :
    (detection thresholds showAll report).IsUnescaped := by
  unfold detection
  rw [StyledText.isUnescaped_append]
  refine ⟨by simp +decide [bold, lineEnd, h.source], ?_⟩
  split
  · simp +decide [coloured, boldColoured]
  · have hshown : ∀ candidate ∈ (if showAll then report.classification.ranked
        else report.classification.ranked.take listed), candidate.IsUnescaped := by
      intro candidate hmem
      split at hmem
      · exact h.ranked candidate hmem
      · exact h.ranked candidate (List.mem_of_mem_take hmem)
    rw [StyledText.isUnescaped_append, StyledText.isUnescaped_append]
    refine ⟨⟨?_, isUnescaped_rankingLines hshown 1⟩, ?_⟩
    · simp +decide [coloured, boldColoured, lineEnd, isUnescaped_confidence]
    · simp +decide

/-- Detections are shown one after the other. -/
lemma isUnescaped_detections {reports : List (DetectionReport Float)}
    (h : ∀ report ∈ reports, report.IsUnescaped) (thresholds : Thresholds Float)
    (showAll : Bool) : (detections thresholds showAll reports).IsUnescaped := by
  induction reports with
  | nil => exact StyledText.isUnescaped_nil
  | cons report reports ih =>
    rw [List.forall_mem_cons] at h
    have hfirst := isUnescaped_detection h.1 thresholds showAll
    cases reports with
    | nil => exact hfirst
    | cons next reports =>
      change (detection thresholds showAll report ++
        lineEnd :: detections thresholds showAll (next :: reports)).IsUnescaped
      rw [StyledText.isUnescaped_append, StyledText.isUnescaped_cons]
      exact ⟨hfirst, by decide, ih h.2⟩

/-- The lines of a validation have no escape character of their own. -/
lemma isUnescaped_validation {report : ValidationReport Float} (h : report.IsUnescaped)
    (thresholds : Thresholds Float) : (validation thresholds report).IsUnescaped := by
  have hsuggestions : StyledText.IsUnescaped (report.verdict.suggestions.map fun suggestion =>
      .plain ("    - " ++ suggestion ++ "\n")) := by
    refine List.forall_mem_map.mpr fun suggestion hmem => ?_
    simp +decide [h.suggestions suggestion hmem]
  unfold validation
  simp only [StyledText.isUnescaped_append]
  refine ⟨⟨⟨?_, ?_⟩, ?_⟩, hsuggestions⟩
  · simp +decide [bold, lineEnd, h.source]
  · split <;> simp +decide [coloured, boldColoured]
  · simp +decide [lineEnd, isUnescaped_confidence]

/-- The lines of a language have no escape character of their own. -/
lemma isUnescaped_languageLines {language : LanguageRow} (h : language.IsUnescaped) :
    (languageLines language).IsUnescaped := by
  have hseparator : IsUnescaped ", " := by decide
  have haliases := IsUnescaped.intercalate hseparator h.aliases
  have hextensions := IsUnescaped.intercalate hseparator h.extensions
  unfold languageLines
  rw [StyledText.isUnescaped_cons]
  constructor
  · simp +decide [row, h.id, h.name, hextensions]
  · split
    · exact StyledText.isUnescaped_nil
    · simp +decide [dimmed, lineEnd, haliases]

/-- The table of the languages has no escape character of its own. -/
lemma isUnescaped_languages {rows : List LanguageRow} (h : ∀ row ∈ rows, row.IsUnescaped) :
    (languages rows).IsUnescaped := by
  have hrows : StyledText.IsUnescaped (rows.flatMap languageLines) :=
    StyledText.isUnescaped_flatMap.mpr fun row hmem => isUnescaped_languageLines (h row hmem)
  simp +decide [languages, row, bold, lineEnd, hrows]

end Report.Terminal

/-! ## The law of colour -/

namespace Report

/-- The plain text is what is left of the coloured one without the styles, as a whole and line by
line. -/
structure OnlyColoured (coloured plain : String) : Prop where
  withoutStyles_eq : withoutStyles coloured.toList = plain.toList
  lines_eq : (coloured.toList.splitOn '\n').map withoutStyles = plain.toList.splitOn '\n'

/-- Colour adds nothing but styles to a text without escape characters. -/
lemma onlyColoured_render {text : StyledText} (h : text.IsUnescaped) :
    OnlyColoured (text.render true) (text.render false) where
  withoutStyles_eq := StyledText.withoutStyles_render h
  lines_eq := by
    rw [← lines_withoutStyles, StyledText.withoutStyles_render h]

/-- The layout of lines of a terminal, with or without colour. -/
def Layout.terminal (thresholds : Thresholds Float) (colour : Bool) : Layout :=
  { format := .terminal, colour, thresholds }

/-- Colour adds nothing but styles to what a terminal shows. -/
structure ColourLaw (thresholds : Thresholds Float) : Prop where
  detections : ∀ (showAll : Bool) (reports : List (DetectionReport Float)),
    (∀ report ∈ reports, report.IsUnescaped) →
      OnlyColoured ((Layout.terminal thresholds true).detections showAll reports)
        ((Layout.terminal thresholds false).detections showAll reports)
  validation : ∀ report : ValidationReport Float, report.IsUnescaped →
    OnlyColoured ((Layout.terminal thresholds true).validation report)
      ((Layout.terminal thresholds false).validation report)
  rows : ∀ rows : List LanguageRow, (∀ row ∈ rows, row.IsUnescaped) →
    OnlyColoured ((Layout.terminal thresholds true).rows rows)
      ((Layout.terminal thresholds false).rows rows)
  /-- The names of the languages themselves have no escape character. -/
  languages : ∀ summaries : List LanguageSummary,
    OnlyColoured ((Layout.terminal thresholds true).languages summaries)
      ((Layout.terminal thresholds false).languages summaries)

/-- The names and extensions of a language have no escape character. -/
lemma isUnescaped_row (summary : LanguageSummary) : summary.row.IsUnescaped := by
  have hwords : ∀ language : Language, IsUnescaped language.id ∧
      (∀ name ∈ language.aliases, IsUnescaped name) ∧
        ∀ extension ∈ language.extensions, IsUnescaped extension := by
    intro language
    cases language <;> decide
  obtain ⟨hid, haliases, hextensions⟩ := hwords summary.language
  exact ⟨hid, IsUnescaped.displayName _, haliases, hextensions⟩

/-- The law holds with all thresholds. -/
theorem colourLaw_terminal (thresholds : Thresholds Float) : ColourLaw thresholds where
  detections showAll reports h :=
    onlyColoured_render (Terminal.isUnescaped_detections h thresholds showAll)
  validation report h := onlyColoured_render (Terminal.isUnescaped_validation h thresholds)
  rows rows h := onlyColoured_render (Terminal.isUnescaped_languages h)
  languages summaries := by
    refine onlyColoured_render (Terminal.isUnescaped_languages ?_)
    exact List.forall_mem_map.mpr fun summary _ => isUnescaped_row summary

end Report

end LanguageDetection
