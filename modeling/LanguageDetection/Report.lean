import LanguageDetection.Decimal
import LanguageDetection.Json.Writer
import LanguageDetection.Verdict

/-!
# Reports

What is reported of detections, verdicts and the supported languages, as JSON documents and as lines
of a terminal.
-/

namespace LanguageDetection

/-!
## What is reported

What is reported: detections and verdicts, labelled with where their text came from, and the list
of the supported languages.
-/

/-- The classification of one source. -/
structure DetectionReport (α : Type) where
  source : String
  classification : Classification α

/-- The verdict on one source. -/
structure ValidationReport (α : Type) where
  source : String
  verdict : Verdict α

/-- A supported language with the numbers of its signatures of each class. -/
structure LanguageSummary where
  language : Language
  strongMarkers : Nat
  weakMarkers : Nat
  disqualifiers : Nat

/-- A row of the list of languages. -/
structure LanguageRow where
  id : String
  name : String
  aliases : List String
  extensions : List String
  strongMarkers : Nat
  weakMarkers : Nat
  disqualifiers : Nat

/-- The row that shows a summary. -/
def LanguageSummary.row (summary : LanguageSummary) : LanguageRow :=
  { id := summary.language.id
    name := summary.language.displayName
    aliases := summary.language.aliases
    extensions := summary.language.extensions
    strongMarkers := summary.strongMarkers
    weakMarkers := summary.weakMarkers
    disqualifiers := summary.disqualifiers }

/-- The summaries of all entries of a catalog. -/
def Catalog.summaries (catalog : Catalog) : List LanguageSummary :=
  catalog.entries.map fun entry =>
    { language := entry.language
      strongMarkers := entry.countOf .strong
      weakMarkers := entry.countOf .weak
      disqualifiers := entry.countOf .disqualifier }

/-- The form of a report. -/
inductive OutputFormat where
  | terminal
  | json
deriving DecidableEq, Repr

namespace OutputFormat

/-- The identifier. -/
def id : OutputFormat → String
  | terminal => "terminal"
  | json => "json"

/-- The format with this identifier. -/
def ofId? (id : String) : Option OutputFormat :=
  [terminal, json].find? (·.id == id)

end OutputFormat

/-!
## Reports as documents

Reports as JSON documents. A single detection is an object; none or several are an array.
-/

/-- One piece of evidence. -/
def Evidence.toJson (evidence : Evidence Float) : Json :=
  .object
    [("label", .string evidence.label), ("class", .string evidence.markerClass.id),
     ("kind", .string evidence.kind.id), ("count", .natural evidence.count),
     ("contribution", .float evidence.contribution)]

/-- One candidate with its evidence. -/
def Candidate.toJson (candidate : Candidate Float) : Json :=
  .object
    [("language", .string candidate.language.id), ("raw_score", .float candidate.rawScore),
     ("confidence", .float candidate.confidence), ("strong_hits", .natural candidate.strongHits),
     ("evidence", .array (candidate.evidence.map Evidence.toJson))]

/-- The members of a classification; the reason is there only if it is inconclusive. -/
def Classification.members (classification : Classification Float) : List (String × Json) :=
  [("top", classification.top.toJson),
   ("ranked", .array (classification.ranked.map Candidate.toJson)),
   ("token_count", .natural classification.tokenCount)] ++
  classification.inconclusive.toList.map fun reason => ("inconclusive", .string reason.id)

/-- The members of a verdict. -/
def Verdict.members (verdict : Verdict Float) : List (String × Json) :=
  [("matches", .bool verdict.isMatch), ("declared", .string verdict.declared.id),
   ("detected", .string verdict.detected.id), ("confidence", .float verdict.confidence),
   ("suggestions", .strings verdict.suggestions)]

/-- A detection: its source, and then the classification. -/
def DetectionReport.toJson (report : DetectionReport Float) : Json :=
  .object (("source", .string report.source) :: report.classification.members)

/-- A validation: its source, and then the verdict. -/
def ValidationReport.toJson (report : ValidationReport Float) : Json :=
  .object (("source", .string report.source) :: report.verdict.members)

/-- One row of the list of languages. -/
def LanguageRow.toJson (row : LanguageRow) : Json :=
  .object
    [("id", .string row.id), ("name", .string row.name), ("aliases", .strings row.aliases),
     ("extensions", .strings row.extensions), ("strong_markers", .natural row.strongMarkers),
     ("weak_markers", .natural row.weakMarkers), ("disqualifiers", .natural row.disqualifiers)]

/-- The row of a supported language. -/
def LanguageSummary.toJson (summary : LanguageSummary) : Json :=
  summary.row.toJson

namespace Report.Document

/-- The document of a list of detections. -/
def detections : List (DetectionReport Float) → String
  | [report] => report.toJson.document
  | reports => (Json.array (reports.map DetectionReport.toJson)).document

/-- The document of a validation. -/
def validation (report : ValidationReport Float) : String :=
  report.toJson.document

/-- The document of a list of languages. -/
def languages (rows : List LanguageRow) : String :=
  (Json.array (rows.map LanguageRow.toJson)).document

end Report.Document

/-!
## Styled text

Styled text: pieces of text with a weight and a colour. It is shown either plainly or with escape
sequences of the terminal around every styled piece.
-/

/-- A colour of the terminal. -/
inductive Colour where
  | red
  | green
  | yellow
deriving DecidableEq, Repr

/-- The number of the colour in an escape sequence. -/
def Colour.code : Colour → String
  | red => "31"
  | green => "32"
  | yellow => "33"

/-- How a piece of text is shown. -/
structure Style where
  bold : Bool := false
  dimmed : Bool := false
  colour : Option Colour := none
deriving DecidableEq, Repr

namespace Style

/-- The numbers of the style in an escape sequence. -/
def codes (style : Style) : List String :=
  (if style.bold then ["1"] else []) ++ (if style.dimmed then ["2"] else []) ++
    (style.colour.map Colour.code).toList

/-- The escape sequence that starts the style. -/
def start (style : Style) : List Char :=
  '\x1b' :: '[' :: (";".intercalate style.codes).toList ++ ['m']

/-- The escape sequence that ends every style. -/
def reset : List Char :=
  ['\x1b', '[', '0', 'm']

/-- The text with the style started again behind every end of a style within it. -/
def restart (style : Style) : List Char → List Char
  | '\x1b' :: '[' :: '0' :: 'm' :: rest => reset ++ style.start ++ restart style rest
  | c :: rest => c :: restart style rest
  | [] => []

end Style

/-- A piece of text in one style. -/
structure Span where
  style : Style
  text : String

namespace Span

/-- A piece of text without style. -/
def plain (text : String) : Span :=
  { style := {}, text }

/-- The piece as shown, with escape sequences if it is styled and `colour` is on. -/
def render (colour : Bool) (span : Span) : List Char :=
  if colour && !span.style.codes.isEmpty then
    span.style.start ++ span.style.restart span.text.toList ++ Style.reset
  else span.text.toList

end Span

/-- Text made of pieces in different styles. -/
abbrev StyledText := List Span

/-- The text as shown. -/
def StyledText.render (colour : Bool) (text : StyledText) : String :=
  String.ofList (text.flatMap (Span.render colour))

/-! ## Reports as lines of a terminal -/

namespace Report.Terminal

/-- The number of candidates and of markers that are listed. -/
def listed : Nat := 3

/-- The text with blanks behind it up to a width. -/
def padEnd (width : Nat) (text : String) : String :=
  text ++ String.ofList (List.replicate (width - text.length) ' ')

/-- The text with blanks in front of it up to a width. -/
def padStart (width : Nat) (text : String) : String :=
  String.ofList (List.replicate (width - text.length) ' ') ++ text

/-- A piece of text in a colour. -/
def coloured (colour : Colour) (text : String) : Span :=
  { style := { colour := some colour }, text }

/-- A piece of bold text in a colour. -/
def boldColoured (colour : Colour) (text : String) : Span :=
  { style := { bold := true, colour := some colour }, text }

/-- A piece of bold text. -/
def bold (text : String) : Span :=
  { style := { bold := true }, text }

/-- A piece of dimmed text. -/
def dimmed (text : String) : Span :=
  { style := { dimmed := true }, text }

/-- The end of a line. -/
def lineEnd : Span := .plain "\n"

/-- Green from the medium confidence on, yellow from the low one on, and red below. -/
def confidenceColour (thresholds : Thresholds Float) (confidence : Float) : Colour :=
  if thresholds.mediumConfidence ≤ confidence then .green
  else if thresholds.lowConfidence ≤ confidence then .yellow
  else .red

/-- A confidence in percent. -/
def confidence (thresholds : Thresholds Float) (value : Float) : Span :=
  coloured (confidenceColour thresholds value)
    ("(" ++ Decimal.fixed 0 (value * 100) ++ "% confidence)")

/-- A marker of the first candidate. -/
def evidenceLine (evidence : Evidence Float) : StyledText :=
  [.plain "       ", dimmed "·",
   .plain (" " ++ evidence.label ++ " x" ++ toString evidence.count ++ " (+" ++
     Decimal.fixed 1 evidence.contribution ++ ")\n")]

/-- The line of a candidate at a position of the ranking, the first one being 1; the first
candidate has its markers listed below. -/
def candidateLines (position : Nat) (candidate : Candidate Float) : StyledText :=
  .plain ("  #" ++ padEnd 2 (toString position) ++ " " ++
    padEnd 11 candidate.language.displayName ++ " score " ++
    padStart 6 (Decimal.fixed 1 candidate.rawScore) ++ "  confidence " ++
    Decimal.fixed 2 candidate.confidence ++ "  strong hits " ++
    toString candidate.strongHits ++ "\n") ::
  if position = 1 then (candidate.evidence.take listed).flatMap evidenceLine else []

/-- The lines of candidates from a position on. -/
def rankingLines : (position : Nat) → List (Candidate Float) → StyledText
  | _, [] => []
  | position, candidate :: rest =>
    candidateLines position candidate ++ rankingLines (position + 1) rest

/-- The lines of one detection. -/
def detection (thresholds : Thresholds Float) (showAll : Bool) (report : DetectionReport Float) :
    StyledText :=
  let classification := report.classification
  [bold report.source, lineEnd] ++
  match classification.inconclusive with
  | some reason =>
    [.plain "  ", coloured .yellow "?", .plain " ",
     boldColoured .yellow Language.unknown.displayName,
     .plain (" (" ++ reason.describe ++ ")\n")]
  | none =>
    let shown := if showAll then classification.ranked else classification.ranked.take listed
    [.plain "  ", coloured .green "→", .plain " ",
     boldColoured .green classification.language.displayName, .plain " ",
     confidence thresholds classification.confidence, lineEnd] ++
    rankingLines 1 shown ++
    [.plain ("  tokens: " ++ toString classification.tokenCount ++ "\n")]

/-- The lines of a list of detections, with an empty line between two of them. -/
def detections (thresholds : Thresholds Float) (showAll : Bool) :
    List (DetectionReport Float) → StyledText
  | [] => []
  | [report] => detection thresholds showAll report
  | report :: rest =>
    detection thresholds showAll report ++ lineEnd :: detections thresholds showAll rest

/-- The lines of a validation. -/
def validation (thresholds : Thresholds Float) (report : ValidationReport Float) : StyledText :=
  let verdict := report.verdict
  let status :=
    if verdict.isMatch then [coloured .green "✓", .plain " ", boldColoured .green "MATCH"]
    else [coloured .red "✗", .plain " ", boldColoured .red "MISMATCH"]
  [bold report.source, lineEnd, .plain "  "] ++ status ++
  [.plain (": declared " ++ verdict.declared.displayName ++ ", detected " ++
     verdict.detected.displayName ++ " "),
   confidence thresholds verdict.confidence, lineEnd] ++
  verdict.suggestions.map fun suggestion => .plain ("    - " ++ suggestion ++ "\n")

/-- One row of the list of languages. -/
def row (id name strong weak disqualifiers extensions : String) : String :=
  padEnd 12 id ++ " " ++ padEnd 11 name ++ " " ++ padStart 6 strong ++ " " ++ padStart 4 weak ++
    " " ++ padStart 4 disqualifiers ++ "  " ++ extensions

/-- The row of a language, with its aliases below if it has any. -/
def languageLines (language : LanguageRow) : StyledText :=
  .plain (row language.id language.name (toString language.strongMarkers)
    (toString language.weakMarkers) (toString language.disqualifiers)
    (", ".intercalate language.extensions) ++ "\n") ::
  if language.aliases.isEmpty then []
  else
    [.plain (padEnd 12 "" ++ " "), dimmed ("aliases: " ++ ", ".intercalate language.aliases),
     lineEnd]

/-- The lines of a list of languages. -/
def languages (rows : List LanguageRow) : StyledText :=
  bold (row "ID" "NAME" "STRONG" "WEAK" "DISQ" "EXTENSIONS") :: lineEnd ::
    rows.flatMap languageLines

end Report.Terminal

/-!
## Layouts

The layout of reports: their format, and what the lines of a terminal show.
-/

namespace Report

/-- How reports are laid out. -/
structure Layout where
  format : OutputFormat
  /-- Whether lines of a terminal are coloured. -/
  colour : Bool
  /-- The thresholds that colour a confidence. -/
  thresholds : Thresholds Float

namespace Layout

/-- The output for detections, with all candidates of each or only the first ones. -/
def detections (layout : Layout) (showAll : Bool) (reports : List (DetectionReport Float)) :
    String :=
  match layout.format with
  | .json => Document.detections reports
  | .terminal => (Terminal.detections layout.thresholds showAll reports).render layout.colour

/-- The output for a validation. -/
def validation (layout : Layout) (report : ValidationReport Float) : String :=
  match layout.format with
  | .json => Document.validation report
  | .terminal => (Terminal.validation layout.thresholds report).render layout.colour

/-- The output for rows of the list of languages. -/
def rows (layout : Layout) (rows : List LanguageRow) : String :=
  match layout.format with
  | .json => Document.languages rows
  | .terminal => (Terminal.languages rows).render layout.colour

/-- The output for a list of languages. -/
def languages (layout : Layout) (summaries : List LanguageSummary) : String :=
  layout.rows (summaries.map LanguageSummary.row)

end Layout

end Report

end LanguageDetection
