import LanguageDetection.Catalog
import LanguageDetection.Scalar
import LanguageDetection.Text

/-!
Features: for each language of a catalog the signatures found in a text, each counted up to a cap,
and the score they add up to. A file extension may be credited on top as a hint.
-/

namespace LanguageDetection

/-- A signature that was found, with its capped count and what it adds to the score. -/
structure Hit (α : Type) where
  signature : Signature
  count : Nat
  contribution : α

namespace Hit

variable {α : Type} [Scalar α]

/-- The hit of a signature that was found `count` times. -/
def ofCount (signature : Signature) (count : Nat) : Hit α :=
  { signature, count, contribution := Scalar.ofRat signature.signedWeight * Scalar.ofNat count }

/-- The hit of a signature that stands for a file extension. -/
def ofExtension (signature : Signature) : Hit α :=
  { signature, count := 1, contribution := Scalar.ofRat signature.signedWeight }

end Hit

/-- What was found for one language. -/
structure LanguageFeatures (α : Type) where
  language : Language
  hits : List (Hit α)
  rawScore : α
  strongHits : Nat

/-- What was found in a text. -/
structure Features (α : Type) where
  languages : List (LanguageFeatures α)
  tokenCount : Nat

/-- A hit in a form that can be shown. -/
structure Evidence (α : Type) where
  label : String
  markerClass : MarkerClass
  kind : MarkerKind
  count : Nat
  contribution : α

namespace Evidence

variable {α : Type}

/-- The evidence of a hit. -/
def ofHit (hit : Hit α) : Evidence α :=
  { label := hit.signature.label, markerClass := hit.signature.markerClass,
    kind := hit.signature.kind, count := hit.count, contribution := hit.contribution }

/-- Whether `a` may stand before `b`: the greater contribution first, and of equal ones the
smaller label. -/
def precedes [Scalar α] (a b : Evidence α) : Bool :=
  if b.contribution < a.contribution then true
  else if a.contribution < b.contribution then false
  else decide (a.label ≤ b.label)

end Evidence

/-- Puts `a` before the first element that it may stand before. -/
def insertBy {β : Type} (precedes : β → β → Bool) (a : β) : List β → List β
  | [] => [a]
  | b :: rest => if precedes a b then a :: b :: rest else b :: insertBy precedes a rest

/-- The elements in order; those that may stand before each other keep their places. -/
def sortBy {β : Type} (precedes : β → β → Bool) (elements : List β) : List β :=
  elements.foldr (insertBy precedes) []

namespace LanguageFeatures

variable {α : Type} [Scalar α]

/-- The signatures of an entry that occur in the text, each counted at most `cap` times. -/
def ofEntry (text : List Char) (cap : Nat) (entry : CatalogEntry) : LanguageFeatures α :=
  let hits := entry.signatures.filterMap fun signature =>
    let count := min (signature.countIn text) cap
    if 0 < count then some (Hit.ofCount signature count) else none
  { language := entry.language
    hits
    rawScore := hits.foldl (fun score hit => score + hit.contribution) (Scalar.ofNat 0)
    strongHits := (hits.filter (·.signature.markerClass = .strong)).foldr (·.count + ·) 0 }

/-- The features with the first signature of the entry that is this file extension added. -/
def creditExtension (extension : String) (features : LanguageFeatures α) (entry : CatalogEntry) :
    LanguageFeatures α :=
  match entry.signatures.find? (·.matchesExtension extension) with
  | some signature =>
    { features with
      rawScore := features.rawScore + Scalar.ofRat signature.signedWeight
      hits := features.hits ++ [Hit.ofExtension signature] }
  | none => features

/-- The hits as evidence, the greatest contribution first. -/
def evidence (features : LanguageFeatures α) : List (Evidence α) :=
  sortBy Evidence.precedes (features.hits.map Evidence.ofHit)

end LanguageFeatures

namespace Features

variable {α : Type} [Scalar α]

/-- The features of a text, each signature counted at most `cap` times. -/
def extract (catalog : Catalog) (cap : Nat) (text : List Char) : Features α :=
  { languages := catalog.entries.map (LanguageFeatures.ofEntry text cap)
    tokenCount := LanguageDetection.tokenCount text }

/-- The features with a file extension credited to the language it belongs to. -/
def creditExtension (catalog : Catalog) (extension : String) (features : Features α) :
    Features α :=
  { features with
    languages :=
      List.zipWith (LanguageFeatures.creditExtension extension) features.languages
        catalog.entries }

/-- The sum of the positive scores. -/
def positiveTotal (features : Features α) : α :=
  features.languages.foldl (fun total l => total + Scalar.max l.rawScore (Scalar.ofNat 0))
    (Scalar.ofNat 0)

end Features

end LanguageDetection
