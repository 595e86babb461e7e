import LanguageDetection.Pattern
import LanguageDetection.Proofs.Explanation
import LanguageDetection.Proofs.MarkerCount
import LanguageDetection.Proofs.Pattern.Count
import LanguageDetection.Proofs.RuleScore

/-!
# Letter case

Patterns that do not see the case of letters, and the language whose features do not depend on it.
-/

namespace LanguageDetection

/-!
## Patterns that do not see the case of letters

A pattern ignores case if each of its classes has a letter of ASCII in both cases or in none
(`ignoresCase`).  Its anchors cannot see the case: a letter is a word character and no line feed,
whatever its case.  Such a pattern has the same ends in a text and in the text in lower case
(`ends_lowercase`), so that it is counted equally often in both (`count_lowercase`).
-/

open Characters

/-- An anchor does not see the case of the characters around it. -/
lemma Anchor.holds_toLower (condition : Anchor) (before after : Option Char) :
    condition.holds (before.map Char.toLower) (after.map Char.toLower) =
      condition.holds before after := by
  cases condition <;> cases before <;> cases after <;> simp [holds, isWordAt]

/-- Whether the class has every letter in both cases or in none. -/
def CharClass.ignoresCase (cls : CharClass) : Bool :=
  ignoresLetterCase cls.holds

namespace Pattern

/-! ### Ends -/

/-- Whether every class of the pattern ignores case. -/
def ignoresCase : Pattern → Bool
  | empty => true
  | one cls => cls.ignoresCase
  | anchor _ => true
  | seq p q => p.ignoresCase && q.ignoresCase
  | alt p q => p.ignoresCase && q.ignoresCase
  | star _ p => p.ignoresCase

/-- The same position of the text in lower case. -/
def Position.lowercase (s : Position) : Position where
  before := s.before.map Char.toLower
  rest := Characters.lowercase s.rest

/-- Skipping characters and putting them in lower case can be done in either order. -/
lemma Position.lowercase_skip (s : Position) (n : Nat) :
    (s.skip n).lowercase = s.lowercase.skip n := by
  obtain ⟨before, rest⟩ := s
  induction rest generalizing before n with
  | nil => simp [lowercase, Characters.lowercase]
  | cons c rest ih =>
    cases n with
    | zero => simp
    | succ n => exact ih n (some c)

variable {p : Pattern}

/-- A pattern that ignores case has the same matches in lower case. -/
theorem ends_lowercase (h : p.ignoresCase = true) (s : Position) :
    p.ends s.lowercase = p.ends s := by
  induction p generalizing s with
  | empty => rw [ends_empty, ends_empty]
  | anchor condition =>
    have hhead : s.lowercase.rest.head? = s.rest.head?.map Char.toLower := List.head?_map
    rw [ends_anchor, ends_anchor, hhead]
    exact if_congr (by rw [Position.lowercase, Anchor.holds_toLower]) rfl rfl
  | one cls =>
    obtain ⟨before, _ | ⟨c, rest⟩⟩ := s
    · rfl
    · have hclass : cls.holds c.toLower = cls.holds c := eq_toLower_of_ignoresLetterCase h c
      change (one cls).ends ⟨_, c.toLower :: _⟩ = _
      rw [ends_one_cons, ends_one_cons, hclass]
  | alt p q ihp ihq =>
    rw [ignoresCase, Bool.and_eq_true] at h
    rw [ends_alt, ends_alt, ihp h.1, ihq h.2]
  | seq p q ihp ihq =>
    rw [ignoresCase, Bool.and_eq_true] at h
    rw [ends_seq, ends_seq, ihp h.1]
    refine List.flatMap_congr fun n _ => ?_
    rw [← Position.lowercase_skip, ihq h.2]
  | star greedy p ih =>
    -- the rounds make the rest of the text shorter
    induction hlength : s.rest.length using Nat.strongRecOn generalizing s with
    | _ length ihs =>
      have hrounds : roundEnds greedy p s.lowercase = roundEnds greedy p s := by
        unfold roundEnds
        rw [ih h]
        refine List.flatMap_congr fun n hn => ?_
        rw [List.mem_filter, decide_eq_true_eq] at hn
        have hle := le_length_of_mem_ends hn.1
        have hless : (s.skip n).rest.length < length := by
          rw [Position.rest_skip, List.length_drop]
          omega
        rw [← Position.lowercase_skip, ihs _ hless _ rfl]
      rw [ends_star, ends_star, hrounds]

/-! ### Counts -/

/-- A pattern that ignores case has the same starts in lower case. -/
lemma starts_lowercase (h : p.ignoresCase = true) (s : Position) :
    p.starts s.lowercase = p.starts s := by
  obtain ⟨before, rest⟩ := s
  induction rest generalizing before with
  | nil => exact ends_lowercase h ⟨before, []⟩
  | cons c rest ih =>
    have hfirst := ends_lowercase h ⟨before, c :: rest⟩
    change p.ends ⟨_, _ :: _⟩ ++ _ = _
    rw [starts_cons]
    exact congrArg₂ (· ++ ·) hfirst (congrArg (List.map (· + 1)) (ih (some c)))

/-- It is found at the same place in lower case. -/
lemma search_lowercase (h : p.ignoresCase = true) (before : Option Char) (text : List Char) :
    search p (before.map Char.toLower) (lowercase text) = search p before text := by
  have hstarts := starts_lowercase h ⟨before, text⟩
  rw [search_eq_head?_starts p ⟨before, text⟩, ← hstarts]
  exact search_eq_head?_starts p (Position.lowercase ⟨before, text⟩)

/-- It is counted alike in lower case, from wherever the count begins. -/
lemma countFrom_lowercase (h : p.ignoresCase = true) (skip : Nat) (fresh : Bool)
    (before : Option Char) (text : List Char) (total : Nat) :
    countFrom p skip fresh (before.map Char.toLower) (lowercase text) total =
      countFrom p skip fresh before text total := by
  induction text generalizing skip fresh before total with
  | nil =>
    cases skip with
    | zero =>
      have hsearch : search p (before.map Char.toLower) [] = search p before [] :=
        search_lowercase h before []
      change countFrom p 0 fresh _ [] total = _
      rw [countFrom, countFrom, hsearch]
    | succ skip => rfl
  | cons c rest ih =>
    cases skip with
    | zero =>
      have hsearch : search p (before.map Char.toLower) (c.toLower :: lowercase rest) =
          search p before (c :: rest) :=
        search_lowercase h before (c :: rest)
      change countFrom p 0 fresh _ (c.toLower :: lowercase rest) total = _
      rw [countFrom, countFrom, hsearch]
      cases search p before (c :: rest) with
      | none => rfl
      | some length => exact ih _ _ (some c) _
    | succ skip => exact ih skip false (some c) total

/-- A pattern that ignores case is counted equally often in lower case. -/
theorem count_lowercase (h : p.ignoresCase = true) (text : List Char) :
    p.count (lowercase text) = p.count text :=
  countFrom_lowercase h 0 true none text 0

end Pattern

/-!
## Features

SQL is written in capitals as well as in small letters, and all of its rules but the disqualifier
ignore the case.  `CatalogEntry.LetterCaseLaw` says what follows for two texts that differ in the
case of letters only: what speaks for SQL is found alike in both, hit by hit, and the scores differ
by what the disqualifier adds to them.
-/

/-! ### Rules that ignore case -/

/-- Whether the matcher, if there is one, ignores the case of letters. -/
def Rule.ignoresCase (matcher : Except PatternError (Option Pattern)) : Bool :=
  matcher.toOption.join.all Pattern.ignoresCase

/-- A rule that ignores case counts equally often in lower case. -/
lemma Rule.countIn_lowercase {rule : Rule} (h : Rule.ignoresCase rule.matcher = true)
    (text : List Char) : rule.countIn (lowercase text) = rule.countIn text := by
  rcases Rule.countIn_cases h with ⟨pattern, hignores, heq⟩ | hnone
  · rw [heq, Pattern.count_lowercase hignores]
  · rw [hnone, hnone]

/-- The rules of SQL ignore case, except for the disqualifier. -/
lemma Rules.ignoresCase_of_mem_sql {rule : Rule} (hrule : rule ∈ ofLanguage .sql)
    (hclass : rule.markerClass ≠ .disqualifier) : Rule.ignoresCase rule.matcher = true := by
  have hall : ((spellingOf .sql).all fun rule matcher =>
      rule.markerClass = .disqualifier || Rule.ignoresCase matcher) = true := by
    decide +kernel
  have hcheck := (spellingOf .sql).forall_of_all _ hall rule hrule
  exact (Bool.or_eq_true_iff.mp hcheck).resolve_left (by simpa using hclass)

/-! ### Blanks -/

/-- Lower case is the same without the blanks at both ends. -/
lemma trim_lowercase (text : List Char) : trim (lowercase text) = lowercase (trim text) := by
  have hblank : isBlank ∘ Char.toLower = isBlank := funext isBlank_toLower
  unfold trim trimEnd lowercase
  rw [List.dropWhile_map, hblank, ← List.map_reverse, List.dropWhile_map, hblank, List.map_reverse]

/-- Texts that are equal in lower case are so without the blanks at their ends. -/
lemma lowercase_trim_eq {text text' : List Char} (h : lowercase text' = lowercase text) :
    lowercase (trim text') = lowercase (trim text) := by
  rw [← trim_lowercase, h, trim_lowercase]

/-! ### The law -/

namespace LanguageFeatures

/-- A hint adds the same hits whatever the text. -/
lemma exists_hits_ofHint_eq_append {α : Type} [Scalar α] (hint : Option String)
    (entry : CatalogEntry) : ∃ credited : List (Hit α), ∀ text cap,
      (ofHint text cap hint entry).hits = (ofEntry text cap entry).hits ++ credited := by
  cases hint with
  | none => exact ⟨[], fun _ _ => (List.append_nil _).symm⟩
  | some extension =>
    cases hfind : entry.signatures.find? (·.matchesExtension extension) with
    | none =>
      refine ⟨[], fun text cap => ?_⟩
      rw [List.append_nil]
      exact congrArg _ (creditExtension_of_find?_eq_none hfind _)
    | some signature =>
      exact ⟨[.ofExtension signature], fun text cap =>
        congrArg _ (creditExtension_of_find? hfind _)⟩

/-- The hits of some signatures are those that are found for these signatures only. -/
lemma filter_hitsBy (test : Signature → Bool) (count : Signature → Nat)
    (signatures : List Signature) :
    (hitsBy count signatures).filter (fun hit => test hit.signature) =
      hitsBy count (signatures.filter test) := by
  unfold hitsBy
  rw [List.filter_map, List.filter_filter, List.filter_filter]
  refine congrArg _ (List.filter_congr fun signature _ => ?_)
  exact Bool.and_comm _ _

end LanguageFeatures

/-- What a language finds alike in two texts that differ in the case of letters. -/
structure CatalogEntry.LetterCaseLaw (entry : CatalogEntry) (text text' : List Char) : Prop where
  /-- Only a disqualifier can tell capitals from small letters. -/
  countIn_eq : ∀ signature ∈ entry.signatures, signature.markerClass ≠ .disqualifier →
    signature.countIn text' = signature.countIn text
  hits_eq : ∀ (cap : Nat) (hint : Option String),
    (LanguageFeatures.ofHint text' cap hint entry : LanguageFeatures Rat).hits.filter
        (·.signature.markerClass ≠ .disqualifier) =
      (LanguageFeatures.ofHint text cap hint entry : LanguageFeatures Rat).hits.filter
        (·.signature.markerClass ≠ .disqualifier)
  strongHits_eq : ∀ (cap : Nat) (hint : Option String),
    (LanguageFeatures.ofHint text' cap hint entry : LanguageFeatures Rat).strongHits =
      (LanguageFeatures.ofHint text cap hint entry : LanguageFeatures Rat).strongHits
  /-- There is one disqualifier, and the scores are the same without it. -/
  exists_disqualifier : ∃ disqualifier ∈ entry.signatures,
    (∀ signature ∈ entry.signatures,
      signature.markerClass = .disqualifier ↔ signature = disqualifier) ∧
    ∀ (cap : Nat) (hint : Option String),
      (LanguageFeatures.ofHint text' cap hint entry).rawScore -
          disqualifier.contributionIn text' cap =
        (LanguageFeatures.ofHint text cap hint entry).rawScore -
          disqualifier.contributionIn text cap

section EqualCounts

variable {language : Language} {text text' : List Char}

/-- Signatures are counted alike where the rules are. -/
lemma countIn_signature_eq
    (hrules : ∀ rule ∈ Rules.ofLanguage language, rule.markerClass ≠ .disqualifier →
      rule.countIn text' = rule.countIn text) :
    ∀ signature ∈ (CatalogEntry.builtin language).signatures,
      signature.markerClass ≠ .disqualifier → signature.countIn text' = signature.countIn text := by
  intro signature hmem hclass
  rcases CatalogEntry.mem_builtin_signatures.mp hmem with ⟨rule, hrule, rfl⟩ | ⟨extension, -, rfl⟩
  · exact hrules rule hrule hclass
  · rfl

variable (hcount : ∀ signature ∈ (CatalogEntry.builtin language).signatures,
  signature.markerClass ≠ .disqualifier → signature.countIn text' = signature.countIn text)
  (cap : Nat) (hint : Option String)

include hcount

/-- What is counted alike counts alike, for every cap and every hint. -/
lemma countFor_eq_of_countIn_eq {signature : Signature}
    (hmem : signature ∈ (CatalogEntry.builtin language).signatures)
    (hclass : signature.markerClass ≠ .disqualifier) :
    signature.countFor text' cap hint = signature.countFor text cap hint := by
  unfold Signature.countFor
  rw [hcount signature hmem hclass]

/-- Signatures that count alike have the same hits, but for the disqualifiers. -/
lemma filter_hits_eq_of_countIn_eq :
    (LanguageFeatures.ofHint text' cap hint (.builtin language) :
        LanguageFeatures Rat).hits.filter (·.signature.markerClass ≠ .disqualifier) =
      (LanguageFeatures.ofHint text cap hint (.builtin language) :
        LanguageFeatures Rat).hits.filter (·.signature.markerClass ≠ .disqualifier) := by
  obtain ⟨credited, hcredited⟩ := LanguageFeatures.exists_hits_ofHint_eq_append (α := Rat) hint
    (.builtin language)
  rw [hcredited, hcredited, List.filter_append, List.filter_append]
  refine congrArg (· ++ _) ?_
  rw [LanguageFeatures.hits_ofEntry_eq_hitsBy, LanguageFeatures.hits_ofEntry_eq_hitsBy,
    LanguageFeatures.filter_hitsBy (·.markerClass ≠ .disqualifier),
    LanguageFeatures.filter_hitsBy (·.markerClass ≠ .disqualifier)]
  refine LanguageFeatures.hitsBy_congr fun signature hsignature => ?_
  obtain ⟨hmem, hclass⟩ := List.mem_filter.mp hsignature
  rw [hcount signature hmem (of_decide_eq_true hclass)]

/-- They have the same strong hits. -/
lemma strongHits_eq_of_countIn_eq :
    (LanguageFeatures.ofHint text' cap hint (.builtin language) :
        LanguageFeatures Rat).strongHits =
      (LanguageFeatures.ofHint text cap hint (.builtin language) :
        LanguageFeatures Rat).strongHits := by
  rw [LanguageFeatures.strongHits_ofHint_eq_sum, LanguageFeatures.strongHits_ofHint_eq_sum]
  refine congrArg List.sum (List.map_congr_left fun signature hmem => ?_)
  by_cases hstrong : signature.markerClass = .strong
  · rw [countFor_eq_of_countIn_eq hcount cap hint hmem
      (by rw [hstrong]; exact MarkerClass.noConfusion)]
  · rw [if_neg hstrong, if_neg hstrong]

/-- Without what speaks against the language the scores are equal. -/
lemma rawScore_add_penalty_eq_of_countIn_eq (hsupported : language ∈ Language.supported) :
    (LanguageFeatures.ofHint text' cap hint (.builtin language)).rawScore +
        (CatalogEntry.builtin language).penalty text' cap =
      (LanguageFeatures.ofHint text cap hint (.builtin language)).rawScore +
        (CatalogEntry.builtin language).penalty text cap := by
  have hspeaking : (CatalogEntry.builtin language).speaking text' cap hint =
      (CatalogEntry.builtin language).speaking text cap hint := by
    refine List.filter_congr fun signature hmem => ?_
    by_cases hclass : signature.markerClass = .disqualifier
    · simp [hclass]
    · rw [countFor_eq_of_countIn_eq hcount cap hint hmem hclass]
  rw [LanguageFeatures.rawScore_ofHint_eq_sum hsupported,
    LanguageFeatures.rawScore_ofHint_eq_sum hsupported, ← sum_speaking_sub_penalty,
    ← sum_speaking_sub_penalty, sub_add_cancel, sub_add_cancel, hspeaking]
  refine congrArg List.sum (List.map_congr_left fun signature hmem => ?_)
  obtain ⟨hsignature, hclass, -⟩ := spec_of_mem_speaking hmem
  rw [countFor_eq_of_countIn_eq hcount cap hint hsignature hclass]

/-- Where all signatures but one disqualifier are counted alike, the law holds. -/
lemma letterCaseLaw_of_countIn_eq (hsupported : language ∈ Language.supported)
    {disqualifier : Signature}
    (hone : (CatalogEntry.builtin language).signatures.filter
      (·.markerClass = .disqualifier) = [disqualifier]) :
    (CatalogEntry.builtin language).LetterCaseLaw text text' := by
  have hmem : ∀ signature, signature ∈ (CatalogEntry.builtin language).signatures ∧
      signature.markerClass = .disqualifier ↔ signature = disqualifier := by
    intro signature
    rw [← List.mem_singleton (b := disqualifier), ← hone, List.mem_filter, decide_eq_true_eq]
  obtain ⟨hself, hclass⟩ := (hmem disqualifier).mpr rfl
  have hpenalty : ∀ (other : List Char) (cap : Nat),
      (CatalogEntry.builtin language).penalty other cap =
        -disqualifier.contributionIn other cap := by
    intro other cap
    have hsigned := Signature.signedWeight_of_eq hclass
    change _ = -(disqualifier.signedWeight * ((min (disqualifier.countIn other) cap : Nat) : Rat))
    rw [CatalogEntry.penalty, hone, hsigned]
    simp
  refine ⟨hcount, filter_hits_eq_of_countIn_eq hcount, strongHits_eq_of_countIn_eq hcount,
    disqualifier, hself, fun signature hsignature => ?_, fun cap hint => ?_⟩
  · rw [← hmem, and_iff_right hsignature]
  · have hscore := rawScore_add_penalty_eq_of_countIn_eq hcount cap hint hsupported
    rwa [hpenalty, hpenalty, ← sub_eq_add_neg, ← sub_eq_add_neg] at hscore

end EqualCounts

/-! ### SQL -/

/-- The disqualifier of SQL, a declaration in another language. -/
def codeDeclaration : Signature := Rule.signature .sql Rules.sql[11]

/-- What speaks for SQL does not see the case of letters. -/
lemma letterCaseLaw_builtin_sql {text text' : List Char} (h : lowercase text' = lowercase text) :
    (CatalogEntry.builtin .sql).LetterCaseLaw text text' := by
  have hrules : ∀ rule ∈ Rules.ofLanguage .sql, rule.markerClass ≠ .disqualifier →
      rule.countIn text' = rule.countIn text := by
    intro rule hrule hclass
    have hignores := Rules.ignoresCase_of_mem_sql hrule hclass
    calc rule.countIn text' = rule.countIn (lowercase text') :=
          (Rule.countIn_lowercase hignores text').symm
      _ = rule.countIn (lowercase text) := by rw [h]
      _ = rule.countIn text := Rule.countIn_lowercase hignores text
  have hone : (CatalogEntry.builtin .sql).signatures.filter (·.markerClass = .disqualifier) =
      [codeDeclaration] := rfl
  exact letterCaseLaw_of_countIn_eq (countIn_signature_eq hrules) (by decide) hone

/-- The law holds of SQL for texts that differ in the case of letters, with and without the blanks
at their ends. -/
theorem letterCaseLaw_sql {entry : CatalogEntry} (hentry : entry ∈ Catalog.builtin.entries)
    (hlanguage : entry.language = .sql) {text text' : List Char}
    (h : lowercase text' = lowercase text) :
    entry.LetterCaseLaw text text' ∧ entry.LetterCaseLaw (trim text) (trim text') := by
  rw [Catalog.builtin_entries] at hentry
  obtain ⟨language, -, rfl⟩ := List.mem_map.mp hentry
  obtain rfl : language = .sql := hlanguage
  exact ⟨letterCaseLaw_builtin_sql h, letterCaseLaw_builtin_sql (lowercase_trim_eq h)⟩

/-- The law where a class is declared in front of a query: capitals hide the declaration from the
disqualifier, which takes three points off otherwise. -/
theorem letterCaseLaw_sql_classQuery :
    let text := "class a\nselect b from c".toList
    let text' := "CLASS A\nSELECT b FROM c".toList
    CatalogEntry.builtin .sql ∈ Catalog.builtin.entries ∧ lowercase text' = lowercase text ∧
      ((CatalogEntry.builtin .sql).LetterCaseLaw text text' ∧
        (CatalogEntry.builtin .sql).LetterCaseLaw (trim text) (trim text')) ∧
      Rules.score (Rules.ofLanguage .sql) text 5 = 6 ∧
      Rules.score (Rules.ofLanguage .sql) text' 5 = 9 := by
  intro text text'
  have hentry : CatalogEntry.builtin .sql ∈ Catalog.builtin.entries := by
    rw [Catalog.builtin_entries]
    exact List.mem_map_of_mem (by decide)
  have hcase : lowercase text' = lowercase text := by decide
  have hscores : (Rules.spellingOf .sql).score text 5 = 6 ∧
      (Rules.spellingOf .sql).score text' 5 = 9 := by
    decide +kernel
  rw [← Spelling.score_eq, ← Spelling.score_eq] at hscores
  exact ⟨hentry, hcase, letterCaseLaw_sql hentry rfl hcase, hscores⟩

end LanguageDetection
