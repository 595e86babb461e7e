import LanguageDetection.Proofs.Pattern.Count
import LanguageDetection.Proofs.RuleScore
import LanguageDetection.Proofs.Standing
import LanguageDetection.Proofs.Text

/-!
# Prose

Text without the characters of ASCII that can be seen matches no pattern that needs one, so that
nothing is found in it.
-/

namespace LanguageDetection

/-!
## Patterns that need a visible character

Most classes of a pattern hold of characters of all scripts, but few patterns are made of such
classes only.  A pattern that has a class of visible ASCII characters on every way through it
(`needsVisible`) has one in each of its matches (`exists_mem_take_of_needsVisible`).  As matches do
not overlap, it is found no more often than there are such characters
(`count_le_countP_isVisibleAscii`), and so not at all in a text that has none, be it as long as it
may.
-/

open Characters

/-- A text that is written without ASCII, except for white space. -/
def OnlyBlankAscii (text : List Char) : Prop :=
  ∀ c ∈ text, c.toNat < 128 → isBlank c = true

instance : DecidablePred OnlyBlankAscii := fun text =>
  decidable_of_iff (text.all fun c => 128 ≤ c.toNat || isBlank c) <| by
    rw [List.all_eq_true]
    refine forall₂_congr fun c _ => ?_
    rw [Bool.or_eq_true, decide_eq_true_eq, ← not_lt, ← imp_iff_not_or]

/-- Whether the character is a visible one of ASCII. -/
def isVisibleAscii (c : Char) : Bool :=
  c.toNat < 128 && !isBlank c

/-- The visible characters of ASCII are those that are not blank. -/
lemma isVisibleAscii_iff {c : Char} :
    isVisibleAscii c = true ↔ c.toNat < 128 ∧ isBlank c = false := by
  rw [isVisibleAscii, Bool.and_eq_true, decide_eq_true_eq, Bool.not_eq_true']

/-- If all ASCII characters of a text are blank, none is visible. -/
lemma OnlyBlankAscii.countP_eq_zero {text : List Char} (h : OnlyBlankAscii text) :
    text.countP isVisibleAscii = 0 := by
  rw [List.countP_eq_zero]
  intro c hc hvisible
  obtain ⟨hascii, hblank⟩ := isVisibleAscii_iff.mp hvisible
  rw [h c hc hascii] at hblank
  exact Bool.false_ne_true hblank.symm

/-- Whether the item stands for visible ASCII characters only. -/
def ClassItem.isVisible : ClassItem → Bool
  | range first last => '!' ≤ first && last.toNat < 128
  | word | digit | blank | notWord | notDigit | notBlank => false

/-- A visible constituent of a class has visible characters of ASCII only. -/
lemma ClassItem.ascii_of_isVisible {item : ClassItem} (h : item.isVisible = true) {c : Char}
    (hholds : item.holds c = true) : c.toNat < 128 ∧ isBlank c = false := by
  cases item with
  | range first last =>
    rw [isVisible, Bool.and_eq_true, decide_eq_true_eq, decide_eq_true_eq] at h
    rw [holds, Bool.and_eq_true, decide_eq_true_eq, decide_eq_true_eq] at hholds
    have hfirst : 33 ≤ c.toNat := UInt32.le_iff_toNat_le.mp (le_trans h.1 hholds.1)
    have hlast : c.toNat ≤ last.toNat := UInt32.le_iff_toNat_le.mp hholds.2
    have hascii : c.toNat < 128 := lt_of_le_of_lt hlast h.2
    refine ⟨hascii, ?_⟩
    have hspace : c ≠ ' ' := by
      rintro rfl
      exact absurd hfirst (by decide)
    unfold isBlank
    rw [if_pos hascii]
    simp [hspace]
    omega
  | word | digit | blank | notWord | notDigit | notBlank => exact absurd h Bool.false_ne_true

/-- Whether the class has visible ASCII characters only. -/
def CharClass.isVisible (cls : CharClass) : Bool :=
  !cls.negated && cls.items.all ClassItem.isVisible

/-- A visible class has visible characters of ASCII only. -/
lemma CharClass.ascii_of_isVisible {cls : CharClass} (h : cls.isVisible = true) {c : Char}
    (hholds : cls.holds c = true) : c.toNat < 128 ∧ isBlank c = false := by
  rw [isVisible, Bool.and_eq_true, Bool.not_eq_true', List.all_eq_true] at h
  rw [holds, h.1, Bool.bne_false, List.any_eq_true] at hholds
  obtain ⟨item, hitem, hitem'⟩ := hholds
  exact ClassItem.ascii_of_isVisible (h.2 item hitem) hitem'

namespace Pattern

/-- Whether there is a class of visible ASCII characters on every way through the pattern. -/
def needsVisible : Pattern → Bool
  | one cls => cls.isVisible
  | seq p q => p.needsVisible || q.needsVisible
  | alt p q => p.needsVisible && q.needsVisible
  | empty | anchor _ | star _ _ => false

variable {p : Pattern}

/-- Each match has a visible character of ASCII. -/
theorem exists_mem_take_of_needsVisible (h : p.needsVisible = true) {s : Position} {n : Nat}
    (hn : n ∈ p.ends s) : ∃ c ∈ s.rest.take n, c.toNat < 128 ∧ isBlank c = false := by
  induction p generalizing s n with
  | empty | anchor | star => exact absurd h Bool.false_ne_true
  | one cls =>
    obtain ⟨c, rest, hrest, hholds, rfl⟩ := mem_ends_one.mp hn
    refine ⟨c, ?_, CharClass.ascii_of_isVisible h hholds⟩
    rw [hrest]
    exact List.mem_cons_self
  | alt p q ihp ihq =>
    rw [needsVisible, Bool.and_eq_true] at h
    rcases mem_ends_alt.mp hn with hp | hq
    · exact ihp h.1 hp
    · exact ihq h.2 hq
  | seq p q ihp ihq =>
    rw [needsVisible, Bool.or_eq_true] at h
    obtain ⟨k, hk, m, hm, rfl⟩ := mem_ends_seq.mp hn
    rw [List.take_add]
    -- the character lies in the part of the match that needs it
    rcases h with hp | hq
    · obtain ⟨c, hc, hvisible⟩ := ihp hp hk
      exact ⟨c, List.mem_append_left _ hc, hvisible⟩
    · obtain ⟨c, hc, hvisible⟩ := ihq hq hm
      rw [Position.rest_skip] at hc
      exact ⟨c, List.mem_append_right _ hc, hvisible⟩

/-- A visible character is one at least, so no match is empty. -/
lemma consumes_of_needsVisible (h : p.needsVisible = true) : p.Consumes := by
  intro s hzero
  obtain ⟨c, hc, -⟩ := exists_mem_take_of_needsVisible h hzero
  rw [List.take_zero] at hc
  exact List.not_mem_nil hc

/-- From any position on there are no more matches than visible characters of ASCII. -/
theorem tally_le_countP_isVisibleAscii (h : p.needsVisible = true) (s : Position) :
    p.tally s ≤ s.rest.countP isVisibleAscii := by
  have hconsumes := consumes_of_needsVisible h
  induction hlength : s.rest.length using Nat.strongRecOn generalizing s with
  | _ length ih =>
    cases hsearch : search p s.before s.rest with
    | none =>
      rw [tally_of_search_eq_none hsearch]
      exact Nat.zero_le _
    | some n =>
      have hpos := hconsumes.pos_of_search hsearch
      have hle := le_length_of_search hsearch
      have hshorter : (s.skip n).rest.length < length := by
        rw [Position.rest_skip, List.length_drop]
        omega
      have hbehind := ih _ hshorter (s.skip n) rfl
      rw [Position.rest_skip] at hbehind
      -- the match that is counted here has a character of its own
      have hmatch : 0 < (s.rest.take n).countP isVisibleAscii := by
        obtain ⟨k, m, rfl, -, hm, -⟩ := exists_start_of_search_eq_some hsearch
        obtain ⟨c, hc, hvisible⟩ := exists_mem_take_of_needsVisible h hm
        rw [Position.rest_skip] at hc
        rw [List.take_add, List.countP_pos_iff]
        exact ⟨c, List.mem_append_right _ hc, isVisibleAscii_iff.mpr hvisible⟩
      calc p.tally s
        _ = p.tally (s.skip n) + 1 := tally_of_search_eq_some hconsumes hsearch
        _ ≤ (s.rest.take n).countP isVisibleAscii + (s.rest.drop n).countP isVisibleAscii := by
          omega
        _ = s.rest.countP isVisibleAscii := by rw [← List.countP_append, List.take_append_drop]

/-- A pattern that needs a visible character is found no more often than there are such characters.
-/
theorem count_le_countP_isVisibleAscii (h : p.needsVisible = true) (text : List Char) :
    p.count text ≤ text.countP isVisibleAscii :=
  tally_le_countP_isVisibleAscii h ⟨none, text⟩

end Pattern

/-!
## Classifications

Every rule of the catalog needs a visible character of ASCII, be it a letter of a keyword or a
punctuation mark, so that it is found no more often than a text has such characters
(`CatalogEntry.countIn_le`).  In a text that has none, as prose in most scripts other than Latin,
nothing is found for or against any language, and a file extension given as a hint is all the
evidence there can be (`ProseLaw`).
-/

/-! ### Nothing is found -/

/-- Whether the matcher, if there is one, needs a visible character of ASCII. -/
def Rule.needsVisible (matcher : Except PatternError (Option Pattern)) : Bool :=
  matcher.toOption.join.all Pattern.needsVisible

/-- All built-in rules need a visible character of ASCII. -/
lemma Rules.needsVisible_of_mem {rule : Rule} (hrule : rule ∈ groups.flatten) :
    Rule.needsVisible rule.matcher = true := by
  have hall : (spelling.all fun _ matcher => Rule.needsVisible matcher) = true := by
    decide +kernel
  exact spelling.forall_of_all _ hall rule hrule

/-- A signature occurs no more often than a text has visible characters of ASCII. -/
theorem CatalogEntry.countIn_le {language : Language} {signature : Signature}
    (hmem : signature ∈ (builtin language).signatures) (text : List Char) :
    signature.countIn text ≤ text.countP isVisibleAscii := by
  rcases mem_builtin_signatures.mp hmem with ⟨rule, hrule, rfl⟩ | ⟨extension, -, rfl⟩
  · have hvisible := Rules.needsVisible_of_mem (Rules.mem_flatten_groups_of_mem_ofLanguage hrule)
    change rule.countIn text ≤ _
    rcases Rule.countIn_cases hvisible with ⟨pattern, hneeds, heq⟩ | hnone
    · rw [heq]
      exact Pattern.count_le_countP_isVisibleAscii hneeds text
    · rw [hnone text]
      exact Nat.zero_le _
  · exact Nat.zero_le _

/-- The features of a language in a text where nothing is found. -/
def LanguageFeatures.none {α : Type} [Scalar α] (language : Language) : LanguageFeatures α :=
  { language, hits := [], rawScore := Scalar.ofNat 0, strongHits := 0 }

/-- Where no signature is found, a language has no features. -/
lemma LanguageFeatures.ofEntry_eq_none {α : Type} [Scalar α] {text : List Char}
    {entry : CatalogEntry} (h : ∀ signature ∈ entry.signatures, signature.countIn text = 0)
    (cap : Nat) : (ofEntry text cap entry : LanguageFeatures α) = .none entry.language := by
  have hhits : (entry.signatures.filterMap fun signature =>
      let count := min (signature.countIn text) cap
      if 0 < count then some (Hit.ofCount signature count : Hit α) else Option.none) = [] := by
    refine List.filterMap_eq_nil_iff.mpr fun signature hmem => ?_
    rw [h signature hmem, Nat.zero_min]
    exact if_neg (Nat.lt_irrefl 0)
  unfold ofEntry
  rw [hhits]
  rfl

section Prose

variable {text : List Char} (h : OnlyBlankAscii text)

include h

/-- Taking blanks off the ends of a text makes none of its characters visible. -/
lemma OnlyBlankAscii.trim : OnlyBlankAscii (trim text) := by
  intro c hc
  refine h c ?_
  by_contra hnot
  exact notMem_trim hnot hc

/-- No signature of the catalog occurs in the text. -/
theorem OnlyBlankAscii.countIn_eq_zero {entry : CatalogEntry}
    (hentry : entry ∈ Catalog.builtin.entries) :
    ∀ signature ∈ entry.signatures, signature.countIn text = 0 := by
  obtain ⟨language, -, rfl⟩ := Catalog.mem_builtin_entries.mp hentry
  intro signature hmem
  have hle := CatalogEntry.countIn_le hmem text
  rwa [h.countP_eq_zero, Nat.le_zero] at hle

/-- Without a hint nothing is found in the trimmed text. -/
lemma OnlyBlankAscii.ofHint_none_eq {α : Type} [Scalar α] {language : Language}
    (hsupported : language ∈ Language.supported) (cap : Nat) :
    (LanguageFeatures.ofHint (Characters.trim text) cap none (.builtin language) :
      LanguageFeatures α) = .none language := by
  have hentry := Catalog.mem_builtin_entries.mpr ⟨language, hsupported, rfl⟩
  exact LanguageFeatures.ofEntry_eq_none (h.trim.countIn_eq_zero hentry) cap

/-- No language has features in such a text. -/
theorem OnlyBlankAscii.features_languages_eq {α : Type} [Scalar α] (thresholds : Thresholds α) :
    (features .builtin thresholds text none).languages = Language.supported.map .none := by
  rw [builtin_features_languages]
  exact List.map_congr_left fun language hmem => h.ofHint_none_eq hmem thresholds.cap

/-! ### What a hint adds -/

section Hint

variable (thresholds : Thresholds Rat) (hint : Option String) {language : Language}

/-- The score of a language is what the hint adds to it. -/
lemma OnlyBlankAscii.rawScore_candidateFor (hsupported : language ∈ Language.supported) :
    (candidateFor thresholds text hint language).rawScore = hintBonus hint language := by
  have hscore : (LanguageFeatures.none language : LanguageFeatures Rat).rawScore =
      Rules.score (Rules.ofLanguage language) (Characters.trim text) thresholds.cap := by
    rw [← h.ofHint_none_eq hsupported thresholds.cap]
    exact LanguageFeatures.rawScore_ofEntry _ _ language
  rw [candidateFor_rawScore thresholds text hint hsupported, ← hscore]
  exact zero_add _

/-- The language that the hint names has its file extension as evidence, and nothing else. -/
lemma OnlyBlankAscii.exists_evidence_eq (hnamed : namedBy hint = some language) :
    (candidateFor thresholds text hint language).strongHits = 0 ∧
      ∃ listed, (candidateFor thresholds text hint language).evidence =
        [.ofHit (.ofExtension (.ofExtension language listed))] := by
  obtain ⟨hsupported, extension, rfl, hextension⟩ := spec_of_namedBy_eq_some hnamed
  obtain ⟨listed, hcredit⟩ := @LanguageFeatures.exists_ofHint_eq_credit Rat _ _ _ hextension
    (Characters.trim text) thresholds.cap
  rw [h.ofHint_none_eq hsupported] at hcredit
  unfold candidateFor
  rw [hcredit]
  exact ⟨rfl, listed, rfl⟩

variable {thresholds hint} (hscored : IsScored thresholds text)

include hscored

/-- Without a language that the hint names there is no evidence. -/
lemma OnlyBlankAscii.inconclusive_eq (hnamed : namedBy hint = none) :
    (classify .builtin thresholds text hint).inconclusive = some .noEvidence := by
  refine (outcome_classify thresholds text hint).noEvidence_iff.mpr ⟨hscored, ?_⟩
  rw [builtin_features_languages]
  intro l hl
  obtain ⟨language, hsupported, rfl⟩ := List.mem_map.mp hl
  have hscore := h.rawScore_candidateFor thresholds hint hsupported
  rw [hintBonus_of_ne (by simp [hnamed])] at hscore
  exact le_of_eq hscore

/-- The language that the hint names is on top, because nothing speaks for the others. -/
lemma OnlyBlankAscii.top_eq_candidateFor (hnamed : namedBy hint = some language) :
    (classify .builtin thresholds text hint).inconclusive = none ∧
      (classify .builtin thresholds text hint).top =
        candidateFor thresholds text hint language := by
  have hsupported := (spec_of_namedBy_eq_some hnamed).1
  have hpos : 0 < (candidateFor thresholds text hint language).rawScore := by
    rw [h.rawScore_candidateFor thresholds hint hsupported, hintBonus_of_eq hnamed]
    norm_num
  have hconclusive := conclusive_of_rawScore_pos hint hscored hsupported hpos
  obtain ⟨htopSupported, htop⟩ := LanguageDetection.top_eq_candidateFor hconclusive
  refine ⟨hconclusive, ?_⟩
  -- the top has a positive score, and only the hint gives points
  have htopPos := (Classification.named_top_of_conclusive hconclusive).rawScore_pos
  have hlanguage : namedBy hint =
      some (classify .builtin thresholds text hint).top.language := by
    by_contra hne
    rw [htop, h.rawScore_candidateFor thresholds hint htopSupported, hintBonus_of_ne hne] at htopPos
    exact lt_irrefl _ htopPos
  rw [hnamed, Option.some.injEq] at hlanguage
  rw [htop, ← hlanguage]

end Hint

end Prose

/-! ### The law -/

/-- The classification of a text that has no ASCII but white space. -/
structure ProseLaw (thresholds : Thresholds Rat) (text : List Char) (hint : Option String)
    (result : Classification Rat) : Prop where
  countIn_eq_zero : ∀ entry ∈ Catalog.builtin.entries, ∀ signature ∈ entry.signatures,
    signature.countIn text = 0
  /-- Before a hint every language has no hits and the score zero, whatever numbers the scores are
  made of. -/
  languages_eq : ∀ (α : Type) [Scalar α] (thresholds : Thresholds α),
    (features .builtin thresholds text none).languages = Language.supported.map .none
  emptyInput : Characters.trim text = [] → result.inconclusive = some .emptyInput
  binaryInput : Characters.trim text ≠ [] →
    looksBinary text thresholds.binaryRatioThreshold = true →
      result.inconclusive = some .binaryInput
  noEvidence : IsScored thresholds text → namedBy hint = none →
    result.inconclusive = some .noEvidence
  /-- A hint decides alone, with two points and the file extension as evidence. -/
  named : IsScored thresholds text → ∀ language, namedBy hint = some language →
    result.inconclusive = none ∧ result.top.language = language ∧ result.top.rawScore = 2 ∧
      result.top.strongHits = 0 ∧
      ∃ listed, result.top.evidence = [.ofHit (.ofExtension (.ofExtension language listed))]

/-- The law holds of all texts without ASCII but white space. -/
theorem proseLaw_classify (thresholds : Thresholds Rat) {text : List Char} (hint : Option String)
    (h : OnlyBlankAscii text) :
    ProseLaw thresholds text hint (classify .builtin thresholds text hint) := by
  have houtcome := outcome_classify thresholds text hint
  exact {
    countIn_eq_zero := fun entry hentry => h.countIn_eq_zero hentry
    languages_eq := fun α _ thresholds => h.features_languages_eq thresholds
    emptyInput := houtcome.emptyInput_iff.mpr
    binaryInput := fun htext hbinary => houtcome.binaryInput_iff.mpr ⟨htext, hbinary⟩
    noEvidence := fun hscored hnamed => h.inconclusive_eq hscored hnamed
    named := by
      intro hscored language hnamed
      obtain ⟨hconclusive, htop⟩ := h.top_eq_candidateFor hscored hnamed
      obtain ⟨hstrong, hevidence⟩ := h.exists_evidence_eq thresholds hint hnamed
      rw [htop, h.rawScore_candidateFor thresholds hint (spec_of_namedBy_eq_some hnamed).1,
        hintBonus_of_eq hnamed]
      exact ⟨hconclusive, candidateFor_language _ _ _ _, rfl, hstrong, hevidence⟩ }

/-- A greeting in Russian, from a file that is named like a program in Python. -/
theorem proseLaw_greeting :
    let text := "привет\tмир\n".toList
    OnlyBlankAscii text ∧
      ProseLaw .default text (some "py") (classify .builtin .default text (some "py")) ∧
      (classify .builtin (Thresholds.default : Thresholds Rat) text (some "py")).top.language =
        .python := by
  intro text
  have htext : OnlyBlankAscii text := by decide +kernel
  have law := proseLaw_classify .default (some "py") htext
  have hscored : IsScored (Thresholds.default : Thresholds Rat) text :=
    ⟨by decide +kernel, by decide +kernel⟩
  have hnamed : namedBy (some "py") = some .python := by
    rw [namedBy_some, Catalog.languageForExtension_builtin_eq_some_iff]
    exact ⟨by decide, by decide +kernel⟩
  exact ⟨htext, law, (law.named hscored .python hnamed).2.1⟩

end LanguageDetection
