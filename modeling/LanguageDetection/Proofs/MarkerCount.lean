import LanguageDetection.Features
import LanguageDetection.Proofs.Catalog
import LanguageDetection.Proofs.Pattern.Literal

/-!
# What keywords and operators count

The marker of a keyword is a word, and that of an operator is a sequence of characters.  Their
patterns are made from these, and `PlainMarkerLaw` says that they count what they stand for: how
often the word stands alone in the text, and how often the sequence is met on the way through the
text from left to right.  Text that is added behind blanks has its own markers only, so that it
takes nothing away from what counted before.
-/

namespace LanguageDetection

open Characters

/-! ## Words and sequences -/

namespace Rule

/-- Whether the rule, if it is a keyword or an operator, has a marker that is found as it stands: a
word of word characters, or a sequence without blanks. -/
def isPlain (rule : Rule) : Bool :=
  match rule.kind with
  | .keyword => !rule.text.toList.isEmpty && rule.text.toList.all isWord
  | .operator => !rule.text.toList.isEmpty && rule.text.toList.all (!isBlank ·)
  | .comment | .pattern | .extension => true

end Rule

/-- All built-in keywords and operators are found as they stand. -/
lemma Rules.isPlain_of_mem : ∀ rule ∈ groups.flatten, rule.isPlain = true := by
  decide +kernel

/-- A signature that is counted by finding its text, which is to stand `alone` or not. -/
structure Signature.Plain (signature : Signature) (alone : Bool) : Prop where
  exists_finds : ∃ pattern : Pattern, signature.matcher = some pattern ∧
    pattern.Finds alone signature.text.toList
  ne_nil : signature.text.toList ≠ []
  not_isBlank : ∀ c ∈ signature.text.toList, isBlank c = false

/-- A word character is not blank. -/
lemma isBlank_eq_false_of_isWord {c : Char} (h : isWord c = true) : isBlank c = false := by
  by_contra hblank
  rw [Bool.not_eq_false] at hblank
  rw [isWord_eq_false_of_isBlank hblank] at h
  exact Bool.false_ne_true h

section Builtin

variable {rule : Rule} (language : Language) (hplain : rule.isPlain = true)

include hplain

/-- A keyword is found where it stands alone. -/
lemma Rule.plain_of_keyword (hkind : rule.kind = .keyword) :
    (rule.signature language).Plain true ∧ ∀ c ∈ rule.text.toList, isWord c = true := by
  have hmatcher : (rule.signature language).matcher = some (.wholeWord rule.text.toList) := by
    unfold signature matcher
    rw [hkind]
    rfl
  unfold isPlain at hplain
  rw [hkind] at hplain
  dsimp only at hplain
  rw [Bool.and_eq_true, Bool.not_eq_true', List.isEmpty_eq_false_iff, List.all_eq_true] at hplain
  obtain ⟨hne, hword⟩ := hplain
  refine ⟨?_, hword⟩
  exact {
    exists_finds := ⟨_, hmatcher, Pattern.finds_wholeWord hne hword⟩
    ne_nil := hne
    not_isBlank := fun c hc => isBlank_eq_false_of_isWord (hword c hc) }

/-- An operator is found wherever it stands. -/
lemma Rule.plain_of_operator (hkind : rule.kind = .operator) :
    (rule.signature language).Plain false := by
  have hmatcher : (rule.signature language).matcher = some (.literal rule.text.toList) := by
    unfold signature matcher
    rw [hkind]
    rfl
  unfold isPlain at hplain
  rw [hkind] at hplain
  dsimp only at hplain
  rw [Bool.and_eq_true, Bool.not_eq_true', List.isEmpty_eq_false_iff, List.all_eq_true] at hplain
  obtain ⟨hne, hblank⟩ := hplain
  exact {
    exists_finds := ⟨_, hmatcher, Pattern.finds_literal _⟩
    ne_nil := hne
    not_isBlank := fun c hc => by simpa using hblank c hc }

end Builtin

namespace CatalogEntry

variable {language : Language} {signature : Signature}
  (hmem : signature ∈ (builtin language).signatures)

include hmem

/-- A signature that is not a file extension is that of a rule. -/
lemma exists_rule_of_kind_ne (hkind : signature.kind ≠ .extension) :
    ∃ rule ∈ Rules.groups.flatten, signature = rule.signature language := by
  rcases mem_builtin_signatures.mp hmem with ⟨rule, hrule, rfl⟩ | ⟨extension, -, rfl⟩
  · exact ⟨rule, Rules.mem_flatten_groups_of_mem_ofLanguage hrule, rfl⟩
  · exact absurd rfl hkind

/-- A keyword is a word that is found by itself. -/
lemma plain_of_keyword (hkind : signature.kind = .keyword) :
    signature.Plain true ∧ ∀ c ∈ signature.text.toList, isWord c = true := by
  have hne : signature.kind ≠ .extension := by
    rw [hkind]
    exact MarkerKind.noConfusion
  obtain ⟨rule, hrule, rfl⟩ := exists_rule_of_kind_ne hmem hne
  exact Rule.plain_of_keyword language (Rules.isPlain_of_mem rule hrule) hkind

/-- An operator is found wherever it stands. -/
lemma plain_of_operator (hkind : signature.kind = .operator) : signature.Plain false := by
  have hne : signature.kind ≠ .extension := by
    rw [hkind]
    exact MarkerKind.noConfusion
  obtain ⟨rule, hrule, rfl⟩ := exists_rule_of_kind_ne hmem hne
  exact Rule.plain_of_operator language (Rules.isPlain_of_mem rule hrule) hkind

/-- Keywords and operators are found as they stand. -/
lemma exists_plain (hkind : signature.kind = .keyword ∨ signature.kind = .operator) :
    ∃ alone, signature.Plain alone := by
  rcases hkind with hkeyword | hoperator
  · exact ⟨true, (plain_of_keyword hmem hkeyword).1⟩
  · exact ⟨false, plain_of_operator hmem hoperator⟩

end CatalogEntry

/-! ## Counts -/

namespace Signature

variable {signature : Signature} {alone : Bool} (h : signature.Plain alone)

include h

/-- What stands on the two sides of blanks is counted apart. -/
lemma Plain.countIn_append {blanks : List Char} (hblanks : blanks ≠ [])
    (hall : ∀ c ∈ blanks, isBlank c = true) (text behind : List Char) :
    signature.countIn (text ++ blanks ++ behind) =
      signature.countIn text + signature.countIn behind := by
  obtain ⟨pattern, hmatcher, hfinds⟩ := h.exists_finds
  unfold countIn
  rw [hmatcher]
  exact hfinds.count_append h.ne_nil h.not_isBlank hblanks hall text behind

/-- A word by itself is counted wherever it stands alone. -/
lemma Plain.countIn_eq_wordCount (halone : alone = true)
    (hword : ∀ c ∈ signature.text.toList, isWord c = true) (text : List Char) :
    signature.countIn text = wordCount signature.text.toList text := by
  obtain ⟨pattern, hmatcher, hfinds⟩ := h.exists_finds
  unfold countIn
  rw [hmatcher]
  exact hfinds.count_eq_wordCount h.ne_nil halone hword text

/-- Any other text is counted on the way through, without overlap. -/
lemma Plain.countIn_eq_scanCount (halone : alone = false) (text : List Char) :
    signature.countIn text = scanCount signature.text.toList text := by
  obtain ⟨pattern, hmatcher, hfinds⟩ := h.exists_finds
  unfold countIn
  rw [hmatcher]
  exact hfinds.count_eq_scanCount h.ne_nil halone text

end Signature

/-- What a signature contributes to the score of a text that it is counted in, at most `cap`
times. -/
def Signature.contributionIn (signature : Signature) (text : List Char) (cap : Nat) : Rat :=
  (Hit.ofCount signature (min (signature.countIn text) cap)).contribution

/-- A greater count contributes no less, for or against the language. -/
lemma Signature.abs_contributionIn_le {signature : Signature} {text text' : List Char}
    (h : signature.countIn text ≤ signature.countIn text') (cap : Nat) :
    |signature.contributionIn text cap| ≤ |signature.contributionIn text' cap| := by
  have hcount : ((min (signature.countIn text) cap : Nat) : Rat) ≤
      ((min (signature.countIn text') cap : Nat) : Rat) := by
    exact_mod_cast min_le_min_right cap h
  change |signature.signedWeight * ((min (signature.countIn text) cap : Nat) : Rat)| ≤
    |signature.signedWeight * ((min (signature.countIn text') cap : Nat) : Rat)|
  rw [abs_mul, abs_mul, Nat.abs_cast, Nat.abs_cast]
  exact mul_le_mul_of_nonneg_left hcount (abs_nonneg _)

/-! ## The law -/

/-- What a keyword or an operator counts. -/
structure Signature.PlainMarkerLaw (signature : Signature) : Prop where
  countIn_keyword : signature.kind = .keyword → ∀ text : List Char,
    signature.countIn text = wordCount signature.text.toList text
  countIn_operator : signature.kind = .operator → ∀ text : List Char,
    signature.countIn text = scanCount signature.text.toList text
  /-- What stands on both sides of blanks is counted apart. -/
  countIn_append : signature.kind = .keyword ∨ signature.kind = .operator →
    ∀ text blanks behind : List Char, blanks ≠ [] → (∀ c ∈ blanks, isBlank c = true) →
      signature.countIn (text ++ blanks ++ behind) =
        signature.countIn text + signature.countIn behind
  /-- So nothing that is added behind blanks, or in front of them, lowers a contribution. -/
  abs_contributionIn_le : signature.kind = .keyword ∨ signature.kind = .operator →
    ∀ (text blanks behind : List Char) (cap : Nat), blanks ≠ [] →
      (∀ c ∈ blanks, isBlank c = true) →
        |signature.contributionIn text cap| ≤
            |signature.contributionIn (text ++ blanks ++ behind) cap| ∧
          |signature.contributionIn behind cap| ≤
            |signature.contributionIn (text ++ blanks ++ behind) cap|

/-- The law holds of every keyword and every operator that is built in. -/
theorem plainMarkerLaw_builtin {entry : CatalogEntry} {signature : Signature}
    (hentry : entry ∈ Catalog.builtin.entries) (hmem : signature ∈ entry.signatures) :
    signature.PlainMarkerLaw := by
  rw [Catalog.builtin_entries] at hentry
  obtain ⟨language, -, rfl⟩ := List.mem_map.mp hentry
  exact {
    countIn_keyword := by
      intro hkind text
      obtain ⟨hplain, hword⟩ := CatalogEntry.plain_of_keyword hmem hkind
      exact hplain.countIn_eq_wordCount rfl hword text
    countIn_operator := by
      intro hkind text
      exact (CatalogEntry.plain_of_operator hmem hkind).countIn_eq_scanCount rfl text
    countIn_append := by
      intro hkind text blanks behind hblanks hall
      obtain ⟨alone, hplain⟩ := CatalogEntry.exists_plain hmem hkind
      exact hplain.countIn_append hblanks hall text behind
    abs_contributionIn_le := by
      intro hkind text blanks behind cap hblanks hall
      obtain ⟨alone, hplain⟩ := CatalogEntry.exists_plain hmem hkind
      have hcount := hplain.countIn_append hblanks hall text behind
      constructor
      · exact Signature.abs_contributionIn_le (hcount ▸ Nat.le_add_right _ _) cap
      · exact Signature.abs_contributionIn_le (hcount ▸ Nat.le_add_left _ _) cap }

/-- The keyword of a function in Rust. -/
def fnKeyword : Signature := Rule.signature .rust Rules.rust[0]

/-- The strict equality of JavaScript. -/
def strictEquality : Signature := Rule.signature .javaScript Rules.javaScriptCore[3]

/-- Of five times `fn` two stand alone, and in seven equals signs strict equality is met twice. -/
theorem plainMarkerLaw_fn_strictEquality :
    (fnKeyword.PlainMarkerLaw ∧ fnKeyword.countIn "fn_ fn(fn) fnord _fn".toList = 2) ∧
      strictEquality.PlainMarkerLaw ∧ strictEquality.countIn "=======".toList = 2 := by
  have hrust : CatalogEntry.builtin .rust ∈ Catalog.builtin.entries := by
    rw [Catalog.builtin_entries]
    exact List.mem_map_of_mem (by decide)
  have hscript : CatalogEntry.builtin .javaScript ∈ Catalog.builtin.entries := by
    rw [Catalog.builtin_entries]
    exact List.mem_map_of_mem (by decide)
  have hfn : fnKeyword ∈ (CatalogEntry.builtin .rust).signatures :=
    List.mem_append_left _
      (List.mem_map_of_mem (by simp [Rules.ofLanguage, Rules.table, Rules.rust]))
  have hequality : strictEquality ∈ (CatalogEntry.builtin .javaScript).signatures :=
    List.mem_append_left _ (List.mem_map_of_mem (by
      simp [Rules.ofLanguage, Rules.table, Rules.javaScriptCore]))
  have hkeyword := plainMarkerLaw_builtin hrust hfn
  have hoperator := plainMarkerLaw_builtin hscript hequality
  refine ⟨⟨hkeyword, ?_⟩, hoperator, ?_⟩
  · rw [hkeyword.countIn_keyword rfl]
    decide
  · rw [hoperator.countIn_operator rfl]
    decide

end LanguageDetection
