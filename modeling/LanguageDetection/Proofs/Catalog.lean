import Mathlib.Tactic.Common
import LanguageDetection.Catalog
import LanguageDetection.Proofs.ExactScalar

/-!
# The built-in catalog

The table of the built-in rules, the catalog that it makes, and the language that a file extension
stands for.
-/

namespace LanguageDetection

/-!
## The rules letter by letter

Whether a rule can be read, and what its pattern is like, is settled by computation.  The kernel
decodes the bytes of a string literal in quadratic time, so the computation runs on lists of
characters instead: a literal is `String.ofList` of its characters by definition, and the lists
are found by unification, without decoding anything.

`Spelled text` holds the characters of one text and `Spelling rules` those of the texts of all
`rules`.  `Spelling.forall_of_all` is the way in: a Boolean check that passes on the spelled rules
holds of every rule and the matcher that the rule has.  `Rules.spelling` spells all built-in rules.
-/

/-- A text with its characters. -/
structure Spelled (text : String) where
  letters : List Char
  ofList_letters : String.ofList letters = text

namespace Spelled

/-- A literal is its characters. -/
def literal (letters : List Char) : Spelled (String.ofList letters) :=
  ⟨letters, rfl⟩

/-- Two texts, one after the other. -/
def append {first second : String} (s : Spelled first) (t : Spelled second) :
    Spelled (first ++ second) :=
  ⟨s.letters ++ t.letters, by
    rw [String.ofList_append, s.ofList_letters, t.ofList_letters]⟩

/-- The characters of a spelled text are its letters. -/
lemma toList_eq {text : String} (s : Spelled text) : text.toList = s.letters := by
  obtain ⟨letters, rfl⟩ := s
  exact String.toList_ofList

end Spelled

/-- The characters of the texts of rules. -/
inductive Spelling : List Rule → Type where
  | nil : Spelling []
  | cons {rule : Rule} {rules : List Rule} (text : Spelled rule.text) (rest : Spelling rules) :
      Spelling (rule :: rules)

namespace Spelling

/-- The spelling of two lists of rules, one after the other. -/
def append {rules rules' : List Rule} :
    Spelling rules → Spelling rules' → Spelling (rules ++ rules')
  | nil, others => others
  | cons text rest, others => cons text (rest.append others)

/-- Whether every rule passes a check together with its matcher. -/
def all (check : Rule → Except PatternError (Option Pattern) → Bool) :
    {rules : List Rule} → Spelling rules → Bool
  | _, nil => true
  | rule :: _, cons text rest => check rule (rule.kind.matcher text.letters) && rest.all check

/-- A check that passes on the spelled rules holds of each rule and its matcher. -/
theorem forall_of_all (check : Rule → Except PatternError (Option Pattern) → Bool)
    {rules : List Rule} (spelling : Spelling rules) (passed : spelling.all check = true) :
    ∀ rule ∈ rules, check rule rule.matcher = true := by
  induction spelling with
  | nil => simp
  | cons text rest ih =>
    rw [all, Bool.and_eq_true] at passed
    rintro rule (_ | ⟨_, hrule⟩)
    · rw [Rule.matcher, text.toList_eq]
      exact passed.1
    · exact ih passed.2 rule hrule

end Spelling

namespace Rules

/-- The groups that the table is made of. -/
def groups : List (List Rule) :=
  [cFamily, javaScriptCore, typeScriptOnly, java, cCore, cOnly, cppOnly, go, rust, php, python,
   ruby, shell, sql, html, css, json]

/-- The characters of all built-in rules. -/
noncomputable def spelling : Spelling groups.flatten := by
  repeat' first
    | exact Spelling.nil
    | exact Spelled.literal _
    | apply Spelled.append
    | apply Spelling.append
    | apply Spelling.cons

/-- A rule that the table gives some language is spelled. -/
lemma mem_flatten_groups {row : Language × List (List Rule)} (hrow : row ∈ table)
    {group : List Rule} (hgroup : group ∈ row.2) {rule : Rule} (hrule : rule ∈ group) :
    rule ∈ groups.flatten := by
  have hgroups : ∀ row ∈ table, ∀ group ∈ row.2, group ∈ groups := by
    simp [table, groups]
  exact List.mem_flatten.mpr ⟨group, hgroups row hrow group hgroup, hrule⟩

end Rules

/-!
## Rules and entries

Every built-in rule can be read, none is about a file extension, and each weight is a half-integer
from above zero to ten (`Rules.sound_of_mem`).  Reading the table therefore succeeds, and the
catalog it gives is known outright: `Catalog.builtin_entries` says that the supported languages have
one entry each, with the signatures of their rules in order and then those of their file extensions.
-/

/-! ### Rules -/

/-- What every built-in rule is like. -/
structure Rule.Sound (rule : Rule) : Prop where
  readable : ∃ matcher, rule.matcher = .ok matcher
  kind_ne : rule.kind ≠ .extension
  weight_pos : 0 < rule.weight
  weight_le : rule.weight ≤ 10
  weight_half : IsHalfInteger rule.weight

namespace Rule

/-- The test for `Rule.Sound` on a rule and its matcher. -/
def isSound (rule : Rule) (matcher : Except PatternError (Option Pattern)) : Bool :=
  matcher.isOk && rule.kind ≠ .extension && 0 < rule.weight && rule.weight ≤ 10 &&
    (2 * rule.weight).den = 1

/-- The check on a rule and its matcher is enough. -/
lemma sound_of_isSound {rule : Rule} (h : rule.isSound rule.matcher = true) : rule.Sound := by
  simp only [isSound, Bool.and_eq_true, decide_eq_true_eq] at h
  obtain ⟨⟨⟨⟨hread, hkind⟩, hpos⟩, hle⟩, hden⟩ := h
  refine ⟨?_, hkind, hpos, hle, IsHalfInteger.of_den hden⟩
  cases hmatcher : rule.matcher with
  | ok matcher => exact ⟨matcher, rfl⟩
  | error fault =>
    rw [hmatcher] at hread
    exact absurd hread Bool.false_ne_true

/-- The signature that a readable rule gives a language. -/
def signature (language : Language) (rule : Rule) : Signature :=
  { language, markerClass := rule.markerClass, kind := rule.kind, text := rule.text,
    label := rule.label, weight := rule.weight, matcher := rule.matcher.toOption.join }

/-- A sound rule can be read. -/
lemma ofRule_eq_ok {rule : Rule} (h : rule.Sound) (language : Language) :
    Signature.ofRule language rule = .ok (rule.signature language) := by
  obtain ⟨matcher, hmatcher⟩ := h.readable
  unfold Signature.ofRule signature
  rw [hmatcher]
  rfl

end Rule

namespace Rules

/-- All built-in rules are sound. -/
theorem sound_of_mem {rule : Rule} (hrule : rule ∈ groups.flatten) : rule.Sound :=
  Rule.sound_of_isSound (spelling.forall_of_all Rule.isSound (by decide +kernel) rule hrule)

/-- The built-in rules of a language, in order. -/
def ofLanguage (language : Language) : List Rule :=
  (table.filter (·.1 = language)).flatMap fun row => row.2.flatten

/-- The rules of a language are among the rules of the groups. -/
lemma mem_flatten_groups_of_mem_ofLanguage {language : Language} {rule : Rule}
    (hrule : rule ∈ ofLanguage language) : rule ∈ groups.flatten := by
  obtain ⟨row, hrow, hflatten⟩ := List.mem_flatMap.mp hrule
  obtain ⟨group, hgroup, hmem⟩ := List.mem_flatten.mp hflatten
  exact mem_flatten_groups (List.mem_of_mem_filter hrow) hgroup hmem

/-- The rules of a language are sound. -/
lemma sound_of_mem_ofLanguage {language : Language} {rule : Rule}
    (hrule : rule ∈ ofLanguage language) : rule.Sound :=
  sound_of_mem (mem_flatten_groups_of_mem_ofLanguage hrule)

/-- Each supported language has rules, and fewer than fifty. -/
lemma length_ofLanguage {language : Language} (h : language ∈ Language.supported) :
    0 < (ofLanguage language).length ∧ (ofLanguage language).length < 50 := by
  revert language
  decide

end Rules

/-! ### Entries -/

/-- Reading succeeds on a list where it succeeds on every member. -/
lemma mapM_eq_ok {α β ε : Type} {f : α → Except ε β} {g : α → β} {l : List α}
    (h : ∀ a ∈ l, f a = .ok (g a)) : l.mapM f = .ok (l.map g) := by
  induction l with
  | nil => rfl
  | cons a l ih =>
    rw [List.mapM_cons, h a (by simp), ih fun b hb => h b (by simp [hb])]
    rfl

/-- The entry of a language: its rules, then its file extensions. -/
def CatalogEntry.builtin (language : Language) : CatalogEntry :=
  { language
    signatures := (Rules.ofLanguage language).map (Rule.signature language) ++
      language.extensions.map (Signature.ofExtension language) }

namespace CatalogEntry

/-- A signature of a language is that of one of its rules or of one of its file extensions. -/
lemma mem_builtin_signatures {language : Language} {signature : Signature} :
    signature ∈ (builtin language).signatures ↔
      (∃ rule ∈ Rules.ofLanguage language, rule.signature language = signature) ∨
        ∃ extension ∈ language.extensions, .ofExtension language extension = signature := by
  rw [builtin, List.mem_append, List.mem_map, List.mem_map]

/-- The weight of a signature is a half-integer from above zero to ten. -/
lemma weight_of_mem_builtin {language : Language} {signature : Signature}
    (h : signature ∈ (builtin language).signatures) :
    IsHalfInteger signature.weight ∧ 0 < signature.weight ∧ signature.weight ≤ 10 := by
  rcases mem_builtin_signatures.mp h with ⟨rule, hrule, rfl⟩ | ⟨extension, -, rfl⟩
  · have hsound := Rules.sound_of_mem_ofLanguage hrule
    exact ⟨hsound.weight_half, hsound.weight_pos, hsound.weight_le⟩
  · refine ⟨IsHalfInteger.intCast 2, ?_, ?_⟩ <;>
      norm_num [Signature.ofExtension, Signature.extensionWeight]

/-- No language has more than 59 signatures. -/
lemma length_builtin_signatures {language : Language} (h : language ∈ Language.supported) :
    (builtin language).signatures.length ≤ 59 := by
  have hrules := (Rules.length_ofLanguage h).2
  have hextensions : language.extensions.length ≤ 9 := by
    cases language <;> decide
  unfold builtin
  rw [List.length_append, List.length_map, List.length_map]
  omega

end CatalogEntry

namespace Catalog

/-- The table of rules gives every supported language its entry. -/
lemma entryOfTable_eq_ok {language : Language} (h : language ∈ Language.supported) :
    entryOfTable Rules.table language = .ok (.builtin language) := by
  have hread : (Rules.ofLanguage language).mapM (Signature.ofRule language) =
      .ok ((Rules.ofLanguage language).map (Rule.signature language)) :=
    mapM_eq_ok fun rule hrule => Rule.ofRule_eq_ok (Rules.sound_of_mem_ofLanguage hrule) language
  have hsome : ((Rules.ofLanguage language).map (Rule.signature language)).isEmpty = false := by
    have hpos := (Rules.length_ofLanguage h).1
    rw [List.isEmpty_eq_false_iff, ← List.length_pos_iff, List.length_map]
    exact hpos
  change ((Rules.ofLanguage language).mapM (Signature.ofRule language) >>= _) = _
  rw [hread]
  change (if _ then _ else _) = _
  rw [hsome]
  rfl

/-- The built-in catalog has one entry for each supported language, in the languages' order. -/
theorem builtin_entries : builtin.entries = Language.supported.map .builtin := by
  have htable : ofTable Rules.table = .ok { entries := Language.supported.map .builtin } := by
    unfold ofTable
    rw [mapM_eq_ok fun language h => entryOfTable_eq_ok h]
    rfl
  rw [builtin, htable]
  rfl

/-- The entries of the built-in catalog are those of the supported languages. -/
lemma mem_builtin_entries {entry : CatalogEntry} :
    entry ∈ builtin.entries ↔ ∃ language ∈ Language.supported, .builtin language = entry := by
  rw [builtin_entries, List.mem_map]

end Catalog

/-!
## File extensions

A file extension belongs to one language at most.  The extensions of the languages are pairwise
different, also without regard to case, and no built-in rule is about a file extension, so the
signature that matches an extension is that of the one language that lists it
(`Catalog.languageForExtension_builtin_eq_some_iff`).
-/

/-- What is looked up by a test that one element passes at most is the element that passes it. -/
lemma find?_eq_some_iff_of_unique {α : Type} {l : List α} {test : α → Bool}
    (hunique : ∀ a ∈ l, ∀ b ∈ l, test a = true → test b = true → a = b) {a : α} :
    l.find? test = some a ↔ a ∈ l ∧ test a = true := by
  constructor
  · intro hsome
    exact ⟨List.mem_of_find?_eq_some hsome, List.find?_some hsome⟩
  · rintro ⟨hmem, htest⟩
    cases hfirst : l.find? test with
    | none => exact absurd htest (List.find?_eq_none.mp hfirst a hmem)
    | some first =>
      rw [hunique first (List.mem_of_find?_eq_some hfirst) a hmem (List.find?_some hfirst) htest]

namespace Language

/-- Whether a language lists a file extension, whatever its case and the dots in front. -/
def hasExtension (language : Language) (extension : String) : Bool :=
  language.extensions.any fun listed =>
    Characters.lowercase listed.toList ==
      Characters.lowercase (extension.toList.dropWhile (· == '.'))

/-- No extension is listed by two languages. -/
lemma eq_of_lowercase_extension_eq : ∀ a ∈ supported, ∀ b ∈ supported, ∀ e ∈ a.extensions,
    ∀ f ∈ b.extensions,
      Characters.lowercase e.toList = Characters.lowercase f.toList → a = b := by
  decide +kernel

/-- A file extension belongs to one language at most. -/
theorem eq_of_hasExtension {a b : Language} {extension : String} (ha : a ∈ supported)
    (hb : b ∈ supported) (hextension : a.hasExtension extension = true)
    (hextension' : b.hasExtension extension = true) : a = b := by
  obtain ⟨e, he, hequal⟩ := List.any_eq_true.mp hextension
  obtain ⟨f, hf, hequal'⟩ := List.any_eq_true.mp hextension'
  rw [beq_iff_eq] at hequal hequal'
  exact eq_of_lowercase_extension_eq a ha b hb e he f hf (hequal.trans hequal'.symm)

end Language

namespace CatalogEntry

/-- A signature that matches a file extension is one of the extensions listed. -/
lemma eq_ofExtension_of_matchesExtension {language : Language} {signature : Signature}
    {extension : String} (hmem : signature ∈ (builtin language).signatures)
    (hmatches : signature.matchesExtension extension = true) :
    ∃ listed ∈ language.extensions, signature = .ofExtension language listed := by
  rcases mem_builtin_signatures.mp hmem with ⟨rule, hrule, rfl⟩ | ⟨listed, hlisted, rfl⟩
  · have hkind := (Rules.sound_of_mem_ofLanguage hrule).kind_ne
    rw [Signature.matchesExtension, Bool.and_eq_true, decide_eq_true_eq] at hmatches
    exact absurd hmatches.1 hkind
  · exact ⟨listed, hlisted, rfl⟩

/-- The signatures of a language match the extensions that it lists. -/
theorem any_matchesExtension_builtin (language : Language) (extension : String) :
    (builtin language).signatures.any (·.matchesExtension extension) =
      language.hasExtension extension := by
  rw [Bool.eq_iff_iff, List.any_eq_true, Language.hasExtension, List.any_eq_true]
  constructor
  · rintro ⟨signature, hmem, hmatches⟩
    obtain ⟨listed, hlisted, rfl⟩ := eq_ofExtension_of_matchesExtension hmem hmatches
    rw [Signature.matchesExtension, Bool.and_eq_true] at hmatches
    exact ⟨listed, hlisted, hmatches.2⟩
  · rintro ⟨listed, hlisted, hequal⟩
    refine ⟨.ofExtension language listed, ?_, ?_⟩
    · exact List.mem_append_right _ (List.mem_map_of_mem hlisted)
    · rw [Signature.matchesExtension, Bool.and_eq_true]
      exact ⟨decide_eq_true rfl, hequal⟩

/-- The first signature that matches, if there is one, is an extension that the language lists. -/
lemma find?_matchesExtension_builtin {language : Language} {extension : String}
    (h : language.hasExtension extension = true) :
    ∃ listed, (builtin language).signatures.find? (·.matchesExtension extension) =
      some (.ofExtension language listed) := by
  rw [← any_matchesExtension_builtin, List.any_eq_true, ← List.find?_isSome] at h
  obtain ⟨signature, hfind⟩ := Option.isSome_iff_exists.mp h
  have hmatches := List.find?_some hfind
  obtain ⟨listed, -, rfl⟩ := eq_ofExtension_of_matchesExtension
    (List.mem_of_find?_eq_some hfind) hmatches
  exact ⟨listed, hfind⟩

/-- Nothing matches an extension that the language does not list. -/
lemma find?_matchesExtension_builtin_eq_none {language : Language} {extension : String}
    (h : language.hasExtension extension = false) :
    (builtin language).signatures.find? (·.matchesExtension extension) = none := by
  rw [← any_matchesExtension_builtin, List.any_eq_false] at h
  exact List.find?_eq_none.mpr h

end CatalogEntry

namespace Catalog

/-- The language of an extension is the supported language that lists it. -/
theorem languageForExtension_builtin_eq_some_iff {extension : String} {language : Language} :
    builtin.languageForExtension extension = some language ↔
      language ∈ Language.supported ∧ language.hasExtension extension = true := by
  have hfind : builtin.languageForExtension extension =
      Language.supported.find? (·.hasExtension extension) := by
    unfold languageForExtension
    rw [builtin_entries, List.find?_map, Option.map_map]
    have htest : ((fun entry : CatalogEntry =>
        entry.signatures.any (·.matchesExtension extension)) ∘ CatalogEntry.builtin) =
          fun language => language.hasExtension extension :=
      funext fun language => CatalogEntry.any_matchesExtension_builtin language extension
    rw [htest]
    exact Option.map_id'
  rw [hfind, find?_eq_some_iff_of_unique fun a ha b hb => Language.eq_of_hasExtension ha hb]

/-- Without a language for it, an extension is listed by nobody. -/
lemma hasExtension_eq_false {extension : String}
    (h : builtin.languageForExtension extension = none) {language : Language}
    (hmem : language ∈ Language.supported) : language.hasExtension extension = false := by
  by_contra hextension
  rw [Bool.not_eq_false] at hextension
  rw [languageForExtension_builtin_eq_some_iff.mpr ⟨hmem, hextension⟩] at h
  cases h

end Catalog

end LanguageDetection
