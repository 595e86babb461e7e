import LanguageDetection.Proofs.Catalog
import LanguageDetection.Proofs.Characters
import LanguageDetection.Proofs.Ranking

/-!
# Names of languages

A language is looked up by the first row of a table that has the name.  No two languages share one
(`Language.eq_of_isNamed`), so the rows may stand in any order, and reading a name is the inverse of
having it (`Language.parse_eq_ok_iff`).

The extension of a file can be a name too, and it is looked up with another treatment of blanks and
dots.  The two agree wherever both find a language: a name does not begin with a dot and an
extension has no blank, so a text that is both is taken as it stands, but for its case
(`Language.eq_of_isNamed_of_hasExtension`).  Signatures are found by the names of the supported
languages (`Catalog.lookupName_builtin_eq_ok_iff`).
-/

namespace LanguageDetection

open Characters

/-! ## Names -/

namespace Language

/-- The text is the identifier of the language, its display name in lower case, or an alias. -/
def IsNamed (language : Language) (text : List Char) : Prop :=
  text = language.id.toList ∨ text = lowercase language.displayName.toList ∨
    ∃ other ∈ language.aliases, text = other.toList

lemma hasName_iff {language : Language} {text : List Char} :
    language.hasName text = true ↔ language.IsNamed text := by
  simp [hasName, IsNamed, or_assoc]

/-- All names of a language, in lower case. -/
def names (language : Language) : List (List Char) :=
  language.id.toList :: lowercase language.displayName.toList ::
    language.aliases.map String.toList

/-- A text that names a language is one of its names. -/
lemma IsNamed.mem_names {language : Language} {text : List Char} (h : language.IsNamed text) :
    text ∈ language.names := by
  unfold names
  rcases h with rfl | rfl | ⟨other, hmem, rfl⟩
  · exact List.mem_cons_self
  · exact List.mem_cons_of_mem _ List.mem_cons_self
  · exact List.mem_cons_of_mem _ (List.mem_cons_of_mem _ (List.mem_map_of_mem hmem))

lemma mem_all (language : Language) : language ∈ all := by
  cases language <;> decide

/-- No two languages share a name. -/
theorem eq_of_isNamed {a b : Language} {text : List Char} (ha : a.IsNamed text)
    (hb : b.IsNamed text) : a = b := by
  have hdisjoint : ∀ a ∈ all, ∀ b ∈ all, ∀ name ∈ a.names, name ∈ b.names → a = b := by
    decide +kernel
  exact hdisjoint a a.mem_all b b.mem_all text ha.mem_names hb.mem_names

/-- A name is looked up in any list of all languages with the same result. -/
lemma find?_hasName_eq_some_iff {table : List Language} (htable : ∀ language, language ∈ table)
    {language : Language} {text : List Char} :
    table.find? (·.hasName text) = some language ↔ language.IsNamed text := by
  rw [find?_eq_some_iff_of_unique, hasName_iff, and_iff_right (htable language)]
  intro a _ b _ ha hb
  exact eq_of_isNamed (hasName_iff.mp ha) (hasName_iff.mp hb)

/-- The language of a text is the one that has the text for a name, whatever its case and the blanks
around it. -/
theorem ofName?_eq_some_iff {language : Language} {name : String} :
    ofName? name = some language ↔ language.IsNamed (lowercase (trim name.toList)) :=
  find?_hasName_eq_some_iff mem_all

/-- A name is read as the language that it names, without blanks at its ends and in lower case. -/
theorem parse_eq_ok_iff {language : Language} {name : String} :
    parse name = .ok language ↔ language.IsNamed (lowercase (trim name.toList)) := by
  rw [← ofName?_eq_some_iff]
  unfold parse
  cases ofName? name <;> simp

/-- A text that is no name is quoted as it is. -/
theorem parse_eq_error {name : String}
    (h : ∀ language : Language, ¬ language.IsNamed (lowercase (trim name.toList))) :
    parse name = .error (.unknownLanguage name) := by
  have hnone : ofName? name = none := by
    rw [Option.eq_none_iff_forall_ne_some]
    intro language heq
    exact h language (ofName?_eq_some_iff.mp heq)
  unfold parse
  rw [hnone]

/-! ## Names and file extensions -/

/-- A text without blanks has none at its ends. -/
lemma trim_eq_self {text : List Char} (h : ∀ c ∈ text, isBlank c = false) : trim text = text := by
  have hkeep : ∀ text : List Char, (∀ c ∈ text, isBlank c = false) →
      text.dropWhile isBlank = text := by
    intro text h
    cases text with
    | nil => rfl
    | cons c rest => rw [List.dropWhile_cons_of_neg (by simp [h])]
  unfold trim trimEnd
  rw [hkeep text h, hkeep _ fun c hc => h c (List.mem_reverse.mp hc), List.reverse_reverse]

/-- A text that is an extension is dots and then visible characters. -/
lemma isBlank_eq_false_of_hasExtension {language : Language} {text : String}
    (hmem : language ∈ supported) (h : language.hasExtension text = true) :
    ∀ c ∈ text.toList, isBlank c = false := by
  have hvisible : ∀ language ∈ supported, ∀ listed ∈ language.extensions,
      (lowercase listed.toList).any isBlank = false := by
    decide +kernel
  obtain ⟨listed, hlisted, hequal⟩ := List.any_eq_true.mp h
  rw [beq_iff_eq] at hequal
  intro c hc
  rw [← List.takeWhile_append_dropWhile (p := (· == '.')) (l := text.toList)] at hc
  rcases List.mem_append.mp hc with hdots | hrest
  · have hdot : (c == '.') = true := List.all_eq_true.mp List.all_takeWhile c hdots
    rw [beq_iff_eq.mp hdot]
    decide
  · have hlower : c.toLower ∈ lowercase listed.toList := hequal ▸ List.mem_map_of_mem hrest
    rw [← isBlank_toLower, ← Bool.not_eq_true]
    exact List.any_eq_false.mp (hvisible language hmem listed hlisted) _ hlower

/-- No name begins with a dot. -/
lemma IsNamed.dropWhile_dot {language : Language} {text : List Char}
    (h : language.IsNamed (lowercase text)) : text.dropWhile (· == '.') = text := by
  have hfirst : ∀ language ∈ all, ∀ name ∈ language.names, name.head? ≠ some '.' := by
    decide +kernel
  cases text with
  | nil => rfl
  | cons c rest =>
    refine List.dropWhile_cons_of_neg ?_
    rw [beq_iff_eq]
    rintro rfl
    exact hfirst language language.mem_all _ h.mem_names rfl

/-- A text that is a name of one language and an extension of another one is that of the same. -/
theorem eq_of_isNamed_of_hasExtension {a b : Language} {name : String} (hb : b ∈ supported)
    (hname : a.IsNamed (lowercase (trim name.toList))) (hextension : b.hasExtension name = true) :
    a = b := by
  have hagree : ∀ a ∈ all, ∀ b ∈ supported, ∀ listed ∈ b.extensions,
      lowercase listed.toList ∈ a.names → a = b := by
    decide +kernel
  -- An extension may have dots in front, and a name blanks around it.  A text that is both has
  -- neither.
  rw [trim_eq_self (isBlank_eq_false_of_hasExtension hb hextension)] at hname
  obtain ⟨listed, hlisted, hequal⟩ := List.any_eq_true.mp hextension
  rw [beq_iff_eq, hname.dropWhile_dot] at hequal
  exact hagree a a.mem_all b hb listed hlisted (hequal ▸ hname.mem_names)

end Language

/-! ## Signatures by name -/

namespace Catalog

/-- A language that has an entry is looked up in it. -/
lemma lookup_of_find?_eq_some {catalog : Catalog} {language : Language} {entry : CatalogEntry}
    (h : catalog.entries.find? (·.language = language) = some entry) :
    catalog.lookup language = .ok entry.signatures := by
  unfold lookup
  rw [h]

/-- A language without an entry is not known to the catalog. -/
lemma lookup_of_find?_eq_none {catalog : Catalog} {language : Language}
    (h : catalog.entries.find? (·.language = language) = none) :
    catalog.lookup language = .error (.unknownLanguage language.id) := by
  unfold lookup
  rw [h]

/-- The signatures of a supported language are those of its entry. -/
lemma lookup_builtin {language : Language} (h : language ∈ Language.supported) :
    builtin.lookup language = .ok (CatalogEntry.builtin language).signatures := by
  refine lookup_of_find?_eq_some ?_
  rw [builtin_entries, find?_eq_some_iff_of_unique, decide_eq_true_eq]
  · exact ⟨List.mem_map_of_mem h, rfl⟩
  · simp only [List.mem_map, decide_eq_true_eq]
    rintro _ ⟨a, -, rfl⟩ _ ⟨b, -, rfl⟩ ha hb
    exact congrArg _ (ha.trans hb.symm)

/-- The built-in catalog has no entry for the unknown language. -/
lemma lookup_builtin_unknown :
    builtin.lookup .unknown = .error (.unknownLanguage Language.unknown.id) := by
  refine lookup_of_find?_eq_none ?_
  rw [builtin_entries, List.find?_eq_none]
  simp only [List.mem_map, decide_eq_true_eq]
  rintro _ ⟨language, hmem, rfl⟩ (rfl : language = .unknown)
  exact absurd hmem (by decide)

/-- A catalog is asked by name for the language that the name is read as. -/
lemma lookupName_of_parse_eq_ok {catalog : Catalog} {name : String} {language : Language}
    (h : Language.parse name = .ok language) :
    catalog.lookupName name = catalog.lookup language := by
  unfold lookupName
  rw [h]
  rfl

/-- A text that is no name fails as it does without a catalog. -/
lemma lookupName_of_parse_eq_error {catalog : Catalog} {name : String} {error : Error}
    (h : Language.parse name = .error error) : catalog.lookupName name = .error error := by
  unfold lookupName
  rw [h]
  rfl

/-- A name is looked up as the language that it is read as. -/
theorem lookupName_builtin_eq_ok_iff {name : String} {signatures : List Signature} :
    builtin.lookupName name = .ok signatures ↔ ∃ language, Language.parse name = .ok language ∧
      language ≠ .unknown ∧ signatures = (CatalogEntry.builtin language).signatures := by
  cases hparse : Language.parse name with
  | error error =>
    rw [lookupName_of_parse_eq_error hparse]
    simp
  | ok language =>
    rw [lookupName_of_parse_eq_ok hparse]
    by_cases hunknown : language = .unknown
    · subst hunknown
      rw [lookup_builtin_unknown]
      simp
    · rw [lookup_builtin (Language.mem_supported.mpr hunknown)]
      simp [hunknown, eq_comm]

/-- All signatures found by name are those of the language. -/
lemma language_of_mem_builtin {language : Language} {signature : Signature}
    (h : signature ∈ (CatalogEntry.builtin language).signatures) :
    signature.language = language := by
  rcases CatalogEntry.mem_builtin_signatures.mp h with ⟨rule, -, rfl⟩ | ⟨listed, -, rfl⟩
  · rfl
  · rfl

end Catalog

namespace Language

/-- What a text means as the name of a language, as the name to look signatures up by, and as a file
extension. -/
structure NameLaw (name : String) : Prop where
  /-- The languages that the text can be read as are those that have it for a name. -/
  parse_eq_ok_iff : ∀ language,
    parse name = .ok language ↔ language.IsNamed (lowercase (trim name.toList))
  /-- Two languages do not share it. -/
  unambiguous : ∀ a b : Language, a.IsNamed (lowercase (trim name.toList)) →
    b.IsNamed (lowercase (trim name.toList)) → a = b
  /-- The languages may stand in any order. -/
  find?_eq_ofName? : ∀ table : List Language, table.Perm all →
    table.find? (·.hasName (lowercase (trim name.toList))) = ofName? name
  /-- A text that is no name is quoted as it was given. -/
  parse_eq_error : (∀ language : Language, ¬ language.IsNamed (lowercase (trim name.toList))) →
    parse name = .error (.unknownLanguage name)
  /-- Signatures are found for the name of a supported language, and they are all that it has. -/
  lookupName_eq_ok_iff : ∀ signatures, Catalog.builtin.lookupName name = .ok signatures ↔
    ∃ language, parse name = .ok language ∧ language ≠ unknown ∧
      signatures = (CatalogEntry.builtin language).signatures
  /-- They carry the language of the name. -/
  language_eq : ∀ signatures, Catalog.builtin.lookupName name = .ok signatures →
    ∀ signature ∈ signatures, parse name = .ok signature.language
  /-- The name of the unknown language is read, but it has no signatures. -/
  lookupName_unknown : parse name = .ok unknown →
    Catalog.builtin.lookupName name = .error (.unknownLanguage unknown.id)
  /-- The failure to read a name is the failure to find signatures by it. -/
  lookupName_error : ∀ error, parse name = .error error →
    Catalog.builtin.lookupName name = .error error
  /-- Read as a name and as a file extension, the text means one language. -/
  eq_of_languageForExtension : ∀ a b, parse name = .ok a →
    Catalog.builtin.languageForExtension name = some b → a = b

/-- Names of languages are unambiguous, in any order of the languages, and agree with the file
extensions. -/
theorem nameLaw_parse (name : String) : NameLaw name where
  parse_eq_ok_iff _ := parse_eq_ok_iff
  unambiguous _ _ := eq_of_isNamed
  find?_eq_ofName? table htable := by
    ext language
    rw [ofName?_eq_some_iff]
    exact find?_hasName_eq_some_iff fun language => htable.mem_iff.mpr language.mem_all
  parse_eq_error := parse_eq_error
  lookupName_eq_ok_iff _ := Catalog.lookupName_builtin_eq_ok_iff
  language_eq signatures hfound signature hmem := by
    obtain ⟨language, hparse, -, rfl⟩ := Catalog.lookupName_builtin_eq_ok_iff.mp hfound
    rw [Catalog.language_of_mem_builtin hmem, hparse]
  lookupName_unknown hparse := by
    rw [Catalog.lookupName_of_parse_eq_ok hparse, Catalog.lookup_builtin_unknown]
  lookupName_error _ := Catalog.lookupName_of_parse_eq_error
  eq_of_languageForExtension a b hparse hextension := by
    obtain ⟨hb, hlists⟩ := Catalog.languageForExtension_builtin_eq_some_iff.mp hextension
    exact eq_of_isNamed_of_hasExtension hb (parse_eq_ok_iff.mp hparse) hlists

end Language

end LanguageDetection
