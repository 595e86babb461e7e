import LanguageDetection.Proofs.Features

/-!
# Scores rule by rule

What each rule of a language adds to its score and to its strong hits, and how both are computed for
a given text.
-/

namespace LanguageDetection

/-!
## Sums over rules

A marker that does not occur adds nothing to a score, and a file extension never occurs in a text.
The score of a language is therefore a sum over its rules, and so are its strong hits
(`LanguageFeatures.rawScore_ofEntry`, `LanguageFeatures.strongHits_ofEntry`).  Sums over groups of
rules add up, which is how languages that share groups are compared.
-/

/-! ### Rules -/

namespace Rule

/-- How often the marker of the rule occurs in a text. -/
def countIn (rule : Rule) (text : List Char) : Nat :=
  (rule.signature .unknown).countIn text

/-- The weight of the rule, negative for a disqualifier. -/
def signedWeight (rule : Rule) : Rat :=
  (rule.signature .unknown).signedWeight

/-- Whether the marker of the rule occurs in a text. -/
def Occurs (rule : Rule) (text : List Char) : Prop :=
  0 < rule.countIn text

/-- A rule with a pattern counts the matches of its pattern. -/
lemma countIn_eq {rule : Rule} {pattern : Pattern} (h : rule.matcher = .ok (some pattern))
    (text : List Char) : rule.countIn text = pattern.count text := by
  unfold countIn Signature.countIn signature
  rw [h]
  rfl

/-- What a number of occurrences adds to the score. -/
def scoreOf (rule : Rule) (count : Nat) : Rat :=
  rule.signedWeight * (count : Rat)

/-- What a number of occurrences adds to the strong hits. -/
def strongHitsOf (rule : Rule) (count : Nat) : Nat :=
  if rule.markerClass = .strong then count else 0

@[simp] lemma scoreOf_zero (rule : Rule) : rule.scoreOf 0 = 0 := mul_zero _

@[simp] lemma strongHitsOf_zero (rule : Rule) : rule.strongHitsOf 0 = 0 := ite_self _

end Rule

/-! ### Sums over rules -/

namespace Rules

section Total

variable {M : Type} [AddMonoid M] (f : Rule → Nat → M)

/-- A sum over rules, where `f` says what a number of occurrences adds. Each rule is counted at most
`cap` times. -/
def total (rules : List Rule) (text : List Char) (cap : Nat) : M :=
  (rules.map fun rule => f rule (min (rule.countIn text) cap)).sum

/-- What is added up over two lists of rules is the sum of both totals. -/
lemma total_append (rules rules' : List Rule) (text : List Char) (cap : Nat) :
    total f (rules ++ rules') text cap = total f rules text cap + total f rules' text cap := by
  unfold total
  rw [List.map_append, List.sum_append]

variable {f} (hzero : ∀ rule, f rule 0 = 0) {text : List Char}

include hzero

/-- Rules that do not occur add nothing. -/
lemma total_eq_zero {rules : List Rule} (h : ∀ rule ∈ rules, ¬ rule.Occurs text) (cap : Nat) :
    total f rules text cap = 0 := by
  refine List.sum_eq_zero fun r hr => ?_
  obtain ⟨rule, hrule, rfl⟩ := List.mem_map.mp hr
  have hcount : rule.countIn text = 0 := Nat.eq_zero_of_not_pos (h rule hrule)
  rw [hcount, Nat.zero_min, hzero]

/-- Where no other rule occurs, a sum has one summand. -/
lemma total_append_cons {before after : List Rule} (rule : Rule)
    (h : ∀ other ∈ before ++ after, ¬ other.Occurs text) (cap : Nat) :
    total f (before ++ rule :: after) text cap = f rule (min (rule.countIn text) cap) := by
  have hbefore := total_eq_zero hzero (fun other hother =>
    h other (List.mem_append_left after hother)) cap
  have hafter := total_eq_zero hzero (fun other hother =>
    h other (List.mem_append_right before hother)) cap
  rw [total_append, hbefore, zero_add, total, List.map_cons, List.sum_cons]
  exact (congrArg (f rule _ + ·) hafter).trans (add_zero _)

end Total

/-- What rules add to a score, each counted at most `cap` times. -/
def score (rules : List Rule) (text : List Char) (cap : Nat) : Rat :=
  total Rule.scoreOf rules text cap

/-- What rules add to the strong hits, each counted at most `cap` times. -/
def strongHits (rules : List Rule) (text : List Char) (cap : Nat) : Nat :=
  total Rule.strongHitsOf rules text cap

variable {rules : List Rule} {text : List Char} {cap : Nat}

lemma score_append (rules rules' : List Rule) (text : List Char) (cap : Nat) :
    score (rules ++ rules') text cap = score rules text cap + score rules' text cap :=
  total_append _ rules rules' text cap

lemma strongHits_append (rules rules' : List Rule) (text : List Char) (cap : Nat) :
    strongHits (rules ++ rules') text cap =
      strongHits rules text cap + strongHits rules' text cap :=
  total_append _ rules rules' text cap

lemma score_eq_zero (h : ∀ rule ∈ rules, ¬ rule.Occurs text) : score rules text cap = 0 :=
  total_eq_zero Rule.scoreOf_zero h cap

lemma strongHits_eq_zero (h : ∀ rule ∈ rules, ¬ rule.Occurs text) :
    strongHits rules text cap = 0 :=
  total_eq_zero Rule.strongHitsOf_zero h cap

/-- Where no other rule occurs, a score is that of the one rule. -/
lemma score_append_cons {before after : List Rule} (rule : Rule)
    (h : ∀ other ∈ before ++ after, ¬ other.Occurs text) :
    score (before ++ rule :: after) text cap =
      rule.signedWeight * ((min (rule.countIn text) cap : Nat) : Rat) :=
  total_append_cons Rule.scoreOf_zero rule h cap

/-- If no other rule occurs, the strong hits are those of the one that does. -/
lemma strongHits_append_cons {before after : List Rule} (rule : Rule)
    (h : ∀ other ∈ before ++ after, ¬ other.Occurs text) :
    strongHits (before ++ rule :: after) text cap =
      rule.strongHitsOf (min (rule.countIn text) cap) :=
  total_append_cons Rule.strongHitsOf_zero rule h cap

/-- Rules of positive weight do not lower a score. -/
lemma score_nonneg (h : ∀ rule ∈ rules, 0 < rule.signedWeight) : 0 ≤ score rules text cap := by
  refine List.sum_nonneg fun r hr => ?_
  obtain ⟨rule, hrule, rfl⟩ := List.mem_map.mp hr
  exact mul_nonneg (le_of_lt (h rule hrule)) (Nat.cast_nonneg _)

/-- Among rules of positive weight, each one adds its own to the score. -/
lemma le_score (h : ∀ rule ∈ rules, 0 < rule.signedWeight) {rule : Rule} (hrule : rule ∈ rules) :
    rule.signedWeight * ((min (rule.countIn text) cap : Nat) : Rat) ≤ score rules text cap := by
  refine List.single_le_sum (fun r hr => ?_) _ (List.mem_map_of_mem hrule)
  obtain ⟨other, hother, rfl⟩ := List.mem_map.mp hr
  exact mul_nonneg (le_of_lt (h other hother)) (Nat.cast_nonneg _)

/-- A rule that occurs adds its weight at least. -/
lemma signedWeight_le_score (h : ∀ rule ∈ rules, 0 < rule.signedWeight) {rule : Rule}
    (hrule : rule ∈ rules) (hoccurs : rule.Occurs text) (hcap : 1 ≤ cap) :
    rule.signedWeight ≤ score rules text cap := by
  have hcount : (1 : Rat) ≤ ((min (rule.countIn text) cap : Nat) : Rat) := by
    exact_mod_cast le_min hoccurs hcap
  calc rule.signedWeight = rule.signedWeight * 1 := (mul_one _).symm
    _ ≤ rule.signedWeight * ((min (rule.countIn text) cap : Nat) : Rat) :=
      mul_le_mul_of_nonneg_left hcount (le_of_lt (h rule hrule))
    _ ≤ score rules text cap := le_score h hrule

/-- The occurrences of a strong rule are among the strong hits. -/
lemma le_strongHits {rule : Rule} (hrule : rule ∈ rules) (hstrong : rule.markerClass = .strong) :
    min (rule.countIn text) cap ≤ strongHits rules text cap := by
  have hcount : rule.strongHitsOf (min (rule.countIn text) cap) = min (rule.countIn text) cap :=
    if_pos hstrong
  rw [← hcount]
  exact List.single_le_sum (fun _ _ => Nat.zero_le _) _ (List.mem_map_of_mem hrule)

/-- A strong rule that occurs is a strong hit. -/
lemma one_le_strongHits {rule : Rule} (hrule : rule ∈ rules) (hstrong : rule.markerClass = .strong)
    (hoccurs : rule.Occurs text) (hcap : 1 ≤ cap) : 1 ≤ strongHits rules text cap :=
  (le_min hoccurs hcap).trans (le_strongHits hrule hstrong)

end Rules

/-! ### The features of a language -/

namespace LanguageFeatures

/-- The hits of the signatures that count. -/
def hitsBy (count : Signature → Nat) (signatures : List Signature) : List (Hit Rat) :=
  (signatures.filter (0 < count ·)).map fun signature => Hit.ofCount signature (count signature)

section HitsBy

variable {count : Signature → Nat} {signature : Signature} {signatures : List Signature}

/-- The hits of two lists of signatures stand one behind the other. -/
lemma hitsBy_append (count : Signature → Nat) (first second : List Signature) :
    hitsBy count (first ++ second) = hitsBy count first ++ hitsBy count second := by
  unfold hitsBy
  rw [List.filter_append, List.map_append]

/-- A signature that counts something makes the first hit. -/
lemma hitsBy_cons_of_pos (h : 0 < count signature) :
    hitsBy count (signature :: signatures) =
      Hit.ofCount signature (count signature) :: hitsBy count signatures := by
  unfold hitsBy
  rw [List.filter_cons_of_pos (by simpa using h), List.map_cons]

/-- A signature that counts nothing makes no hit. -/
lemma hitsBy_cons_of_eq_zero (h : count signature = 0) :
    hitsBy count (signature :: signatures) = hitsBy count signatures := by
  unfold hitsBy
  rw [List.filter_cons_of_neg (by simp [h])]

/-- Counts that agree on every signature of the list make the same hits. -/
lemma hitsBy_congr {count' : Signature → Nat}
    (h : ∀ signature ∈ signatures, count signature = count' signature) :
    hitsBy count signatures = hitsBy count' signatures := by
  induction signatures with
  | nil => rfl
  | cons signature signatures ih =>
    have hrest := ih fun other hother => h other (List.mem_cons_of_mem _ hother)
    have hfirst := h signature List.mem_cons_self
    rcases Nat.eq_zero_or_pos (count signature) with hzero | hpos
    · rw [hitsBy_cons_of_eq_zero hzero, hitsBy_cons_of_eq_zero (hfirst.symm.trans hzero), hrest]
    · rw [hitsBy_cons_of_pos hpos, hitsBy_cons_of_pos (hfirst ▸ hpos), hrest, hfirst]

/-- A sum over hits is a sum over signatures, if those that do not count add nothing. -/
lemma sum_map_hitsBy {M : Type} [AddMonoid M] (f : Hit Rat → M)
    (hzero : ∀ signature, f (.ofCount signature 0) = 0) (count : Signature → Nat)
    (signatures : List Signature) :
    ((hitsBy count signatures).map f).sum =
      (signatures.map fun signature => f (.ofCount signature (count signature))).sum := by
  induction signatures with
  | nil => rfl
  | cons signature signatures ih =>
    rw [List.map_cons, List.sum_cons, ← ih]
    rcases Nat.eq_zero_or_pos (count signature) with hnone | hpos
    · rw [hitsBy_cons_of_eq_zero hnone, hnone, hzero, zero_add]
    · rw [hitsBy_cons_of_pos hpos, List.map_cons, List.sum_cons]

end HitsBy

variable (text : List Char) (cap : Nat)

/-- The hits of signatures, as they are found in a text. -/
def hitsOf (signatures : List Signature) : List (Hit Rat) :=
  signatures.filterMap fun signature =>
    let count := min (signature.countIn text) cap
    if 0 < count then some (Hit.ofCount signature count) else none

/-- What is found in a text are the signatures that occur. -/
lemma hitsOf_eq_hitsBy (signatures : List Signature) :
    hitsOf text cap signatures =
      hitsBy (fun signature => min (signature.countIn text) cap) signatures := by
  induction signatures with
  | nil => rfl
  | cons signature signatures ih =>
    unfold hitsOf at ih ⊢
    rw [List.filterMap_cons, ih]
    rcases Nat.eq_zero_or_pos (min (signature.countIn text) cap) with hzero | hpos
    · rw [hitsBy_cons_of_eq_zero hzero]
      simp [hzero]
    · rw [hitsBy_cons_of_pos hpos]
      simp [hpos]

/-- The hits of an entry are those of its counts, each up to the cap. -/
lemma hits_ofEntry_eq_hitsBy (entry : CatalogEntry) :
    (ofEntry text cap entry).hits =
      hitsBy (fun signature => min (signature.countIn text) cap) entry.signatures :=
  hitsOf_eq_hitsBy text cap entry.signatures

/-- Strong hits as a sum over all hits. -/
lemma foldr_count_eq_sum (hits : List (Hit Rat)) :
    (hits.filter (·.signature.markerClass = .strong)).foldr (·.count + ·) 0 =
      (hits.map fun hit => if hit.signature.markerClass = .strong then hit.count else 0).sum := by
  induction hits with
  | nil => rfl
  | cons hit hits ih =>
    rw [List.map_cons, List.sum_cons, ← ih]
    by_cases hstrong : hit.signature.markerClass = .strong
    · rw [if_pos hstrong, List.filter_cons_of_pos (by simpa using hstrong)]
      rfl
    · rw [if_neg hstrong, List.filter_cons_of_neg (by simpa using hstrong), Nat.zero_add]

/-- A sum over the signatures of a language is a sum over its rules, because a file extension does
not occur in a text. -/
lemma sum_map_signatures {M : Type} [AddMonoid M] (f : Signature → Nat → M)
    (hzero : ∀ signature, f signature 0 = 0) (language : Language) :
    ((CatalogEntry.builtin language).signatures.map fun signature =>
        f signature (min (signature.countIn text) cap)).sum =
      ((Rules.ofLanguage language).map fun rule =>
        f (rule.signature language) (min (rule.countIn text) cap)).sum := by
  have hextensions : (((language.extensions.map (Signature.ofExtension language)).map
      fun signature => f signature (min (signature.countIn text) cap)).sum : M) = 0 := by
    refine List.sum_eq_zero fun r hr => ?_
    rw [List.map_map] at hr
    obtain ⟨extension, -, rfl⟩ := List.mem_map.mp hr
    have hcount : (Signature.ofExtension language extension).countIn text = 0 := rfl
    rw [Function.comp_apply, hcount, Nat.zero_min, hzero]
  rw [CatalogEntry.builtin, List.map_append, List.sum_append, hextensions, add_zero, List.map_map]
  rfl

/-- The score of a language is the sum over its rules. -/
theorem rawScore_ofEntry (language : Language) :
    (ofEntry text cap (.builtin language)).rawScore =
      Rules.score (Rules.ofLanguage language) text cap := by
  have hsum : (ofEntry text cap (.builtin language)).rawScore =
      ((hitsOf text cap (CatalogEntry.builtin language).signatures).map (·.contribution)).sum := by
    change List.foldl _ _ _ = _
    rw [foldl_contribution, Scalar.rat_ofNat, Nat.cast_zero, zero_add]
    rfl
  rw [hsum, hitsOf_eq_hitsBy, sum_map_hitsBy _ fun signature => mul_zero _]
  exact sum_map_signatures text cap (fun signature count => signature.signedWeight * (count : Rat))
    (fun signature => mul_zero _) language

/-- The strong hits of a language are the sum over its rules. -/
theorem strongHits_ofEntry (language : Language) :
    (ofEntry text cap (.builtin language) : LanguageFeatures Rat).strongHits =
      Rules.strongHits (Rules.ofLanguage language) text cap := by
  have hsum : (ofEntry text cap (.builtin language) : LanguageFeatures Rat).strongHits =
      ((hitsOf text cap (CatalogEntry.builtin language).signatures).filter
        (·.signature.markerClass = .strong)).foldr (·.count + ·) 0 := rfl
  rw [hsum, foldr_count_eq_sum, hitsOf_eq_hitsBy, sum_map_hitsBy _ fun signature => ite_self _]
  exact sum_map_signatures text cap
    (fun signature count => if signature.markerClass = .strong then count else 0)
    (fun signature => ite_self _) language

variable {text}

/-- A text without any of the rules has no hits. -/
lemma hits_ofEntry_eq_nil {language : Language}
    (h : ∀ rule ∈ Rules.ofLanguage language, ¬ rule.Occurs text) (cap : Nat) :
    (ofEntry text cap (.builtin language) : LanguageFeatures Rat).hits = [] := by
  rw [List.eq_nil_iff_forall_not_mem]
  intro hit hhit
  obtain ⟨signature, hmem, -, hcount⟩ := exists_of_mem_hits_ofEntry hhit
  have hpos : 0 < signature.countIn text := lt_of_lt_of_le hcount (min_le_left _ _)
  rcases CatalogEntry.mem_builtin_signatures.mp hmem with ⟨rule, hrule, rfl⟩ | ⟨extension, -, rfl⟩
  · exact h rule hrule hpos
  · exact absurd hpos (Nat.lt_irrefl 0)

end LanguageFeatures

/-!
## Evaluating rules on a text

The score and the strong hits of a language can be computed from the spelled rules, without decoding
the texts of the rules (`Spelling.score_eq`, `Spelling.strongHits_eq`).  `Rules.spellingOf` spells
the rules of each language.
-/

/-- How often a matcher finds its marker in a text. -/
def matcherCount (matcher : Except PatternError (Option Pattern)) (text : List Char) : Nat :=
  match matcher with
  | .ok (some pattern) => pattern.count text
  | _ => 0

/-- What a rule counts depends on its matcher alone. -/
lemma Rule.countIn_eq_matcherCount (rule : Rule) (text : List Char) :
    rule.countIn text = matcherCount rule.matcher text := by
  unfold countIn Signature.countIn signature
  cases rule.matcher with
  | error fault => rfl
  | ok matcher => cases matcher <;> rfl

/-- A rule whose pattern passes a test counts what such a pattern finds, or nothing at all. -/
lemma Rule.countIn_cases {rule : Rule} {test : Pattern → Bool}
    (h : rule.matcher.toOption.join.all test = true) :
    (∃ pattern, test pattern = true ∧ rule.countIn = pattern.count) ∨
      ∀ text, rule.countIn text = 0 := by
  have hcount : rule.countIn = matcherCount rule.matcher := funext rule.countIn_eq_matcherCount
  cases hmatcher : rule.matcher with
  | error fault =>
    refine .inr fun text => ?_
    rw [hcount, hmatcher]
    rfl
  | ok matcher =>
    cases matcher with
    | none =>
      refine .inr fun text => ?_
      rw [hcount, hmatcher]
      rfl
    | some pattern =>
      refine .inl ⟨pattern, ?_, ?_⟩
      · rwa [hmatcher] at h
      · rw [hcount, hmatcher]
        rfl

namespace Spelling

variable (text : List Char) (cap : Nat)

/-- A sum over spelled rules, as `Rules.total` is over rules. -/
def total {M : Type} [AddMonoid M] (f : Rule → Nat → M) : {rules : List Rule} → Spelling rules → M
  | _, nil => 0
  | rule :: _, cons spelled rest =>
    f rule (min (matcherCount (rule.kind.matcher spelled.letters) text) cap) + rest.total f

/-- The score of spelled rules. -/
def score {rules : List Rule} (spelling : Spelling rules) : Rat :=
  spelling.total text cap Rule.scoreOf

/-- The strong hits of spelled rules. -/
def strongHits {rules : List Rule} (spelling : Spelling rules) : Nat :=
  spelling.total text cap Rule.strongHitsOf

variable {rules : List Rule} (spelling : Spelling rules)

/-- The total of the rules can be read off their spelling. -/
theorem total_eq {M : Type} [AddMonoid M] (f : Rule → Nat → M) :
    Rules.total f rules text cap = spelling.total text cap f := by
  induction spelling with
  | nil => rfl
  | cons spelled rest ih =>
    rw [total, ← ih, Rules.total, List.map_cons, List.sum_cons, Rule.countIn_eq_matcherCount,
      Rule.matcher, spelled.toList_eq]
    rfl

theorem score_eq : Rules.score rules text cap = spelling.score text cap :=
  spelling.total_eq text cap _

theorem strongHits_eq : Rules.strongHits rules text cap = spelling.strongHits text cap :=
  spelling.total_eq text cap _

/-- A text in which no spelled rule is found has none of the rules. -/
lemma not_occurs_of_all
    (h : (spelling.all fun _ matcher => matcherCount matcher text = 0) = true) :
    ∀ rule ∈ rules, ¬ rule.Occurs text := by
  intro rule hrule hoccurs
  have hcount := of_decide_eq_true (spelling.forall_of_all _ h rule hrule)
  rw [Rule.Occurs, Rule.countIn_eq_matcherCount, hcount] at hoccurs
  exact absurd hoccurs (Nat.lt_irrefl 0)

end Spelling

/-- The characters of the rules of a language. -/
noncomputable def Rules.spellingOf :
    (language : Language) → Spelling (Rules.ofLanguage language) := by
  intro language
  cases language <;>
    repeat' first
      | exact Spelling.nil
      | exact Spelled.literal _
      | apply Spelled.append
      | apply Spelling.append
      | apply Spelling.cons

end LanguageDetection
