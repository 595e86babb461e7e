import LanguageDetection.Proofs.Standing

/-!
# Evidence accounts for the score

A candidate is scored by its hits one after another, and it is explained by a copy of them, sorted
and without those that speak against the language.  Both come from the same signatures: the hits of
a language are its signatures that count, each one once, with the number of times that it counts
(`LanguageFeatures.hits_ofHint_perm`).  A signature counts as often as it occurs, up to the cap, and
the file extension that a hint names counts once (`Signature.countFor`).

So a score is a sum over the signatures, and `Candidate.Explained` says how the evidence makes up
for it: what is missing is what speaks against the language.
-/

namespace LanguageDetection

/-- How often a signature counts: as often as it occurs in the text, up to the cap, or once if it is
the file extension given as a hint. -/
def Signature.countFor (text : List Char) (cap : Nat) (hint : Option String)
    (signature : Signature) : Nat :=
  if hint.any signature.matchesExtension then 1 else min (signature.countIn text) cap

/-- Only a file extension matches one. -/
lemma Signature.kind_eq_of_matchesExtension {signature : Signature} {extension : String}
    (h : signature.matchesExtension extension = true) : signature.kind = .extension := by
  unfold matchesExtension at h
  rw [Bool.and_eq_true, decide_eq_true_eq] at h
  exact h.1

/-! ## The signatures of a language -/

namespace Language

/-- No extension is listed twice by a language. -/
lemma eq_of_lowercase_eq : ∀ language ∈ supported, ∀ e ∈ language.extensions,
    ∀ f ∈ language.extensions,
      Characters.lowercase e.toList = Characters.lowercase f.toList → e = f := by
  decide +kernel

end Language

namespace CatalogEntry

/-- The signatures of a language have labels of their own. -/
lemma nodup_map_label_builtin : ∀ language ∈ Language.supported,
    ((builtin language).signatures.map (·.label)).Nodup := by
  decide +kernel

/-- No signature of a language is listed twice. -/
lemma nodup_signatures_builtin {language : Language} (h : language ∈ Language.supported) :
    (builtin language).signatures.Nodup :=
  (nodup_map_label_builtin language h).of_map _

/-- A file extension is listed as a weak signature, and it does not occur in a text. -/
lemma spec_of_kind_eq_extension {language : Language} {signature : Signature}
    (hmem : signature ∈ (builtin language).signatures) (hkind : signature.kind = .extension) :
    (∃ listed ∈ language.extensions, signature = .ofExtension language listed) ∧
      signature.markerClass = .weak ∧ ∀ text, signature.countIn text = 0 := by
  rcases mem_builtin_signatures.mp hmem with ⟨rule, hrule, rfl⟩ | ⟨listed, hlisted, rfl⟩
  · exact absurd hkind (Rules.sound_of_mem_ofLanguage hrule).kind_ne
  · exact ⟨⟨listed, hlisted, rfl⟩, rfl, fun _ => rfl⟩

/-- One signature of a language at most matches a file extension. -/
lemma eq_of_matchesExtension {language : Language} (h : language ∈ Language.supported)
    {a b : Signature} (ha : a ∈ (builtin language).signatures)
    (hb : b ∈ (builtin language).signatures) {extension : String}
    (hmatches : a.matchesExtension extension = true)
    (hmatches' : b.matchesExtension extension = true) : a = b := by
  obtain ⟨e, he, rfl⟩ := eq_ofExtension_of_matchesExtension ha hmatches
  obtain ⟨f, hf, rfl⟩ := eq_ofExtension_of_matchesExtension hb hmatches'
  unfold Signature.matchesExtension at hmatches hmatches'
  rw [Bool.and_eq_true, beq_iff_eq] at hmatches hmatches'
  rw [Language.eq_of_lowercase_eq language h e he f hf (hmatches.2.trans hmatches'.2.symm)]

/-- The signature that matches a file extension stands among others that do not. -/
lemma exists_signatures_eq_append_cons {language : Language} (h : language ∈ Language.supported)
    {signature : Signature} {extension : String}
    (hfind : (builtin language).signatures.find? (·.matchesExtension extension) =
      some signature) :
    ∃ front back, (builtin language).signatures = front ++ signature :: back ∧
      ∀ other ∈ front ++ back, other.matchesExtension extension = false := by
  obtain ⟨hmatches, front, back, hsplit, hfront⟩ := List.find?_eq_some_iff_append.mp hfind
  have hnodup := nodup_signatures_builtin h
  rw [hsplit] at hnodup
  refine ⟨front, back, hsplit, fun other hother => ?_⟩
  rcases List.mem_append.mp hother with hmem | hmem
  · simpa using hfront other hmem
  · by_contra hmatches'
    rw [Bool.not_eq_false] at hmatches'
    have hmem' : other ∈ (builtin language).signatures := by
      rw [hsplit]
      exact List.mem_append_right _ (List.mem_cons_of_mem _ hmem)
    obtain rfl := eq_of_matchesExtension h (List.mem_of_find?_eq_some hfind) hmem' hmatches
      hmatches'
    exact (List.nodup_cons.mp (List.nodup_append.mp hnodup).2.1).1 hmem

end CatalogEntry

/-! ## How often a signature counts -/

namespace Signature

variable {signature : Signature} {text : List Char} {cap : Nat} {hint : Option String}

/-- A signature that the hint does not name counts as often as it occurs. -/
lemma countFor_of_not_matches
    (h : ∀ extension ∈ hint, signature.matchesExtension extension = false) :
    signature.countFor text cap hint = min (signature.countIn text) cap := by
  refine if_neg ?_
  cases hint with
  | none => exact Bool.false_ne_true
  | some extension => simp [h extension rfl]

/-- What is not a file extension counts as often as it occurs. -/
lemma countFor_of_kind_ne (h : signature.kind ≠ .extension) (text : List Char) (cap : Nat)
    (hint : Option String) :
    signature.countFor text cap hint = min (signature.countIn text) cap := by
  refine countFor_of_not_matches fun extension _ => ?_
  by_contra hmatches
  rw [Bool.not_eq_false] at hmatches
  exact h (kind_eq_of_matchesExtension hmatches)

/-- A signature counts as often as the cap allows. -/
lemma countFor_le (hcap : 1 ≤ cap) (text : List Char) (hint : Option String)
    (signature : Signature) : signature.countFor text cap hint ≤ cap := by
  unfold countFor
  split
  · exact hcap
  · exact min_le_right _ _

/-- A file extension counts only if the hint names it. -/
lemma exists_matchesExtension_of_countFor_pos (hzero : signature.countIn text = 0)
    (hpos : 0 < signature.countFor text cap hint) :
    ∃ extension, hint = some extension ∧ signature.matchesExtension extension = true := by
  cases hint with
  | none =>
    rw [countFor_of_not_matches (by simp), hzero] at hpos
    exact absurd hpos (by simp)
  | some extension =>
    refine ⟨extension, rfl, ?_⟩
    by_contra hmatches
    rw [countFor_of_not_matches (by simpa using hmatches), hzero] at hpos
    exact absurd hpos (by simp)

end Signature

/-- One file extension of a language at most counts, the one that the hint names. -/
lemma CatalogEntry.eq_of_countFor_pos {language : Language} (h : language ∈ Language.supported)
    {a b : Signature} (ha : a ∈ (builtin language).signatures)
    (hb : b ∈ (builtin language).signatures) (hkind : a.kind = .extension)
    (hkind' : b.kind = .extension) {text : List Char} {cap : Nat} {hint : Option String}
    (hpos : 0 < a.countFor text cap hint) (hpos' : 0 < b.countFor text cap hint) : a = b := by
  obtain ⟨extension, rfl, hmatches⟩ := Signature.exists_matchesExtension_of_countFor_pos
    ((spec_of_kind_eq_extension ha hkind).2.2 text) hpos
  obtain ⟨extension', hsame, hmatches'⟩ := Signature.exists_matchesExtension_of_countFor_pos
    ((spec_of_kind_eq_extension hb hkind').2.2 text) hpos'
  obtain rfl := Option.some.inj hsame
  exact eq_of_matchesExtension h ha hb hmatches hmatches'

/-! ## Hits -/

namespace LanguageFeatures

section OfHint

variable {language : Language} (h : language ∈ Language.supported) (text : List Char) (cap : Nat)
  (hint : Option String)

include h

/-- The hits of a language are its signatures that count. -/
theorem hits_ofHint_perm :
    (ofHint text cap hint (.builtin language)).hits.Perm
      (hitsBy (Signature.countFor text cap hint) (CatalogEntry.builtin language).signatures) := by
  have hplain : ∀ signatures : List Signature, (∀ signature ∈ signatures, ∀ extension ∈ hint,
      signature.matchesExtension extension = false) →
        hitsBy (Signature.countFor text cap hint) signatures =
          hitsBy (fun signature => min (signature.countIn text) cap) signatures :=
    fun signatures hnone => hitsBy_congr fun signature hmem =>
      Signature.countFor_of_not_matches (hnone signature hmem)
  cases hint with
  | none =>
    rw [hplain _ (by simp), ← hits_ofEntry_eq_hitsBy]
    rfl
  | some extension =>
    cases hfind : (CatalogEntry.builtin language).signatures.find?
        (·.matchesExtension extension) with
    | none =>
      have hnone := List.find?_eq_none.mp hfind
      change (creditExtension extension _ _).hits.Perm _
      rw [creditExtension_of_find?_eq_none hfind, hits_ofEntry_eq_hitsBy,
        hplain _ (by simpa using hnone)]
    | some signature =>
      obtain ⟨front, back, hsplit, hothers⟩ :=
        CatalogEntry.exists_signatures_eq_append_cons h hfind
      have hmatches := List.find?_some hfind
      have hzero : signature.countIn text = 0 :=
        (CatalogEntry.spec_of_kind_eq_extension (List.mem_of_find?_eq_some hfind)
          (Signature.kind_eq_of_matchesExtension hmatches)).2.2 text
      have hone : signature.countFor text cap (some extension) = 1 := if_pos hmatches
      have hcredited : (Hit.ofExtension signature : Hit Rat) = Hit.ofCount signature 1 := by
        unfold Hit.ofExtension Hit.ofCount
        simp
      change (creditExtension extension _ _).hits.Perm _
      rw [creditExtension_of_find? hfind]
      change ((ofEntry text cap _).hits ++ [Hit.ofExtension signature]).Perm _
      rw [hits_ofEntry_eq_hitsBy, hsplit, hitsBy_append, hitsBy_append,
        hitsBy_cons_of_eq_zero (by rw [hzero, Nat.zero_min]),
        hitsBy_cons_of_pos (by rw [hone]; exact one_pos), hone, hcredited,
        hplain front (by simpa using fun s hs => hothers s (by simp [hs])),
        hplain back (by simpa using fun s hs => hothers s (by simp [hs])),
        List.append_assoc]
      exact (List.perm_append_singleton _ _).append_left _

/-- The score of a language is a sum over its signatures. -/
theorem rawScore_ofHint_eq_sum :
    (ofHint text cap hint (.builtin language)).rawScore =
      ((CatalogEntry.builtin language).signatures.map fun signature =>
        signature.signedWeight * (signature.countFor text cap hint : Rat)).sum := by
  have hhits : (ofHint text cap hint (.builtin language) : LanguageFeatures Rat).rawScore =
      ((ofHint text cap hint (.builtin language) : LanguageFeatures Rat).hits.map
        (·.contribution)).sum := by
    have hplain := (accounted_ofEntry h text cap).rawScore_eq
    cases hint with
    | none => exact hplain
    | some extension =>
      change (creditExtension extension _ _ : LanguageFeatures Rat).rawScore =
        ((creditExtension extension _ _ : LanguageFeatures Rat).hits.map _).sum
      unfold creditExtension
      split
      · simp [hplain, Hit.ofExtension]
      · exact hplain
  rw [hhits, ((hits_ofHint_perm h text cap hint).map _).sum_eq,
    sum_map_hitsBy _ fun signature => mul_zero _]
  rfl

omit h in
/-- The strong hits of a language are a sum over its signatures. -/
theorem strongHits_ofHint_eq_sum :
    (ofHint text cap hint (.builtin language) : LanguageFeatures Rat).strongHits =
      ((CatalogEntry.builtin language).signatures.map fun signature =>
        if signature.markerClass = .strong then signature.countFor text cap hint else 0).sum := by
  have hstrong : (ofHint text cap hint (.builtin language) : LanguageFeatures Rat).strongHits =
      (ofEntry text cap (.builtin language) : LanguageFeatures Rat).strongHits := by
    cases hint with
    | none => rfl
    | some extension =>
      change (creditExtension extension _ _).strongHits = _
      unfold creditExtension
      split <;> rfl
  have hsum : (ofEntry text cap (.builtin language) : LanguageFeatures Rat).strongHits =
      ((hitsBy (fun signature => min (signature.countIn text) cap)
        (CatalogEntry.builtin language).signatures).map fun hit =>
          if hit.signature.markerClass = .strong then hit.count else 0).sum := by
    rw [← hits_ofEntry_eq_hitsBy, ← foldr_count_eq_sum]
    rfl
  rw [hstrong, hsum, sum_map_hitsBy _ fun signature => ite_self _]
  refine congrArg List.sum (List.map_congr_left fun signature hmem => ?_)
  -- a file extension is not strong
  by_cases hkind : signature.kind = .extension
  · have hweak := (CatalogEntry.spec_of_kind_eq_extension hmem hkind).2.1
    simp [Hit.ofCount, hweak]
  · rw [Signature.countFor_of_kind_ne hkind]
    rfl

end OfHint

end LanguageFeatures

/-! ## Evidence -/

/-- The signatures that speak for the language and count. -/
def CatalogEntry.speaking (entry : CatalogEntry) (text : List Char) (cap : Nat)
    (hint : Option String) : List Signature :=
  entry.signatures.filter fun signature =>
    signature.markerClass ≠ .disqualifier && 0 < signature.countFor text cap hint

/-- The item of the evidence that shows a signature which counts a number of times. -/
def Evidence.ofSignature (signature : Signature) (count : Nat) : Evidence Rat :=
  .ofHit (.ofCount signature count)

/-- What speaks against a language: the weights of its disqualifiers, each as often as it occurs in
the text, up to the cap. -/
def CatalogEntry.penalty (entry : CatalogEntry) (text : List Char) (cap : Nat) : Rat :=
  ((entry.signatures.filter (·.markerClass = .disqualifier)).map fun signature =>
    signature.weight * ((min (signature.countIn text) cap : Nat) : Rat)).sum

/-- A sum over some elements of a list, as a sum over all of them. -/
lemma sum_map_filter {β M : Type} [AddCommMonoid M] (test : β → Bool) (f : β → M) (l : List β) :
    ((l.filter test).map f).sum = (l.map fun a => if test a then f a else 0).sum := by
  rw [List.sum_map_ite]
  simp

/-- A list without repetitions whose elements are all the same has one element at most. -/
lemma length_le_one_of_nodup {β : Type} {l : List β} (hnodup : l.Nodup)
    (hsame : ∀ a ∈ l, ∀ b ∈ l, a = b) : l.length ≤ 1 := by
  match l with
  | [] => exact Nat.zero_le 1
  | [_] => exact le_rfl
  | a :: b :: _ =>
    have hne : a ≠ b := fun heq => (List.nodup_cons.mp hnodup).1 (heq ▸ List.mem_cons_self)
    exact absurd (hsame a (by simp) b (by simp)) hne

namespace Candidate

/-- How the evidence of a candidate accounts for its score. -/
structure Explained (entry : CatalogEntry) (text : List Char) (cap : Nat) (hint : Option String)
    (candidate : Candidate Rat) : Prop where
  language_eq : candidate.language = entry.language
  /-- The evidence shows the signatures that speak for the language, each one once. -/
  evidence_perm : candidate.evidence.Perm ((entry.speaking text cap hint).map fun signature =>
    .ofSignature signature (signature.countFor text cap hint))
  nodup_label : (candidate.evidence.map (·.label)).Nodup
  /-- The greatest contribution comes first, and of equal ones the smaller label. -/
  pairwise : candidate.evidence.Pairwise fun a b => b.contribution < a.contribution ∨
    a.contribution = b.contribution ∧ a.label ≤ b.label
  /-- Each item has the weight of its signature, as often as it counts. -/
  exists_signature : ∀ item ∈ candidate.evidence, ∃ signature ∈ entry.signatures,
    signature.markerClass ≠ .disqualifier ∧ item.label = signature.label ∧
    item.markerClass = signature.markerClass ∧ item.kind = signature.kind ∧
    item.contribution = signature.weight * (item.count : Rat)
  contribution_pos : ∀ item ∈ candidate.evidence, 0 < item.contribution
  count_mem : ∀ item ∈ candidate.evidence, 1 ≤ item.count ∧ item.count ≤ cap
  countP_extension_le : candidate.evidence.countP (·.kind = .extension) ≤ 1
  rawScore_eq : candidate.rawScore =
    (candidate.evidence.map (·.contribution)).sum - entry.penalty text cap
  strongHits_eq : candidate.strongHits =
    ((candidate.evidence.filter (·.markerClass = .strong)).map (·.count)).sum
  of_evidence_eq_nil : candidate.evidence = [] → candidate.rawScore ≤ 0 ∧ candidate.strongHits = 0

end Candidate

section Explained

variable {language : Language}

/-- Of the hits, those of the signatures that speak for the language are shown. -/
lemma filter_speaksFor_hitsBy (count : Signature → Nat) :
    ((LanguageFeatures.hitsBy count (CatalogEntry.builtin language).signatures).map
        Evidence.ofHit).filter Evidence.speaksFor =
      ((CatalogEntry.builtin language).signatures.filter fun signature =>
        signature.markerClass ≠ .disqualifier && 0 < count signature).map fun signature =>
          .ofSignature signature (count signature) := by
  unfold LanguageFeatures.hitsBy
  rw [List.map_map, List.filter_map, List.filter_filter]
  refine congrArg _ (List.filter_congr fun signature hmem => ?_)
  have hpos := (CatalogEntry.weight_of_mem_builtin hmem).2.1
  rcases Nat.eq_zero_or_pos (count signature) with hzero | hcount
  · simp [hzero]
  · have hcount' : (0 : Rat) < count signature := by exact_mod_cast hcount
    have hspeaks : (Evidence.ofSignature signature (count signature)).speaksFor = true ↔
        signature.markerClass ≠ .disqualifier := by
      change decide (0 < signature.signedWeight * (count signature : Rat)) = true ↔ _
      rw [decide_eq_true_eq, mul_pos_iff_of_pos_right hcount']
      unfold Signature.signedWeight
      cases signature.markerClass <;> simp [hpos, le_of_lt hpos]
    rw [Bool.eq_iff_iff, Bool.and_eq_true, Bool.and_eq_true, decide_eq_true_eq, decide_eq_true_eq]
    exact and_congr_left fun _ => hspeaks

/-- What a signature that speaks for the language is shown as. -/
lemma spec_of_mem_speaking {signature : Signature} {text : List Char} {cap : Nat}
    {hint : Option String}
    (hmem : signature ∈ (CatalogEntry.builtin language).speaking text cap hint) :
    signature ∈ (CatalogEntry.builtin language).signatures ∧
      signature.markerClass ≠ .disqualifier ∧ signature.signedWeight = signature.weight ∧
      0 < signature.weight ∧ 0 < signature.countFor text cap hint := by
  obtain ⟨hsignature, hspeaks⟩ := List.mem_filter.mp hmem
  rw [Bool.and_eq_true, decide_eq_true_eq, decide_eq_true_eq] at hspeaks
  exact ⟨hsignature, hspeaks.1, Signature.signedWeight_of_ne hspeaks.1,
    (CatalogEntry.weight_of_mem_builtin hsignature).2.1, hspeaks.2⟩

variable (h : language ∈ Language.supported) (text : List Char) (cap : Nat) (hint : Option String)

/-- The contributions of what speaks for a language, less what speaks against it, are its score. -/
lemma sum_speaking_sub_penalty :
    (((CatalogEntry.builtin language).speaking text cap hint).map fun signature =>
        signature.signedWeight * (signature.countFor text cap hint : Rat)).sum -
        (CatalogEntry.builtin language).penalty text cap =
      ((CatalogEntry.builtin language).signatures.map fun signature =>
        signature.signedWeight * (signature.countFor text cap hint : Rat)).sum := by
  rw [sub_eq_iff_eq_add, CatalogEntry.speaking, CatalogEntry.penalty, sum_map_filter,
    sum_map_filter, ← List.sum_map_add]
  refine congrArg List.sum (List.map_congr_left fun signature hmem => ?_)
  by_cases hclass : signature.markerClass = .disqualifier
  · -- a disqualifier is not a file extension, and its weight is taken off
    have hkind : signature.kind ≠ .extension := by
      intro hkind
      rw [(CatalogEntry.spec_of_kind_eq_extension hmem hkind).2.1] at hclass
      cases hclass
    rw [Signature.signedWeight_of_eq hclass, Signature.countFor_of_kind_ne hkind]
    simp [hclass]
  · rcases Nat.eq_zero_or_pos (signature.countFor text cap hint) with hzero | hpos
    · simp [hclass, hzero]
    · simp [hclass, hpos]

/-- The counts of the strong signatures are the strong hits. -/
lemma sum_strong_speaking :
    ((((CatalogEntry.builtin language).speaking text cap hint).filter
        (·.markerClass = .strong)).map (Signature.countFor text cap hint)).sum =
      ((CatalogEntry.builtin language).signatures.map fun signature =>
        if signature.markerClass = .strong then signature.countFor text cap hint else 0).sum := by
  rw [CatalogEntry.speaking, List.filter_filter, sum_map_filter]
  refine congrArg List.sum (List.map_congr_left fun signature _ => ?_)
  by_cases hclass : signature.markerClass = .strong
  · rcases Nat.eq_zero_or_pos (signature.countFor text cap hint) with hzero | hpos
    · simp [hclass, hzero]
    · simp [hclass, hpos]
  · simp [hclass]

/-- What speaks against a language is not negative. -/
lemma penalty_nonneg : 0 ≤ (CatalogEntry.builtin language).penalty text cap := by
  refine List.sum_nonneg fun r hr => ?_
  obtain ⟨signature, hmem, rfl⟩ := List.mem_map.mp hr
  have hpos := (CatalogEntry.weight_of_mem_builtin (List.mem_of_mem_filter hmem)).2.1
  exact mul_nonneg (le_of_lt hpos) (Nat.cast_nonneg _)

include h

/-- One file extension at most speaks for a language. -/
lemma countP_extension_speaking_le :
    ((CatalogEntry.builtin language).speaking text cap hint).countP (·.kind = .extension) ≤ 1 := by
  have hnodup : (((CatalogEntry.builtin language).speaking text cap hint).filter
      (·.kind = .extension)).Nodup :=
    ((CatalogEntry.nodup_signatures_builtin h).filter _).filter _
  have hsame : ∀ a ∈ ((CatalogEntry.builtin language).speaking text cap hint).filter
      (·.kind = .extension), ∀ b ∈ ((CatalogEntry.builtin language).speaking text cap hint).filter
        (·.kind = .extension), a = b := by
    intro a ha b hb
    obtain ⟨ha, hkind⟩ := List.mem_filter.mp ha
    obtain ⟨hb, hkind'⟩ := List.mem_filter.mp hb
    obtain ⟨hmem, -, -, -, hpos⟩ := spec_of_mem_speaking ha
    obtain ⟨hmem', -, -, -, hpos'⟩ := spec_of_mem_speaking hb
    exact CatalogEntry.eq_of_countFor_pos h hmem hmem' (of_decide_eq_true hkind)
      (of_decide_eq_true hkind') hpos hpos'
  rw [List.countP_eq_length_filter]
  exact length_le_one_of_nodup hnodup hsame

/-- The evidence shows the signatures that speak for the language. -/
lemma evidence_candidateOf_perm (positiveTotal lengthFactor : Rat) :
    (Classification.candidateOf positiveTotal lengthFactor
        (.ofHint text cap hint (.builtin language))).evidence.Perm
      (((CatalogEntry.builtin language).speaking text cap hint).map fun signature =>
        .ofSignature signature (signature.countFor text cap hint)) := by
  rw [Classification.evidence_candidateOf, CatalogEntry.speaking, ← filter_speaksFor_hitsBy]
  refine List.Perm.filter _ ((sortBy_perm _).trans ?_)
  exact (LanguageFeatures.hits_ofHint_perm h text cap hint).map _

/-- The evidence of a candidate accounts for its score. -/
theorem explained_candidateOf (hcap : 1 ≤ cap) (positiveTotal lengthFactor : Rat) :
    (Classification.candidateOf positiveTotal lengthFactor
      (.ofHint text cap hint (.builtin language))).Explained (.builtin language) text cap hint := by
  have hperm := evidence_candidateOf_perm h text cap hint positiveTotal lengthFactor
  generalize hcandidate : Classification.candidateOf positiveTotal lengthFactor
    (LanguageFeatures.ofHint text cap hint (.builtin language)) = candidate at hperm ⊢
  have hitem : ∀ item ∈ candidate.evidence,
      ∃ signature ∈ (CatalogEntry.builtin language).speaking text cap hint,
        Evidence.ofSignature signature (signature.countFor text cap hint) = item :=
    fun item hmem => List.mem_map.mp (hperm.mem_iff.mp hmem)
  have hscore : candidate.rawScore = (candidate.evidence.map (·.contribution)).sum -
      (CatalogEntry.builtin language).penalty text cap := by
    rw [(hperm.map _).sum_eq, List.map_map]
    refine Eq.trans ?_ (sum_speaking_sub_penalty text cap hint).symm
    rw [← hcandidate]
    exact LanguageFeatures.rawScore_ofHint_eq_sum h text cap hint
  have hstrong : candidate.strongHits =
      ((candidate.evidence.filter (·.markerClass = .strong)).map (·.count)).sum := by
    rw [((hperm.filter _).map _).sum_eq, List.filter_map, List.map_map]
    refine Eq.trans ?_ (sum_strong_speaking text cap hint).symm
    rw [← hcandidate]
    exact LanguageFeatures.strongHits_ofHint_eq_sum text cap hint
  exact {
    language_eq := by
      rw [← hcandidate]
      exact LanguageFeatures.ofHint_language _ _ _ _
    evidence_perm := hperm
    nodup_label := by
      rw [(hperm.map _).nodup_iff, List.map_map]
      exact (CatalogEntry.nodup_map_label_builtin language h).sublist
        (List.filter_sublist.map _)
    pairwise := by
      have hsorted := sortBy_pairwise Evidence.precedes_trans Evidence.precedes_total
        ((LanguageFeatures.ofHint text cap hint (.builtin language)).hits.map Evidence.ofHit)
      rw [← hcandidate, Classification.evidence_candidateOf]
      refine (hsorted.filter _).imp fun {a b} hprecedes => ?_
      exact Prod.Lex.toLex_le_toLex.mp (Evidence.precedes_iff.mp hprecedes)
    exists_signature := by
      intro item hmem
      obtain ⟨signature, hspeaking, rfl⟩ := hitem item hmem
      obtain ⟨hsignature, hclass, hweight, -⟩ := spec_of_mem_speaking hspeaking
      exact ⟨signature, hsignature, hclass, rfl, rfl, rfl, congrArg (· * _) hweight⟩
    contribution_pos := by
      intro item hmem
      obtain ⟨signature, hspeaking, rfl⟩ := hitem item hmem
      obtain ⟨-, -, hweight, hpos, hcount⟩ := spec_of_mem_speaking hspeaking
      change 0 < signature.signedWeight * (signature.countFor text cap hint : Rat)
      rw [hweight]
      exact mul_pos hpos (by exact_mod_cast hcount)
    count_mem := by
      intro item hmem
      obtain ⟨signature, hspeaking, rfl⟩ := hitem item hmem
      exact ⟨(spec_of_mem_speaking hspeaking).2.2.2.2, Signature.countFor_le hcap text hint _⟩
    countP_extension_le := by
      rw [hperm.countP_eq, List.countP_map]
      exact countP_extension_speaking_le h text cap hint
    rawScore_eq := hscore
    strongHits_eq := hstrong
    of_evidence_eq_nil := by
      intro hnil
      rw [hscore, hstrong, hnil]
      have hpenalty : 0 ≤ (CatalogEntry.builtin language).penalty text cap :=
        penalty_nonneg text cap
      exact ⟨by simpa using hpenalty, rfl⟩ }

end Explained

/-! ## Classifications -/

/-- In every classification the evidence of each candidate accounts for its score. -/
theorem explained_of_mem_ranked {thresholds : Thresholds Rat} {text : List Char}
    {hint : Option String} {candidate : Candidate Rat}
    (h : candidate ∈ (classify .builtin thresholds text hint).ranked) :
    ∃ entry ∈ Catalog.builtin.entries,
      candidate.Explained entry (Characters.trim text) thresholds.cap hint := by
  have hscored : IsScored thresholds text := by
    rcases classify_cases .builtin thresholds text hint with
      ⟨-, heq⟩ | ⟨-, heq⟩ | ⟨hscored, -⟩
    · rw [heq] at h
      cases h
    · rw [heq] at h
      cases h
    · exact hscored
  obtain ⟨hsupported, heq⟩ := eq_candidateFor_of_mem hint hscored h
  generalize candidate.language = language at hsupported heq
  subst heq
  refine ⟨.builtin language, ?_, explained_candidateOf hsupported _ _ hint
    thresholds.one_le_cap _ _⟩
  rw [Catalog.builtin_entries]
  exact List.mem_map_of_mem hsupported

/-- The evidence for Rust in a binding, with the extension of a file as a hint. -/
theorem explained_of_mem_ranked_letMut :
    let text := "let mut x = 1;".toList
    candidateFor .default text (some "rs") .rust ∈
        (classify .builtin .default text (some "rs")).ranked ∧
      ∃ entry ∈ Catalog.builtin.entries,
        (candidateFor .default text (some "rs") .rust).Explained entry (Characters.trim text)
          (Thresholds.default : Thresholds Rat).cap (some "rs") := by
  intro text
  have hscored : IsScored (Thresholds.default : Thresholds Rat) text :=
    ⟨by decide +kernel, by decide +kernel⟩
  have hsupported : Language.rust ∈ Language.supported := by decide
  have hmem := candidateFor_mem_ranked (some "rs") hscored hsupported
  exact ⟨hmem, explained_of_mem_ranked hmem⟩

end LanguageDetection
