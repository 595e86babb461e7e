import LanguageDetection.Proofs.Text
import LanguageDetection.Report

/-!
# Styled text without its styles

A terminal is told about styles by escape sequences: an escape character and a bracket, parameters,
and the letter `m`.  `withoutStyles` takes them out of a text.  Where no piece of a styled text has
an escape character of its own, what is left of the coloured text is the plain one
(`withoutStyles_render`).

An escape sequence never runs over the end of a line, so a text can be freed of them line by line
(`lines_withoutStyles`).
-/

namespace LanguageDetection

/-! ## Escape sequences -/

/-- Whether the character can be part of the parameters of an escape sequence. -/
def isParameter (c : Char) : Bool :=
  0x30 ≤ c.toNat && c.toNat ≤ 0x3F

/-- What stands behind the parameters that the text begins with and the letter `m`. -/
def behindParameters? : List Char → Option (List Char)
  | [] => none
  | c :: rest =>
    if c = 'm' then some rest else if isParameter c then behindParameters? rest else none

/-- What stands behind the escape sequence that the text begins with, if it begins with one that
sets a style. -/
def behindStyle? : List Char → Option (List Char)
  | '\x1b' :: '[' :: rest => behindParameters? rest
  | _ => none

/-- Behind the parameters of an escape sequence stands the letter that ends it. -/
lemma behindParameters?_eq_some_iff {text behind : List Char} :
    behindParameters? text = some behind ↔ ∃ parameters, (∀ c ∈ parameters, isParameter c = true) ∧
      text = parameters ++ 'm' :: behind := by
  induction text with
  | nil => simp [behindParameters?]
  | cons c rest ih =>
    rw [behindParameters?]
    by_cases hend : c = 'm'
    · subst hend
      rw [if_pos rfl, Option.some.injEq]
      constructor
      · rintro rfl
        exact ⟨[], by simp, rfl⟩
      · rintro ⟨parameters, hparameters, heq⟩
        cases parameters with
        | nil => exact (List.cons.inj heq).2
        | cons d parameters =>
          obtain ⟨rfl, -⟩ := List.cons.inj heq
          exact absurd (hparameters 'm' List.mem_cons_self) (by decide)
    · rw [if_neg hend]
      constructor
      · intro h
        split at h
        · next hparameter =>
          obtain ⟨parameters, hparameters, rfl⟩ := ih.mp h
          exact ⟨c :: parameters, List.forall_mem_cons.mpr ⟨hparameter, hparameters⟩, rfl⟩
        · cases h
      · rintro ⟨parameters, hparameters, heq⟩
        cases parameters with
        | nil => exact absurd (List.cons.inj heq).1 hend
        | cons d parameters =>
          obtain ⟨rfl, hrest⟩ := List.cons.inj heq
          rw [List.forall_mem_cons] at hparameters
          rw [if_pos hparameters.1]
          exact ih.mpr ⟨parameters, hparameters.2, hrest⟩

/-- The text begins with an escape character, a bracket, parameters and the letter `m`. -/
theorem behindStyle?_eq_some_iff {text behind : List Char} :
    behindStyle? text = some behind ↔ ∃ parameters, (∀ c ∈ parameters, isParameter c = true) ∧
      text = '\x1b' :: '[' :: (parameters ++ 'm' :: behind) := by
  constructor
  · intro h
    unfold behindStyle? at h
    split at h
    · obtain ⟨parameters, hparameters, rfl⟩ := behindParameters?_eq_some_iff.mp h
      exact ⟨parameters, hparameters, rfl⟩
    · cases h
  · rintro ⟨parameters, hparameters, rfl⟩
    exact behindParameters?_eq_some_iff.mpr ⟨parameters, hparameters, rfl⟩

/-- An escape sequence is not empty. -/
lemma length_lt_of_behindStyle? {text behind : List Char} (h : behindStyle? text = some behind) :
    behind.length < text.length := by
  obtain ⟨parameters, -, rfl⟩ := behindStyle?_eq_some_iff.mp h
  simp only [List.length_cons, List.length_append]
  omega

/-- The text without the escape sequences that set a style. -/
def withoutStyles : List Char → List Char
  | [] => []
  | c :: rest =>
    match _ : behindStyle? (c :: rest) with
    | some behind => withoutStyles behind
    | none => c :: withoutStyles rest
termination_by text => text.length
decreasing_by
  · exact length_lt_of_behindStyle? ‹_›
  · exact Nat.lt_succ_self _

@[simp] lemma withoutStyles_nil : withoutStyles [] = [] := by
  rw [withoutStyles]

/-- An escape sequence at the beginning is left out. -/
lemma withoutStyles_of_behindStyle? {text behind : List Char}
    (h : behindStyle? text = some behind) :
    withoutStyles text = withoutStyles behind := by
  cases text with
  | nil => cases h
  | cons c rest =>
    rw [withoutStyles]
    split
    · next behind' heq =>
      rw [h, Option.some.injEq] at heq
      rw [heq]
    · next heq =>
      rw [h] at heq
      cases heq

/-- A character that begins no escape sequence is kept. -/
lemma withoutStyles_cons_of_none {c : Char} {rest : List Char}
    (h : behindStyle? (c :: rest) = none) :
    withoutStyles (c :: rest) = c :: withoutStyles rest := by
  rw [withoutStyles]
  split
  · next heq =>
    rw [h] at heq
    cases heq
  · rfl

/-- A text is taken apart from the front: an escape sequence is left out, and anything else is
kept. -/
lemma withoutStyles_induction {motive : List Char → Prop} (nil : motive [])
    (style : ∀ text behind, behindStyle? text = some behind → motive behind → motive text)
    (cons : ∀ c rest, behindStyle? (c :: rest) = none → motive rest → motive (c :: rest))
    (text : List Char) : motive text := by
  induction hlength : text.length using Nat.strongRecOn generalizing text with
  | _ n ih =>
    subst hlength
    cases text with
    | nil => exact nil
    | cons c rest =>
      cases h : behindStyle? (c :: rest) with
      | none => exact cons c rest h (ih _ (Nat.lt_succ_self _) rest rfl)
      | some behind => exact style _ _ h (ih _ (length_lt_of_behindStyle? h) behind rfl)

/-- What is left was there before. -/
lemma mem_of_mem_withoutStyles {c : Char} {text : List Char} (h : c ∈ withoutStyles text) :
    c ∈ text := by
  induction text using withoutStyles_induction with
  | nil => exact absurd h (by simp)
  | style text behind heq ih =>
    rw [withoutStyles_of_behindStyle? heq] at h
    obtain ⟨parameters, -, rfl⟩ := behindStyle?_eq_some_iff.mp heq
    have hmem := ih h
    simp [hmem]
  | cons d rest heq ih =>
    rw [withoutStyles_cons_of_none heq] at h
    exact List.mem_cons.mpr ((List.mem_cons.mp h).imp_right ih)

/-! ## Texts that are kept -/

/-- Without an escape character nothing is taken out. -/
lemma withoutStyles_append {text : List Char} (h : '\x1b' ∉ text) (rest : List Char) :
    withoutStyles (text ++ rest) = text ++ withoutStyles rest := by
  induction text with
  | nil => rfl
  | cons c text ih =>
    rw [List.mem_cons, not_or] at h
    have hnone : behindStyle? (c :: (text ++ rest)) = none := by
      rw [Option.eq_none_iff_forall_ne_some]
      intro behind heq
      obtain ⟨_, -, hcons⟩ := behindStyle?_eq_some_iff.mp heq
      exact h.1 (List.cons.inj hcons).1.symm
    rw [List.cons_append, withoutStyles_cons_of_none hnone, ih h.2]
    rfl

/-- An escape sequence ends before the line does. -/
lemma behindStyle?_append_newline (text rest : List Char) :
    behindStyle? (text ++ '\n' :: rest) = (behindStyle? text).map (· ++ '\n' :: rest) := by
  refine Option.ext fun behind => ?_
  rw [Option.map_eq_some_iff, behindStyle?_eq_some_iff]
  constructor
  · rintro ⟨parameters, hparameters, heq⟩
    have hnewline : '\n' ∉ '\x1b' :: '[' :: (parameters ++ ['m']) := by
      have hmem : '\n' ∉ parameters := fun hmem => absurd (hparameters _ hmem) (by decide)
      simp [hmem]
    have hsplit : text ++ '\n' :: rest = ('\x1b' :: '[' :: (parameters ++ ['m'])) ++ behind := by
      simpa using heq
    rcases List.append_eq_append_iff.mp hsplit with ⟨more, hstyle, hrest⟩ | ⟨more, htext, rfl⟩
    · cases more with
      | nil =>
        refine ⟨[], behindStyle?_eq_some_iff.mpr ⟨parameters, hparameters, ?_⟩, hrest⟩
        simpa using hstyle.symm
      | cons c more =>
        obtain ⟨rfl, -⟩ := List.cons.inj hrest
        exact absurd (hstyle ▸ by simp) hnewline
    · refine ⟨more, behindStyle?_eq_some_iff.mpr ⟨parameters, hparameters, ?_⟩, rfl⟩
      simpa using htext
  · rintro ⟨behind', hbehind, rfl⟩
    obtain ⟨parameters, hparameters, rfl⟩ := behindStyle?_eq_some_iff.mp hbehind
    exact ⟨parameters, hparameters, by simp⟩

/-- An escape sequence does not go across the end of a line. -/
lemma withoutStyles_append_newline (text rest : List Char) :
    withoutStyles (text ++ '\n' :: rest) = withoutStyles text ++ '\n' :: withoutStyles rest := by
  induction text using withoutStyles_induction with
  | nil =>
    rw [withoutStyles_nil]
    exact withoutStyles_append (show '\x1b' ∉ ['\n'] by decide) rest
  | style text behind heq ih =>
    have hsplit := behindStyle?_append_newline text rest
    rw [heq, Option.map_some] at hsplit
    rw [withoutStyles_of_behindStyle? hsplit, withoutStyles_of_behindStyle? heq, ih]
  | cons c text heq ih =>
    have hsplit := behindStyle?_append_newline (c :: text) rest
    rw [heq, Option.map_none, List.cons_append] at hsplit
    rw [List.cons_append, withoutStyles_cons_of_none hsplit, withoutStyles_cons_of_none heq, ih]
    rfl

/-- A text can be freed of styles line by line. -/
theorem lines_withoutStyles (text : List Char) :
    (withoutStyles text).splitOn '\n' = (text.splitOn '\n').map withoutStyles :=
  splitOn_eq_map_splitOn withoutStyles_append_newline
    (fun _ hnone hmem => hnone (mem_of_mem_withoutStyles hmem)) text

example : withoutStyles "\x1b[1;32mMATCH\x1b[0m: a\x1b[2J".toList = "MATCH: a\x1b[2J".toList := by
  decide +kernel

/-! ## Styled text -/

namespace Style

/-- The numbers of a style are parameters. -/
lemma isParameter_codes (style : Style) :
    ∀ c ∈ (";".intercalate style.codes).toList, isParameter c = true := by
  refine List.all_eq_true.mp ?_
  obtain ⟨bold, dimmed, colour⟩ := style
  cases bold <;> cases dimmed <;> rcases colour with _ | (_ | _ | _) <;> decide +kernel

/-- The start of a style is taken out. -/
lemma withoutStyles_start (style : Style) (rest : List Char) :
    withoutStyles (style.start ++ rest) = withoutStyles rest := by
  refine withoutStyles_of_behindStyle?
    (behindStyle?_eq_some_iff.mpr ⟨_, style.isParameter_codes, ?_⟩)
  unfold start
  simp

/-- The end of a style is taken out. -/
lemma withoutStyles_reset (rest : List Char) :
    withoutStyles (reset ++ rest) = withoutStyles rest :=
  withoutStyles_of_behindStyle?
    (behindStyle?_eq_some_iff.mpr ⟨['0'], List.forall_mem_singleton.mpr rfl, rfl⟩)

/-- A style goes on through a text without an escape character. -/
lemma restart_eq (style : Style) {text : List Char} (h : '\x1b' ∉ text) :
    style.restart text = text := by
  induction text with
  | nil => rfl
  | cons c text ih =>
    rw [List.mem_cons, not_or] at h
    rw [restart.eq_2 _ _ _ fun _ hc _ => absurd hc.symm h.1, ih h.2]

end Style

/-- The text has no escape character. -/
def IsUnescaped (text : String) : Prop :=
  '\x1b' ∉ text.toList

instance (text : String) : Decidable (IsUnescaped text) :=
  inferInstanceAs (Decidable ('\x1b' ∉ text.toList))

/-- No piece has an escape character. -/
def StyledText.IsUnescaped (text : StyledText) : Prop :=
  ∀ span ∈ text, LanguageDetection.IsUnescaped span.text

/-- A coloured piece is the piece itself without the styles. -/
lemma Span.withoutStyles_render {span : Span} (h : IsUnescaped span.text) (rest : List Char) :
    withoutStyles (span.render true ++ rest) = span.render false ++ withoutStyles rest := by
  unfold render
  rw [Bool.true_and, Bool.false_and, if_neg Bool.false_ne_true, span.style.restart_eq h]
  split
  · rw [List.append_assoc, List.append_assoc, Style.withoutStyles_start, withoutStyles_append h,
      Style.withoutStyles_reset]
  · exact withoutStyles_append h rest

/-- Coloured text is plain text without the styles. -/
theorem StyledText.withoutStyles_render {text : StyledText} (h : text.IsUnescaped) :
    withoutStyles (text.render true).toList = (text.render false).toList := by
  unfold render
  rw [String.toList_ofList, String.toList_ofList]
  induction text with
  | nil => exact withoutStyles_nil
  | cons span text ih =>
    have hspan : LanguageDetection.IsUnescaped span.text := h span List.mem_cons_self
    rw [List.flatMap_cons, List.flatMap_cons, Span.withoutStyles_render hspan,
      ih fun span hspan => h span (List.mem_cons_of_mem _ hspan)]

end LanguageDetection
