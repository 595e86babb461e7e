import Mathlib.Tactic.Common
import LanguageDetection.CommandLine.Arguments
import LanguageDetection.CommandLine.Session

/-!
# The command line

What `--strict` changes in reading the arguments of a call, and what a call does to the files.
-/

namespace LanguageDetection

/-!
## Reading arguments with and without `--strict`

While arguments are read, whether `--strict` has been met is looked at by nothing but a second
`--strict`.  So each step of the reading that leaves a validation lenient does the same to what has
been read so far and to the same made strict (`KeepsStrictness`).  Arguments that ask for a lenient
validation therefore ask for the strict one if `--strict` is put right behind the command.
-/

namespace CommandLine

/-- What two operations come to if both succeed. -/
lemma exists_of_bind_eq_ok {α β : Type} {x : Except Refusal α} {f : α → Except Refusal β} {b : β}
    (h : x >>= f = .ok b) : ∃ a, x = .ok a ∧ f a = .ok b := by
  cases x with
  | error refusal => cases h
  | ok a => exact ⟨a, rfl, h⟩

/-! ### Options -/

namespace Given

/-- The same options, and strict. -/
def strictly (given : Given) : Given :=
  { given with strict := true }

/-- If options are lenient behind a step, then so they were in front of it, and the step leads from
the strict ones to the strict ones. -/
def KeepsStrictness (step : Given → Except Refusal Given) : Prop :=
  ∀ given given', step given = .ok given' → given'.strict = false →
    given.strict = false ∧ step given.strictly = .ok given'.strictly

/-- Only `--strict` asks whether options are strict, and it makes them so. -/
lemma keepsStrictness_put (option : CommandOption) (value : String) :
    KeepsStrictness fun given => given.put option value := by
  intro given given' h hlenient
  dsimp only at h ⊢
  unfold put at h ⊢
  have hhas : option ≠ .strict → given.strictly.has option = given.has option := by
    intro hne
    cases option <;> first | rfl | exact absurd rfl hne
  split_ifs at h with hgiven
  cases option with
  | strict =>
    cases h
    cases hlenient
  | help | version => cases h
  | config =>
    obtain ⟨path, hpath, h⟩ := exists_of_bind_eq_ok h
    cases h
    rw [hhas CommandOption.noConfusion, if_neg hgiven, hpath]
    exact ⟨hlenient, rfl⟩
  | format =>
    obtain ⟨format, hformat, h⟩ := exists_of_bind_eq_ok h
    cases h
    rw [hhas CommandOption.noConfusion, if_neg hgiven, hformat]
    exact ⟨hlenient, rfl⟩
  | verbose | ext | lang | plain | all | force =>
    cases h
    rw [hhas CommandOption.noConfusion, if_neg hgiven]
    exact ⟨hlenient, rfl⟩

/-- Adding paths does not ask whether options are strict. -/
lemma keepsStrictness_putPaths (texts : List String) :
    KeepsStrictness fun given => given.putPaths texts := by
  intro given given' h hlenient
  obtain ⟨paths, hpaths, h⟩ := exists_of_bind_eq_ok h
  cases h
  refine ⟨hlenient, ?_⟩
  unfold putPaths
  rw [hpaths]
  rfl

end Given

/-! ### Steps -/

namespace Progress

/-- The same progress, and strict. -/
def strictly (progress : Progress) : Progress :=
  { progress with given := progress.given.strictly }

/-- If the options are lenient behind a step, then so they were in front of it, and the step leads
from the strict ones to the strict ones. -/
def KeepsStrictness (step : Progress → Except Refusal Progress) (progress : Progress) : Prop :=
  ∀ progress', step progress = .ok progress' → progress'.given.strict = false →
    progress.given.strict = false ∧ step progress.strictly = .ok progress'.strictly

namespace KeepsStrictness

variable {step step' : Progress → Except Refusal Progress} {progress : Progress}

/-- A step that is refused leads nowhere. -/
lemma error (refusal : Refusal) (progress : Progress) :
    KeepsStrictness (fun _ => .error refusal) progress := by
  intro progress' h
  cases h

/-- A step that leaves the options alone keeps their strictness. -/
lemma ok {f : Progress → Progress} (hgiven : (f progress).given = progress.given)
    (hstrict : f progress.strictly = (f progress).strictly) :
    KeepsStrictness (fun progress => .ok (f progress)) progress := by
  intro progress' h hlenient
  cases h
  rw [hgiven] at hlenient
  exact ⟨hlenient, congrArg _ hstrict⟩

/-- One step behind another. -/
lemma bind (h : KeepsStrictness step progress) (h' : ∀ progress, KeepsStrictness step' progress) :
    KeepsStrictness (fun progress => step progress >>= step') progress := by
  intro progress' heq hlenient
  obtain ⟨between, hstep, hstep'⟩ := exists_of_bind_eq_ok heq
  obtain ⟨hbetween, hstrict'⟩ := h' between progress' hstep' hlenient
  obtain ⟨hfirst, hstrict⟩ := h between hstep hbetween
  refine ⟨hfirst, ?_⟩
  dsimp only
  rw [hstrict]
  exact hstrict'

/-- A step that changes the options alone. -/
lemma put {change : Given → Except Refusal Given} (h : Given.KeepsStrictness change)
    (progress : Progress) :
    KeepsStrictness (fun progress => do
      return { progress with given := ← change progress.given }) progress := by
  intro progress' heq hlenient
  obtain ⟨given, hgiven, heq⟩ := exists_of_bind_eq_ok heq
  cases heq
  obtain ⟨hfirst, hstrict⟩ := h progress.given given hgiven hlenient
  refine ⟨hfirst, ?_⟩
  change change progress.given.strictly >>= _ = _
  rw [hstrict]
  rfl

/-- Two steps that agree on a progress and on the same made strict. -/
lemma congr (h : KeepsStrictness step' progress) (heq : step progress = step' progress)
    (hstrict : step progress.strictly = step' progress.strictly) :
    KeepsStrictness step progress := by
  intro progress' hstep hlenient
  rw [hstrict]
  exact h progress' (heq ▸ hstep) hlenient

end KeepsStrictness

/-- The same progress with something pending. -/
def withPending (pending : Pending) (progress : Progress) : Progress :=
  { progress with pending }

lemma keepsStrictness_withPending (pending : Pending) (progress : Progress) :
    KeepsStrictness (fun progress => .ok (progress.withPending pending)) progress :=
  .ok rfl rfl

/-- Settling what is pending puts an option or adds paths. -/
lemma keepsStrictness_settle (progress : Progress) : KeepsStrictness settle progress := by
  have hclear := keepsStrictness_withPending .nothing
  obtain ⟨given, pending, onlyPaths⟩ := progress
  cases pending with
  | nothing => exact (hclear _).congr rfl rfl
  | awaiting option => exact (KeepsStrictness.error .invalidValue _).congr rfl rfl
  | value option text =>
    have hput := Given.keepsStrictness_put option text
    refine ((KeepsStrictness.put hput _).bind hclear).congr ?_ ?_
    · change given.put option text >>= _ = (given.put option text >>= _) >>= _
      cases given.put option text <;> rfl
    · change given.strictly.put option text >>= _ = (given.strictly.put option text >>= _) >>= _
      cases given.strictly.put option text <;> rfl
  | paths texts =>
    have hput := Given.keepsStrictness_putPaths texts
    refine ((KeepsStrictness.put hput _).bind hclear).congr ?_ ?_
    · change given.putPaths texts >>= _ = (given.putPaths texts >>= _) >>= _
      cases given.putPaths texts <;> rfl
    · change given.strictly.putPaths texts >>= _ = (given.strictly.putPaths texts >>= _) >>= _
      cases given.strictly.putPaths texts <;> rfl

/-- What is pending is looked at before the next thing. -/
lemma keepsStrictness_settle_bind {step : Progress → Except Refusal Progress}
    (h : ∀ progress, KeepsStrictness step progress) (progress : Progress) :
    KeepsStrictness (fun progress => progress.settle >>= step) progress :=
  (keepsStrictness_settle progress).bind h

/-- An option is put, or awaits its value, once what was pending is settled. -/
lemma keepsStrictness_option (option : CommandOption) (attached : Option String)
    (progress : Progress) :
    KeepsStrictness (fun progress => progress.option option attached) progress := by
  have hput (value : String) := keepsStrictness_settle_bind
    (KeepsStrictness.put (Given.keepsStrictness_put option value)) progress
  have hawait := keepsStrictness_settle_bind
    (keepsStrictness_withPending (.awaiting option)) progress
  unfold Progress.option
  cases option.arity with
  | value =>
    cases attached with
    | some value => exact hput value
    | none => exact hawait
  | flag | counter =>
    cases attached with
    | some value => exact .error .unexpectedValue progress
    | none => exact hput ""

/-- The long name of an option stands for it, and any other name is refused. -/
lemma keepsStrictness_long (level : Level) (name : List Char) (attached : Option String)
    (progress : Progress) :
    KeepsStrictness (fun progress => progress.long level name attached) progress := by
  unfold Progress.long
  cases level.options.find? fun option => option.long.toList == name with
  | some option => exact keepsStrictness_option option attached progress
  | none => exact .error .unknownArgument progress

/-- A cluster of letters is a series of options. -/
lemma keepsStrictness_letters (level : Level) (letters : List Char) (progress : Progress) :
    KeepsStrictness (fun progress => progress.letters level letters) progress := by
  induction letters generalizing progress with
  | nil => exact .ok rfl rfl
  | cons letter rest ih =>
    unfold Progress.letters
    cases level.options.find? (·.short? == some letter) with
    | none => exact .error .unknownArgument progress
    | some option =>
      dsimp only
      split_ifs
      · exact keepsStrictness_option option _ progress
      · exact (keepsStrictness_option option none progress).bind ih

/-- A path joins the paths that are pending, or is the first of them. -/
lemma keepsStrictness_path (level : Level) (argument : String) (progress : Progress) :
    KeepsStrictness (fun progress => progress.path level argument) progress := by
  cases level with
  | none => exact (KeepsStrictness.error _ progress).congr rfl rfl
  | some command =>
    -- of the pending things only paths count, and only their number
    have hpath (earlier : Nat) (texts : List String) :
        KeepsStrictness (fun progress =>
          if command.pathLimit.any (· ≤ earlier) then .error .unknownArgument
          else if texts.isEmpty then
            progress.settle >>= fun progress => .ok (progress.withPending (.paths [argument]))
          else .ok (progress.withPending (.paths (texts ++ [argument])))) progress := by
      split_ifs
      · exact .error .unknownArgument progress
      · exact keepsStrictness_settle_bind (keepsStrictness_withPending _) progress
      · exact keepsStrictness_withPending _ progress
    obtain ⟨given, pending, onlyPaths⟩ := progress
    cases pending with
    | paths texts => exact (hpath (given.paths.length + texts.length) texts).congr rfl rfl
    | nothing | awaiting option | value option text =>
      exact (hpath given.paths.length []).congr rfl rfl

/-- An argument that is no option. -/
lemma keepsStrictness_value (level : Level) (argument : String) (progress : Progress) :
    KeepsStrictness (fun progress =>
      match progress.pending with
      | .awaiting option => .ok { progress with pending := .value option argument }
      | _ => progress.path level argument) progress := by
  obtain ⟨given, pending, onlyPaths⟩ := progress
  cases pending with
  | awaiting option => exact (keepsStrictness_withPending (.value option argument) _).congr rfl rfl
  | nothing | value option text | paths texts =>
    exact (keepsStrictness_path level argument _).congr rfl rfl

/-- An argument is an option, a cluster of letters, a value or a path. -/
lemma keepsStrictness_argument (level : Level) (argument : String) (progress : Progress) :
    KeepsStrictness (fun progress => progress.argument level argument) progress := by
  intro progress' h
  dsimp only at h ⊢
  unfold Progress.argument at h ⊢
  by_cases honly : progress.onlyPaths = true
  · rw [if_pos honly] at h
    rw [if_pos (c := progress.strictly.onlyPaths = true) honly]
    exact keepsStrictness_path level argument progress progress' h
  · rw [if_neg honly] at h
    rw [if_neg (c := progress.strictly.onlyPaths = true) honly]
    revert h
    split
    · intro h hlenient
      cases h
      exact ⟨hlenient, rfl⟩
    · exact keepsStrictness_long level _ _ progress progress'
    · exact keepsStrictness_letters level _ progress progress'
    · exact keepsStrictness_value level argument progress progress'

end Progress

/-! ### Levels -/

/-- A command is found by its own identifier only. -/
lemma CommandName.eq_id_of_ofId? {argument : String} {command : CommandName}
    (h : CommandName.ofId? argument = some command) : argument = command.id := by
  have hid : (command.id == argument) = true :=
    List.find?_some (p := fun command : CommandName => command.id == argument) h
  exact (eq_of_beq hid).symm

/-- An argument ends its level, or is refused, or is read before the others; which of these depends
on what has been read so far only in whether the level may end. -/
lemma readLevel_cons_cases (level : Level) (argument : String) (ends : Bool) :
    (∃ command, argument = CommandName.id command ∧ ∀ progress arguments,
      Progress.mayEnd progress level = ends →
        readLevel level progress (argument :: arguments) =
          .ok (progress, some (command, arguments))) ∨
    (∀ progress arguments, Progress.mayEnd progress level = ends →
      ∃ refusal, readLevel level progress (argument :: arguments) = .error refusal) ∨
    ∀ progress arguments, Progress.mayEnd progress level = ends →
      readLevel level progress (argument :: arguments) =
        progress.argument level argument >>= fun progress =>
          readLevel level progress arguments := by
  cases ends with
  | false =>
    refine .inr (.inr fun progress arguments hends => ?_)
    rw [readLevel, hends]
  | true =>
    cases hcommand : CommandName.ofId? argument with
    | some command =>
      refine .inl ⟨command, CommandName.eq_id_of_ofId? hcommand, fun progress arguments hends => ?_⟩
      rw [readLevel, hends, hcommand]
    | none =>
      by_cases hhelp : (argument == "help") = true
      · refine .inr (.inl fun progress arguments hends => ⟨helpOn arguments, ?_⟩)
        rw [readLevel, hends, hcommand]
        exact if_pos hhelp
      · refine .inr (.inr fun progress arguments hends => ?_)
        rw [readLevel, hends, hcommand]
        exact if_neg hhelp

section Level

variable {level : Level} {arguments : List String} {progress progress' : Progress}

/-- What is read of a level is read of it in strict mode as well. -/
lemma readLevel_strictly {behind : Option (CommandName × List String)}
    (h : readLevel level progress arguments = .ok (progress', behind))
    (hlenient : progress'.given.strict = false) :
    progress.given.strict = false ∧
      readLevel level progress.strictly arguments = .ok (progress'.strictly, behind) := by
  induction arguments generalizing progress with
  | nil =>
    cases h
    exact ⟨hlenient, rfl⟩
  | cons argument arguments ih =>
    have hends : progress.strictly.mayEnd level = progress.mayEnd level := rfl
    rcases readLevel_cons_cases level argument (progress.mayEnd level) with
      ⟨command, -, hend⟩ | hrefused | hread
    · rw [hend progress arguments rfl] at h
      cases h
      exact ⟨hlenient, hend _ arguments hends⟩
    · obtain ⟨refusal, hrefusal⟩ := hrefused progress arguments rfl
      rw [hrefusal] at h
      cases h
    · rw [hread progress arguments rfl] at h
      obtain ⟨between, hargument, hrest⟩ := exists_of_bind_eq_ok h
      obtain ⟨hbetween, hstrict⟩ := ih hrest
      obtain ⟨hfirst, hargument'⟩ :=
        Progress.keepsStrictness_argument level argument progress between hargument hbetween
      refine ⟨hfirst, ?_⟩
      dsimp only at hargument'
      rw [hread _ arguments hends, hargument']
      exact hstrict

/-- A level ends at the name of a command, whatever stands behind it. -/
lemma exists_of_readLevel_eq_some {command : CommandName} {rest : List String}
    (h : readLevel level progress arguments = .ok (progress', some (command, rest))) :
    ∃ before, arguments = before ++ command.id :: rest ∧
      ∀ rest', readLevel level progress (before ++ command.id :: rest') =
        .ok (progress', some (command, rest')) := by
  induction arguments generalizing progress with
  | nil => cases h
  | cons argument arguments ih =>
    rcases readLevel_cons_cases level argument (progress.mayEnd level) with
      ⟨command', rfl, hend⟩ | hrefused | hread
    · rw [hend progress arguments rfl] at h
      cases h
      exact ⟨[], rfl, fun rest' => hend _ rest' rfl⟩
    · obtain ⟨refusal, hrefusal⟩ := hrefused progress arguments rfl
      rw [hrefusal] at h
      cases h
    · rw [hread progress arguments rfl] at h
      obtain ⟨between, hargument, hrest⟩ := exists_of_bind_eq_ok h
      obtain ⟨before, rfl, hbefore⟩ := ih hrest
      refine ⟨argument :: before, rfl, fun rest' => ?_⟩
      rw [List.cons_append, hread progress _ rfl, hargument]
      exact hbefore rest'

end Level

/-- Asks whether the settings document that the environment names can be a path, if there is no
other one. -/
def checkFallback (config : Option Path) (fallback : Option String) : Except Refusal Unit :=
  match config, fallback with
  | none, some path => discard <| Given.readPath path
  | _, _ => .ok ()

/-- At its end a level settles what is pending, and then looks at the fallback. -/
lemma finish_eq (progress : Progress) (fallback : Option String) :
    progress.finish fallback = progress.settle >>= fun settled =>
      checkFallback settled.given.config fallback >>= fun _ => .ok settled.given := by
  unfold Progress.finish
  cases progress.settle with
  | error refusal => rfl
  | ok settled =>
    change (match settled.given.config, fallback with | none, some path => _ | _, _ => _) =
      checkFallback settled.given.config fallback >>= fun _ => .ok settled.given
    cases settled.given.config <;> cases fallback <;> rfl

/-- A level that ends leniently ends in strict mode as well, with the strict options. -/
lemma finish_strictly {progress : Progress} {given : Given} {fallback : Option String}
    (h : progress.finish fallback = .ok given) (hlenient : given.strict = false) :
    progress.given.strict = false ∧ progress.strictly.finish fallback = .ok given.strictly := by
  rw [finish_eq] at h ⊢
  obtain ⟨settled, hsettled, h⟩ := exists_of_bind_eq_ok h
  obtain ⟨checked, hchecked, h⟩ := exists_of_bind_eq_ok h
  cases h
  obtain ⟨hfirst, hsettled'⟩ := Progress.keepsStrictness_settle progress settled hsettled hlenient
  refine ⟨hfirst, ?_⟩
  rw [hsettled']
  change checkFallback settled.given.config fallback >>= _ = _
  rw [hchecked]
  rfl

/-! ### The command line -/

/-- How arguments are read: in front of a command, and behind it. -/
structure Reading (arguments : List String) (fallback : Option String) (name : CommandName)
    (behind : List String) (outer inner : Given) : Prop where
  readLevel_outer : ∃ progress, readLevel none {} arguments = .ok (progress, some (name, behind)) ∧
    progress.finish fallback = .ok outer
  readLevel_inner : ∃ progress next, readLevel (some name) {} behind = .ok (progress, next) ∧
    progress.finish fallback = .ok inner

/-- The run with a command that is asked for in front of it and behind it. -/
def invocationOf (fallback : Option String) (outer inner : Given) (command : Command) :
    Invocation :=
  { command
    config := inner.config.or (outer.config.or (fallback.map Path.ofString))
    verbosity := if inner.verbosity = 0 then outer.verbosity else inner.verbosity
    plain := inner.plain || outer.plain }

/-- Arguments ask for what an outer level, a command behind it and an inner level make of them. -/
lemma readArguments_eq_ok_iff {arguments : List String} {fallback : Option String}
    {invocation : Invocation} :
    readArguments arguments fallback = .ok invocation ↔
      ∃ name behind outer inner command, Reading arguments fallback name behind outer inner ∧
        CommandName.command name inner = .ok command ∧
          invocation = invocationOf fallback outer inner command := by
  unfold readArguments
  constructor
  · intro h
    obtain ⟨⟨progress, next⟩, houter, h⟩ := exists_of_bind_eq_ok h
    cases next with
    | none =>
      obtain ⟨given, -, h⟩ := exists_of_bind_eq_ok h
      cases h
    | some next =>
      obtain ⟨name, behind⟩ := next
      obtain ⟨⟨progress', next⟩, hinner, h⟩ := exists_of_bind_eq_ok h
      obtain ⟨inner, hinner', h⟩ := exists_of_bind_eq_ok h
      obtain ⟨command, hcommand, h⟩ := exists_of_bind_eq_ok h
      obtain ⟨outer, houter', h⟩ := exists_of_bind_eq_ok h
      cases h
      exact ⟨name, behind, outer, inner, command,
        ⟨⟨progress, houter, houter'⟩, progress', next, hinner, hinner'⟩, hcommand, rfl⟩
  · rintro ⟨name, behind, outer, inner, command, hreading, hcommand, rfl⟩
    obtain ⟨progress, houter, houter'⟩ := hreading.readLevel_outer
    obtain ⟨progress', next, hinner, hinner'⟩ := hreading.readLevel_inner
    rw [houter]
    change readLevel (some name) {} behind >>= _ = _
    rw [hinner]
    change progress'.finish fallback >>= _ = _
    rw [hinner']
    change CommandName.command name inner >>= _ = _
    rw [hcommand]
    change progress.finish fallback >>= _ = _
    rw [houter']
    rfl

/-- A reading with `--strict` right behind the command. -/
lemma Reading.exists_strict {arguments behind : List String} {fallback : Option String}
    {outer inner : Given} (h : Reading arguments fallback .validate behind outer inner)
    (hlenient : inner.strict = false) :
    ∃ before, arguments = before ++ "validate" :: behind ∧
      Reading (before ++ "validate" :: "--strict" :: behind) fallback .validate
        ("--strict" :: behind) outer inner.strictly := by
  obtain ⟨progress, houter, houter'⟩ := h.readLevel_outer
  obtain ⟨progress', next, hinner, hinner'⟩ := h.readLevel_inner
  obtain ⟨before, heq, hbefore⟩ := exists_of_readLevel_eq_some houter
  obtain ⟨hread, hfinish⟩ := finish_strictly hinner' hlenient
  obtain ⟨-, hstrict⟩ := readLevel_strictly hinner hread
  refine ⟨before, heq, ⟨progress, hbefore ("--strict" :: behind), houter'⟩, ?_⟩
  refine ⟨progress'.strictly, next, ?_, hfinish⟩
  have hflag : Progress.argument {} (some .validate) "--strict" = .ok (Progress.strictly {}) := rfl
  change Progress.argument {} (some .validate) "--strict" >>=
    (fun progress => readLevel (some .validate) progress behind) = _
  rw [hflag]
  exact hstrict

/-- Arguments that ask for a lenient validation ask for the strict one if `--strict` stands right
behind the command. -/
theorem exists_readArguments_strict {arguments : List String} {fallback : Option String}
    {invocation : Invocation} {language : String} {path : Option Path} {extension : Option String}
    {format : Option OutputFormat} (h : readArguments arguments fallback = .ok invocation)
    (hcommand : invocation.command = .validate language path extension format false) :
    ∃ before behind, arguments = before ++ "validate" :: behind ∧
      readArguments (before ++ "validate" :: "--strict" :: behind) fallback =
        .ok { invocation with command := .validate language path extension format true } := by
  obtain ⟨name, behind, outer, inner, command, hreading, hmade, rfl⟩ := readArguments_eq_ok_iff.mp h
  change command = _ at hcommand
  subst hcommand
  cases name with
  | detect | languages | init => cases hmade
  | validate =>
    unfold CommandName.command at hmade
    cases hlanguage : inner.lang with
    | none =>
      rw [hlanguage] at hmade
      cases hmade
    | some language =>
      rw [hlanguage] at hmade
      injection hmade with hmade
      injection hmade with heq hpath hextension hformat hstrict
      subst heq hpath hextension hformat
      obtain ⟨before, heq, hstrictly⟩ := hreading.exists_strict hstrict
      refine ⟨before, behind, heq, readArguments_eq_ok_iff.mpr
        ⟨_, _, _, _, _, hstrictly, ?_, rfl⟩⟩
      unfold CommandName.command
      dsimp only [Given.strictly]
      rw [hlanguage]

end CommandLine

/-!
## What a call does to the files

A call whose arguments cannot be read changes nothing, and neither does one that shows something.
The only command that does not just show something is the one that creates a settings document.
-/

namespace Call

/-- The same call with other arguments. -/
def withArguments (call : Call) (arguments : List String) : Call :=
  { call with arguments }

/-- The arguments of the call ask for a run. -/
def AsksFor (call : Call) (invocation : Invocation) : Prop :=
  CommandLine.readArguments call.arguments call.environment.config? = .ok invocation

/-- The call is to create a settings document, by force or not. -/
def Creates (call : Call) (force : Bool) : Prop :=
  ∃ invocation, call.AsksFor invocation ∧ invocation.command = .init force

section Perform

variable {call : Call} {tree : FileTree} {invocation : Invocation}

/-- A call whose arguments can be read comes to what they ask for. -/
lemma outcome_of_asksFor (h : call.AsksFor invocation) :
    call.outcome tree = invocation.run (call.surroundings tree) := by
  unfold outcome
  rw [h]

/-- A run that shows something leaves the tree as it is. -/
lemma perform_of_run_eq {output : String} {failure : Option Failure} (h : call.AsksFor invocation)
    (hrun : invocation.run (call.surroundings tree) = .shown output failure) :
    call.perform tree = (tree, .shown output failure) := by
  unfold perform
  rw [outcome_of_asksFor h, hrun]

end Perform

/-- All commands but the one that creates a document show something. -/
lemma exists_run_eq_shown {invocation : Invocation}
    (h : ∀ force, invocation.command ≠ .init force) (around : Surroundings) :
    ∃ output failure, invocation.run around = .shown output failure := by
  obtain ⟨command, config, verbosity, plain⟩ := invocation
  unfold Invocation.run
  cases command with
  | init force => exact absurd rfl (h force)
  | detect paths extension all format =>
    cases Settings.load around.sources.read around.directory config with
    | error error => exact ⟨_, _, rfl⟩
    | ok settings =>
      dsimp only [Invocation.usesSettings, Invocation.answer]
      cases around.sources.detect .builtin settings.thresholds extension paths <;> exact ⟨_, _, rfl⟩
  | validate language path extension format strict =>
    cases Settings.load around.sources.read around.directory config with
    | error error => exact ⟨_, _, rfl⟩
    | ok settings =>
      dsimp only [Invocation.usesSettings, Invocation.answer]
      cases around.sources.validate .builtin settings.thresholds language extension path <;>
        exact ⟨_, _, rfl⟩
  | languages format =>
    cases Settings.load around.sources.read around.directory config <;> exact ⟨_, _, rfl⟩

/-- A call that is not to create a document leaves the tree as it is. -/
lemma perform_of_not_creates {call : Call} (h : ∀ force, ¬ call.Creates force) (tree : FileTree) :
    (call.perform tree).1 = tree := by
  cases hread : CommandLine.readArguments call.arguments call.environment.config? with
  | error refusal =>
    unfold perform outcome
    rw [hread]
  | ok invocation =>
    obtain ⟨output, failure, hrun⟩ := exists_run_eq_shown
      (fun force hcommand => h force ⟨invocation, hread, hcommand⟩) (call.surroundings tree)
    rw [perform_of_run_eq hread hrun]

end Call

end LanguageDetection
