import CronSchedule.CommandLine
import Mathlib.Data.Option.Basic

/-!
# Where the mode of a run comes from

The day match mode has two readers. The settings read it under the profile, and the command line
takes the plain variable as the value of an option that is not given. What the command line has
wins, so the plain variable stands in front of the settings.

* `Environment.HonoursSettings env` — arguments without the option run as the settings of the
  environment say.

Without the option, a plain variable that is not set leaves the mode to the settings
(`run_of_unset`), one that names a mode decides it (`run_of_named`), and any other is a usage error
(`run_of_unreadable`).

Main statement: **the settings are honoured exactly where the plain variable is not set**, or names
the mode that they have anyway (`Environment.honoursSettings_iff`). A profile with a mode of its own
does not come first, and an empty value is not as good as none.
-/

namespace CronSchedule

namespace Invocation

/-! ### Reading under any environment -/

/-- What arguments say whatever the environment: the command, its expression, and the options in
front of the command's name and behind it. -/
structure Parts where
  verb : Verb
  expression : String
  before : List (Switch × String)
  given : List (Switch × String)

/-- The invocation of the parts, where the mode can be read. -/
def Parts.invocation? (parts : Parts) (preset : Option String) : Option Invocation := do
  let outer ← dayMatchAt? preset parts.before
  let inner ← dayMatchAt? preset parts.given
  return {
    verb := parts.verb
    expression := parts.expression
    dayMatch :=
      if (parts.before.lookup .dayMatch).isSome ∧ (parts.given.lookup .dayMatch).isNone then outer
      else inner
    json := (parts.given.lookup .json).isSome
    timestamp := parts.given.lookup .timestamp
    ignoreSecond := (parts.given.lookup .ignoreSecond).isSome }

/-- The parts of options and operands: their options are those in front of the command's name and
then those behind it, and stand where they may. -/
structure Parts.Of (parts : Parts) (tokens : List Token) : Prop where
  /-- All options, in order. -/
  options : parts.before ++ parts.given = tokens.filterMap Token.toSwitch?
  /-- Only the mode may stand in front of the command's name. -/
  before : permitted [.dayMatch] parts.before = true
  /-- Behind it stand options of the command. -/
  given : permitted parts.verb.switches parts.given = true

/-- Arguments that are read under one environment have the same parts under all. -/
theorem exists_parts_of_read? {preset : Option String} {arguments : List String} {i : Invocation}
    (h : read? preset arguments = some i) :
    ∃ (tokens : List Token) (parts : Parts), Token.readAll? arguments = some tokens ∧
      parts.Of tokens ∧ ∀ preset, read? preset arguments = parts.invocation? preset := by
  unfold read? at h
  obtain ⟨tokens, htokens, h⟩ := Option.bind_eq_some_iff.mp h
  split at h
  · next name rest hrest =>
    obtain ⟨verb, hverb, h⟩ := Option.bind_eq_some_iff.mp h
    obtain ⟨_, hguard, h⟩ := Option.bind_eq_some_iff.mp h
    obtain ⟨_, -, h⟩ := Option.bind_eq_some_iff.mp h
    obtain ⟨_, -, h⟩ := Option.bind_eq_some_iff.mp h
    split at h
    · next expression hexpression =>
      refine ⟨tokens, ⟨verb, expression, (tokens.takeWhile fun t => t.toSwitch?.isSome).filterMap
        Token.toSwitch?, rest.filterMap Token.toSwitch?⟩, htokens, ?_, ?_⟩
      · have hall : tokens = (tokens.takeWhile fun t => t.toSwitch?.isSome) ++
            .operand name :: rest := by
          rw [← hrest, List.takeWhile_append_dropWhile]
        have hpermitted := (Option.guard_eq_some' _).mp hguard
        rw [Bool.and_eq_true] at hpermitted
        refine ⟨?_, hpermitted.1, hpermitted.2⟩
        conv => rhs; rw [hall, List.filterMap_append]
        rfl
      · intro preset
        -- everything in front of the modes is read as before
        unfold read?
        rw [htokens]
        dsimp only [Option.bind_eq_bind, Option.bind_some]
        rw [hrest]
        dsimp only
        rw [hverb]
        dsimp only [Option.bind_some]
        rw [hguard]
        dsimp only [Option.bind_some]
        rw [hexpression]
        rfl
    · exact nomatch h
  · cases h

/-! ### Arguments without a mode -/

variable {preset : Option String} {given : List (Switch × String)}

/-- There is no mode exactly where neither the options nor the environment have one. -/
theorem dayMatchAt?_eq_some_none_iff :
    dayMatchAt? preset given = some none ↔ given.lookup .dayMatch = none ∧ preset = none := by
  unfold dayMatchAt?
  rw [← Option.or_eq_none_iff]
  cases (given.lookup .dayMatch).or preset with
  | none => simp
  | some text => simp

/-- Options without a mode leave it to the environment. -/
theorem dayMatchAt?_of_lookup_eq_none (h : given.lookup .dayMatch = none) :
    dayMatchAt? preset given = dayMatchAt? preset [] := by
  unfold dayMatchAt?
  rw [h]
  rfl

/-- A mode that the environment names is the mode. -/
theorem dayMatchAt?_of_read_eq_ok {text : String} {mode : DayMatch}
    (h : DayMatch.read text.toList = .ok mode) : dayMatchAt? (some text) [] = some (some mode) := by
  unfold dayMatchAt?
  simp [h, Except.toOption]

/-- A text in the environment that names no mode leaves nothing to read. -/
theorem dayMatchAt?_of_read_eq_error {text : String} {cause : UnknownDayMatch}
    (h : DayMatch.read text.toList = .error cause) : dayMatchAt? (some text) [] = none := by
  unfold dayMatchAt?
  simp [h, Except.toOption]

/-- An invocation without a mode has no option for it, in neither place. -/
theorem Parts.lookup_of_dayMatch_eq_none {parts : Parts} {i : Invocation}
    (h : parts.invocation? none = some i) (hmode : i.dayMatch = none) :
    parts.before.lookup .dayMatch = none ∧ parts.given.lookup .dayMatch = none := by
  obtain ⟨outer, houter, h⟩ := Option.bind_eq_some_iff.mp h
  obtain ⟨inner, hinner, h⟩ := Option.bind_eq_some_iff.mp h
  cases h
  dsimp only at hmode
  split at hmode
  · next hbefore =>
    subst hmode
    rw [(dayMatchAt?_eq_some_none_iff.mp houter).1] at hbefore
    exact nomatch hbefore.1
  · next hbefore =>
    subst hmode
    have hgiven := (dayMatchAt?_eq_some_none_iff.mp hinner).1
    rw [hgiven, Option.isNone_none, and_iff_left rfl, Option.not_isSome_iff_eq_none] at hbefore
    exact ⟨hbefore, hgiven⟩

/-- **Arguments without a mode** ask for the same under every environment, with the mode that the
environment has. -/
theorem read?_of_dayMatch_eq_none {arguments : List String} {i : Invocation}
    (h : read? none arguments = some i) (hmode : i.dayMatch = none) (preset : Option String) :
    read? preset arguments =
      (dayMatchAt? preset []).map fun mode => { i with dayMatch := mode } := by
  obtain ⟨-, parts, -, -, hparts⟩ := exists_parts_of_read? h
  rw [hparts] at h ⊢
  obtain ⟨hbefore, hgiven⟩ := Parts.lookup_of_dayMatch_eq_none h hmode
  unfold Parts.invocation? at h ⊢
  rw [dayMatchAt?_of_lookup_eq_none hbefore, dayMatchAt?_of_lookup_eq_none hgiven] at h ⊢
  cases h
  cases hpreset : dayMatchAt? preset [] with
  | none => rfl
  | some mode => simp

/-! ### Responses -/

/-- The response to an invocation under the settings of an environment. -/
def respond (i : Invocation) (base : MatchSettings) (now : Timestamp) : Response :=
  match i.execute base now with
  | .ok outcome => .finished (if outcome.success then 0 else 1) outcome.output ""
  | .error e => .finished 1 "" e.report

/-- An invocation that is answered is no usage error. -/
theorem respond_ne_usageError (i : Invocation) (base : MatchSettings) (now : Timestamp) :
    i.respond base now ≠ .usageError := by
  unfold respond
  split
  · exact nofun
  · exact nofun

/-- A mode of an invocation stands for that of the settings. -/
theorem respond_of_dayMatch_eq_none {i : Invocation} (hmode : i.dayMatch = none) (mode : DayMatch)
    (base : MatchSettings) (now : Timestamp) :
    ({ i with dayMatch := some mode } : Invocation).respond base now =
      i.respond { base with dayMatch := mode } now := by
  unfold respond execute settings
  rw [hmode]
  rfl

end Invocation

/-- A run reads its arguments with the plain variable, and answers under the settings. -/
theorem run_eq (env : Environment) (now : Timestamp) (arguments : List String) :
    run env now arguments = ((Invocation.read? (env dayMatchVariable) arguments).map fun i =>
      i.respond (Settings.fromEnvironment env).matching now).getD .usageError := by
  unfold run
  cases Invocation.read? (env dayMatchVariable) arguments with
  | none => rfl
  | some i => rfl

/-! ### Runs without a mode -/

section

variable {arguments : List String} {i : Invocation}
  (h : Invocation.read? none arguments = some i)
include h

/-- Where the plain variable is not set, arguments without a mode run under the settings. -/
theorem run_of_unset {env : Environment} (hunset : env dayMatchVariable = none) (now : Timestamp) :
    run env now arguments = i.respond (Settings.fromEnvironment env).matching now := by
  rw [run_eq, hunset, h]
  rfl

variable (hmode : i.dayMatch = none)
include hmode

/-- Where the plain variable names a mode, arguments without one run under the settings with that
mode, whatever the profile has. -/
theorem run_of_named {env : Environment} {text : String} {mode : DayMatch}
    (hvalue : env dayMatchVariable = some text) (hread : DayMatch.read text.toList = .ok mode)
    (now : Timestamp) :
    run env now arguments =
      i.respond { (Settings.fromEnvironment env).matching with dayMatch := mode } now := by
  rw [run_eq, hvalue, Invocation.read?_of_dayMatch_eq_none h hmode,
    Invocation.dayMatchAt?_of_read_eq_ok hread, ← Invocation.respond_of_dayMatch_eq_none hmode]
  rfl

/-- Where the plain variable names none, be it empty, arguments without a mode are a usage error. -/
theorem run_of_unreadable {env : Environment} {text : String} {cause : UnknownDayMatch}
    (hvalue : env dayMatchVariable = some text) (hread : DayMatch.read text.toList = .error cause)
    (now : Timestamp) : run env now arguments = .usageError := by
  rw [run_eq, hvalue, Invocation.read?_of_dayMatch_eq_none h hmode,
    Invocation.dayMatchAt?_of_read_eq_error hread]
  rfl

end

/-! ### The settings of the environment -/

/-- The environment of some variables and their values. -/
def Environment.ofList (values : List (String × String)) : Environment :=
  fun key => values.lookup key

/-- Whether arguments without an option for the mode run as the settings of an environment say. -/
def Environment.HonoursSettings (env : Environment) : Prop :=
  ∀ (arguments : List String) (i : Invocation), Invocation.read? none arguments = some i →
    i.dayMatch = none →
      ∀ now : Timestamp,
        run env now arguments = i.respond (Settings.fromEnvironment env).matching now

/-- The midnight that begins day number zero, in UTC. -/
def Timestamp.dayZero : Timestamp := ⟨.ofSecondNumber 0, false, 0, 0⟩

/-- Asking for the values of an expression that admits every minute. -/
def explainEvery : Invocation := ⟨.explain, "* * * * *", none, false, none, false⟩

/-- What is explained shows the mode of the settings. -/
theorem dayMatch_eq_of_respond_explainEvery {base other : MatchSettings} {now : Timestamp}
    (h : explainEvery.respond base now = explainEvery.respond other now) :
    base.dayMatch = other.dayMatch := by
  -- neither the moment nor the rest of the settings is looked at
  have hshown (settings : MatchSettings) : explainEvery.respond settings now =
      explainEvery.respond ⟨settings.dayMatch, true⟩ .dayZero := rfl
  rw [hshown base, hshown other] at h
  revert h
  cases base.dayMatch with
  | all =>
    cases other.dayMatch with
    | all => exact fun _ => rfl
    | either => decide +kernel
  | either =>
    cases other.dayMatch with
    | all => decide +kernel
    | either => exact fun _ => rfl

/-- **The settings are honoured exactly where the plain variable is not set**, or names the mode
that the settings have anyway. -/
theorem Environment.honoursSettings_iff (env : Environment) :
    env.HonoursSettings ↔ env dayMatchVariable = none ∨
      ∃ text, env dayMatchVariable = some text ∧
        DayMatch.read text.toList = .ok (Settings.fromEnvironment env).matching.dayMatch := by
  refine ⟨?_, ?_⟩
  · intro h
    have hread : Invocation.read? none ["explain", "* * * * *"] = some explainEvery := by
      decide +kernel
    have hrun := h _ _ hread rfl .dayZero
    cases hvalue : env dayMatchVariable with
    | none => exact .inl rfl
    | some text =>
      refine .inr ⟨text, rfl, ?_⟩
      cases hmode : DayMatch.read text.toList with
      | error cause =>
        rw [run_of_unreadable hread rfl hvalue hmode] at hrun
        exact absurd hrun.symm (Invocation.respond_ne_usageError _ _ _)
      | ok mode =>
        rw [run_of_named hread rfl hvalue hmode] at hrun
        exact congrArg Except.ok (dayMatch_eq_of_respond_explainEvery hrun)
  · intro h arguments i hi hmode now
    rcases h with hunset | ⟨text, hvalue, hread⟩
    · exact run_of_unset hi hunset now
    · rw [run_of_named hi hmode hvalue hread]

/-- A profile that asks for one mode is not honoured next to a plain variable that asks for the
other, and neither is the default next to an empty one. -/
theorem not_honoursSettings_of_overridden_profile :
    ¬(Environment.ofList [("CRONPAT_PROFILE", "PROD"), ("PROD_CRONPAT_DAY_MATCH", "either"),
        ("CRONPAT_DAY_MATCH", "all")]).HonoursSettings ∧
      ¬(Environment.ofList [("CRONPAT_DAY_MATCH", "")]).HonoursSettings := by
  have hread : Invocation.read? none ["explain", "0 0 13 * fri"] =
      some ⟨.explain, "0 0 13 * fri", none, false, none, false⟩ := by
    decide +kernel
  refine ⟨?_, ?_⟩
  · intro h
    have hrun := h _ _ hread rfl .dayZero
    revert hrun
    decide +kernel
  · intro h
    have hrun := h _ _ hread rfl .dayZero
    revert hrun
    decide +kernel

end CronSchedule
