import CronSchedule.Proofs.CommandLine.Precedence

/-!
# Options that leave nothing to the environment

* `Gives arguments s` — an option stands among arguments.
* `Environment.ModeReadable env` — the plain variable names a mode, if it is set.
* `Invocation.Explicit i` — an invocation with everything that the settings or the clock could add.

The environment reaches a run in two places. Reading the arguments consults the plain variable,
which a given mode makes irrelevant as long as it can be read (`Invocation.read?_of_gives`);
answering consults the settings, to which an explicit invocation leaves nothing
(`Invocation.respond_eq_of_explicit`).

Main statement: **explicit options override the whole environment** (`run_eq_of_gives`).
-/

namespace CronSchedule

/-- An option stands among arguments, whatever its value. -/
def Gives (arguments : List String) (s : Switch) : Prop :=
  ∃ (tokens : List Token) (value : String), Token.readAll? arguments = some tokens ∧
    .switch s value ∈ tokens

/-- The plain variable of the mode is not set, or names a mode. -/
def Environment.ModeReadable (env : Environment) : Prop :=
  ∀ text, env dayMatchVariable = some text → ∃ mode, DayMatch.read text.toList = .ok mode

namespace Invocation

/-! ### What the options say -/

/-- Options contain an option exactly when looking it up finds a value. -/
theorem lookup_isSome_iff {options : List (Switch × String)} {s : Switch} :
    (options.lookup s).isSome = true ↔ ∃ value, (s, value) ∈ options := by
  rw [List.lookup_isSome_iff]
  constructor
  · rintro ⟨⟨t, value⟩, hmem, heq⟩
    cases beq_iff_eq.mp heq
    exact ⟨value, hmem⟩
  · rintro ⟨value, hmem⟩
    exact ⟨_, hmem, beq_self_eq_true s⟩

/-- Options that are permitted are among those that are allowed. -/
theorem mem_of_permitted {allowed : List Switch} {options : List (Switch × String)}
    (h : permitted allowed options = true) {s : Switch}
    (hs : (options.lookup s).isSome = true) : s ∈ allowed := by
  obtain ⟨value, hmem⟩ := lookup_isSome_iff.mp hs
  unfold permitted at h
  rw [Bool.and_eq_true, List.all_eq_true] at h
  exact of_decide_eq_true (h.1 s (List.mem_map_of_mem hmem))

/-- An option among arguments is found in front of the command's name or behind it. -/
theorem Parts.Of.lookup_isSome {parts : Parts} {tokens : List Token} (h : parts.Of tokens)
    {s : Switch} {value : String} (hs : .switch s value ∈ tokens) :
    (parts.before.lookup s).isSome = true ∨ (parts.given.lookup s).isSome = true := by
  have hmem : (s, value) ∈ tokens.filterMap Token.toSwitch? :=
    List.mem_filterMap.mpr ⟨_, hs, rfl⟩
  rw [← h.options, List.mem_append] at hmem
  rw [lookup_isSome_iff, lookup_isSome_iff]
  exact hmem.imp (fun h => ⟨value, h⟩) fun h => ⟨value, h⟩

/-- Only the mode is found in front of the command's name. -/
theorem Parts.Of.given_lookup_isSome {parts : Parts} {tokens : List Token} (h : parts.Of tokens)
    {s : Switch} {value : String} (hs : .switch s value ∈ tokens) (hmode : s ≠ .dayMatch) :
    (parts.given.lookup s).isSome = true := by
  rcases h.lookup_isSome hs with hbefore | hgiven
  · exact absurd (List.mem_singleton.mp (mem_of_permitted h.before hbefore)) hmode
  · exact hgiven

/-- An invocation takes its options for a test from behind the command's name. -/
theorem Parts.options_of_invocation? {parts : Parts} {preset : Option String} {i : Invocation}
    (h : parts.invocation? preset = some i) :
    i.ignoreSecond = (parts.given.lookup .ignoreSecond).isSome ∧
      i.timestamp = parts.given.lookup .timestamp := by
  obtain ⟨outer, -, h⟩ := Option.bind_eq_some_iff.mp h
  obtain ⟨inner, -, h⟩ := Option.bind_eq_some_iff.mp h
  cases h
  exact ⟨rfl, rfl⟩

/-! ### Reading under an environment whose mode can be read -/

section

variable {env : Environment} (henv : env.ModeReadable)
include henv

/-- A mode that can be read without the environment can be read with it, and is the same if the
options give one. -/
theorem exists_dayMatchAt?_of_readable {options : List (Switch × String)} {mode : Option DayMatch}
    (h : dayMatchAt? none options = some mode) :
    ∃ mode', dayMatchAt? (env dayMatchVariable) options = some mode' ∧
      ((options.lookup .dayMatch).isSome = true → mode' = mode ∧ mode.isSome = true) := by
  cases hgiven : options.lookup .dayMatch with
  | some text =>
    unfold dayMatchAt? at h ⊢
    rw [hgiven] at h ⊢
    refine ⟨mode, h, fun _ => ⟨rfl, ?_⟩⟩
    obtain ⟨m, -, rfl⟩ := Option.map_eq_some_iff.mp h
    rfl
  | none =>
    rw [dayMatchAt?_of_lookup_eq_none hgiven]
    cases hvalue : env dayMatchVariable with
    | none => exact ⟨none, rfl, nofun⟩
    | some text =>
      obtain ⟨m, hread⟩ := henv text hvalue
      exact ⟨some m, dayMatchAt?_of_read_eq_ok hread, nofun⟩

/-- Parts that give a mode are the same invocation with the environment and without it. -/
theorem Parts.invocation?_of_readable {parts : Parts} {i : Invocation}
    (h : parts.invocation? none = some i)
    (hmode : (parts.before.lookup .dayMatch).isSome = true ∨
      (parts.given.lookup .dayMatch).isSome = true) :
    parts.invocation? (env dayMatchVariable) = some i ∧ i.dayMatch.isSome = true := by
  obtain ⟨outer, houter, h⟩ := Option.bind_eq_some_iff.mp h
  obtain ⟨inner, hinner, h⟩ := Option.bind_eq_some_iff.mp h
  cases h
  obtain ⟨outer', houter', hsame_outer⟩ := exists_dayMatchAt?_of_readable henv houter
  obtain ⟨inner', hinner', hsame_inner⟩ := exists_dayMatchAt?_of_readable henv hinner
  unfold Parts.invocation?
  rw [houter', hinner']
  dsimp only [Option.bind_eq_bind, Option.bind_some]
  by_cases hbefore : (parts.before.lookup .dayMatch).isSome = true ∧
      (parts.given.lookup .dayMatch).isNone = true
  · obtain ⟨rfl, hsome⟩ := hsame_outer hbefore.1
    simp only [if_pos hbefore]
    exact ⟨rfl, hsome⟩
  · have hgiven : (parts.given.lookup .dayMatch).isSome = true := by
      rcases hmode with hfront | hgiven
      · rw [Option.isSome_iff_ne_none]
        intro hnone
        exact hbefore ⟨hfront, by rw [hnone]; rfl⟩
      · exact hgiven
    obtain ⟨rfl, hsome⟩ := hsame_inner hgiven
    simp only [if_neg hbefore]
    exact ⟨rfl, hsome⟩

end

/-! ### Explicit invocations -/

/-- An invocation that leaves nothing to the settings and the clock. -/
structure Explicit (i : Invocation) : Prop where
  /-- It has a mode. -/
  dayMatch : i.dayMatch.isSome = true
  /-- A moment is tested without its second. -/
  ignoreSecond : i.verb = .test → i.ignoreSecond = true
  /-- The moment to be tested is given. -/
  timestamp : i.verb = .test → i.timestamp.isSome = true

/-- **An explicit invocation is answered alike** under all settings and at all moments. -/
theorem respond_eq_of_explicit {i : Invocation} (h : i.Explicit) (base other : MatchSettings)
    (now later : Timestamp) : i.respond base now = i.respond other later := by
  obtain ⟨mode, hmode⟩ := Option.isSome_iff_exists.mp h.dayMatch
  have hsettings (base : MatchSettings) :
      i.settings base = ⟨mode, base.matchSecond && !i.ignoreSecond⟩ := by
    unfold settings
    rw [hmode]
    rfl
  have hexecute : i.execute base now = i.execute other later := by
    unfold execute
    rw [hsettings base, hsettings other]
    -- only a test looks at anything but the mode
    cases hverb : i.verb with
    | check => rfl
    | explain => rfl
    | test =>
      obtain ⟨text, htext⟩ := Option.isSome_iff_exists.mp (h.timestamp hverb)
      rw [h.ignoreSecond hverb, htext, Bool.not_true, Bool.and_false, Bool.and_false]
      rfl
  unfold respond
  rw [hexecute]

/-- **Arguments that give everything** ask for the same, and explicitly, under every environment
whose mode can be read. -/
theorem read?_of_gives {env : Environment} (henv : env.ModeReadable) {arguments : List String}
    {i : Invocation} (h : read? none arguments = some i) (hmode : Gives arguments .dayMatch)
    (hsecond : i.verb = .test → Gives arguments .ignoreSecond)
    (hmoment : i.verb = .test → Gives arguments .timestamp) :
    read? (env dayMatchVariable) arguments = some i ∧ i.Explicit := by
  obtain ⟨tokens, parts, htokens, hparts, hread⟩ := exists_parts_of_read? h
  have hgiven {s : Switch} (hs : Gives arguments s) : ∃ value, .switch s value ∈ tokens := by
    obtain ⟨others, value, hothers, hmem⟩ := hs
    cases htokens.symm.trans hothers
    exact ⟨value, hmem⟩
  rw [hread] at h ⊢
  obtain ⟨value, hvalue⟩ := hgiven hmode
  obtain ⟨hsame, hsome⟩ := Parts.invocation?_of_readable henv h (hparts.lookup_isSome hvalue)
  obtain ⟨hignore, htimestamp⟩ := Parts.options_of_invocation? h
  refine ⟨hsame, hsome, ?_, ?_⟩
  · intro hverb
    obtain ⟨value, hvalue⟩ := hgiven (hsecond hverb)
    rw [hignore]
    exact hparts.given_lookup_isSome hvalue (by decide)
  · intro hverb
    obtain ⟨value, hvalue⟩ := hgiven (hmoment hverb)
    rw [htimestamp]
    exact hparts.given_lookup_isSome hvalue (by decide)

end Invocation

/-- **Explicit options override the whole environment.** Arguments that give the mode, and for a
test also the moment and that its second does not count, end with the same exit code and the same
output under any two environments in which the plain variable is not set or names a mode. -/
theorem run_eq_of_gives {arguments : List String} {i : Invocation}
    (h : Invocation.read? none arguments = some i) (hmode : Gives arguments .dayMatch)
    (hsecond : i.verb = .test → Gives arguments .ignoreSecond)
    (hmoment : i.verb = .test → Gives arguments .timestamp) {env other : Environment}
    (henv : env.ModeReadable) (hother : other.ModeReadable) (now later : Timestamp) :
    ∃ (exitCode : Nat) (stdout stderr : String),
      run env now arguments = .finished exitCode stdout stderr ∧
        run other later arguments = .finished exitCode stdout stderr := by
  obtain ⟨hread, hexplicit⟩ := Invocation.read?_of_gives henv h hmode hsecond hmoment
  obtain ⟨hread', -⟩ := Invocation.read?_of_gives hother h hmode hsecond hmoment
  have hrun : run other later arguments = run env now arguments := by
    rw [run_eq, run_eq, hread, hread']
    exact Invocation.respond_eq_of_explicit hexplicit _ _ _ _
  rw [hrun]
  cases hresponse : run env now arguments with
  | usageError =>
    rw [run_eq, hread] at hresponse
    exact absurd hresponse (Invocation.respond_ne_usageError _ _ _)
  | finished exitCode stdout stderr => exact ⟨exitCode, stdout, stderr, rfl, rfl⟩

/-- A thirteenth that is no Friday is tested under `either`, some seconds past midnight, next to a
profile that asks for the other mode, and next to a plain variable that does. -/
theorem run_eq_of_gives_on_thirteenth :
    ∃ (arguments : List String) (env other : Environment),
      arguments = ["--day-match", "either", "matches", "--at=2025-05-13T00:00:42Z",
        "--ignore-second", "0 0 13 * fri"] ∧
      env = .ofList [("CRONPAT_PROFILE", "prod"), ("PROD_CRONPAT_DAY_MATCH", "all"),
        ("PROD_CRONPAT_MATCH_SECOND", "true")] ∧
      other = .ofList [("CRONPAT_DAY_MATCH", "And"), ("CRONPAT_MATCH_SECOND", "false")] ∧
      Invocation.read? none arguments = some
        ⟨.test, "0 0 13 * fri", some .either, false, some "2025-05-13T00:00:42Z", true⟩ ∧
      (Gives arguments .dayMatch ∧ Gives arguments .ignoreSecond ∧ Gives arguments .timestamp) ∧
      (env.ModeReadable ∧ other.ModeReadable) ∧
      (∃ (exitCode : Nat) (stdout stderr : String),
        run env .dayZero arguments = .finished exitCode stdout stderr ∧
          run other .dayZero arguments = .finished exitCode stdout stderr) ∧
      run env .dayZero arguments =
        .finished 0 "match: 0 0 13 * fri at 2025-05-13T00:00:42+00:00\n" "" := by
  let arguments := ["--day-match", "either", "matches", "--at=2025-05-13T00:00:42Z",
    "--ignore-second", "0 0 13 * fri"]
  refine ⟨arguments, _, _, rfl, rfl, rfl, ?_⟩
  have hread : Invocation.read? none arguments = some
      ⟨.test, "0 0 13 * fri", some .either, false, some "2025-05-13T00:00:42Z", true⟩ := by
    decide +kernel
  have htokens : Token.readAll? arguments = some
      [.switch .dayMatch "either", .operand "matches", .switch .timestamp "2025-05-13T00:00:42Z",
        .switch .ignoreSecond "", .operand "0 0 13 * fri"] := by
    decide +kernel
  have hmode : Gives arguments .dayMatch := ⟨_, "either", htokens, by simp⟩
  have hsecond : Gives arguments .ignoreSecond := ⟨_, "", htokens, by simp⟩
  have hmoment : Gives arguments .timestamp := ⟨_, "2025-05-13T00:00:42Z", htokens, by simp⟩
  have henv : (Environment.ofList [("CRONPAT_PROFILE", "prod"), ("PROD_CRONPAT_DAY_MATCH", "all"),
      ("PROD_CRONPAT_MATCH_SECOND", "true")]).ModeReadable := by
    intro text htext
    exact nomatch htext
  have hother : (Environment.ofList [("CRONPAT_DAY_MATCH", "And"),
      ("CRONPAT_MATCH_SECOND", "false")]).ModeReadable := by
    intro text htext
    cases htext
    exact ⟨.all, rfl⟩
  refine ⟨hread, ⟨hmode, hsecond, hmoment⟩, ⟨henv, hother⟩, ?_, ?_⟩
  · exact run_eq_of_gives hread hmode (fun _ => hsecond) (fun _ => hmoment) henv hother _ _
  · decide +kernel

end CronSchedule
