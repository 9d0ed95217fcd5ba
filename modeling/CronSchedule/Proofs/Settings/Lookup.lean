import CronSchedule.Proofs.CommandLine.Precedence
import CronSchedule.Proofs.Text.Casing

/-!
# Where a setting comes from

A setting has one or two variables: under a profile, one that begins with the profile's name, and
then the plain one. The first of them that is not blank is chosen, and only then is its value read;
a value that cannot be read does not make way for the next variable, but for the default.

* `Environment.places profile key` — the variables of a setting under a profile, in order.
* `Environment.Chooses env names value` — the value of the first variable that is not blank.
* `Environment.Setting env names read default x` — what a setting comes to.
* `Settings.ReadUnder env profile s` — all settings under a profile.

Main statement: **the settings of a profile are those of the chosen values**, and depend on no other
variable; the settings of the environment are those of the profile that it names
(`Settings.forProfile_readUnder`).
-/

namespace CronSchedule

namespace Environment

variable {env other : Environment}

/-! ### The chosen value -/

/-- A variable is not set, or empty. -/
def Blank (env : Environment) (name : String) : Prop := env name = none ∨ env name = some ""

/-- The variables of a setting under a profile in upper case, in the order they are looked at. -/
def places (profile key : String) : List String :=
  if profile = "" then [key] else [profileKey profile key, key]

/-- A value is that of the first of some variables that is not blank. -/
def Chooses (env : Environment) (names : List String) (value : String) : Prop :=
  ∃ (before : List String) (name : String) (after : List String),
    names = before ++ name :: after ∧ (∀ earlier ∈ before, env.Blank earlier) ∧
      env name = some value ∧ value ≠ ""

/-- A blank variable has no value that counts. -/
theorem nonEmpty?_eq_none_iff {name : String} : env.nonEmpty? name = none ↔ env.Blank name := by
  unfold nonEmpty? Blank
  rw [Option.filter_eq_none_iff]
  cases env name with
  | none => simp
  | some value => simp

/-- Any other has the value it is set to. -/
theorem nonEmpty?_eq_some_iff {name value : String} :
    env.nonEmpty? name = some value ↔ env name = some value ∧ value ≠ "" := by
  unfold nonEmpty?
  rw [Option.filter_eq_some_iff, decide_eq_true_iff]

/-- The lookup goes through the places of a setting. -/
theorem profiled?_eq_findSome? (profile key : String) :
    env.profiled? profile key = (places profile key).findSome? env.nonEmpty? := by
  unfold profiled? places
  split
  · rw [List.findSome?_singleton]
  · rw [List.findSome?_cons, List.findSome?_singleton]
    cases env.nonEmpty? (profileKey profile key) with
    | none => rfl
    | some value => rfl

/-- The lookup finds the chosen value. -/
theorem findSome?_eq_some_iff_chooses {names : List String} {value : String} :
    names.findSome? env.nonEmpty? = some value ↔ env.Chooses names value := by
  rw [List.findSome?_eq_some_iff]
  simp only [Chooses, nonEmpty?_eq_some_iff, nonEmpty?_eq_none_iff]
  grind

/-- Nothing is found where all variables are blank. -/
theorem findSome?_eq_none_iff_blank {names : List String} :
    names.findSome? env.nonEmpty? = none ↔ ∀ name ∈ names, env.Blank name := by
  rw [List.findSome?_eq_none_iff]
  exact forall₂_congr fun _ _ => nonEmpty?_eq_none_iff

/-- Environments that agree on the places of a setting have the same value for it. -/
theorem profiled?_congr {profile key : String}
    (h : ∀ name ∈ places profile key, other name = env name) :
    other.profiled? profile key = env.profiled? profile key := by
  unfold places at h
  unfold profiled? nonEmpty?
  split
  · next hprofile =>
    rw [if_pos hprofile, List.forall_mem_singleton] at h
    rw [h]
  · next hprofile =>
    rw [if_neg hprofile, List.forall_mem_cons, List.forall_mem_singleton] at h
    rw [h.1, h.2]

/-! ### What a setting comes to -/

section

variable {α : Type}

/-- A setting is what its chosen value reads as. A chosen value that cannot be read gives the
default, and so does an environment in which all its variables are blank. -/
inductive Setting (env : Environment) (names : List String) (read : String → Option α)
    (default : α) : α → Prop
  | read {value : String} {x : α} (hvalue : env.Chooses names value) (hread : read value = some x) :
      Setting env names read default x
  | unreadable {value : String} (hvalue : env.Chooses names value) (hread : read value = none) :
      Setting env names read default default
  | blank (hblank : ∀ name ∈ names, env.Blank name) : Setting env names read default default

variable {read : String → Option α} {default : α}

/-- What a setting comes to is looked up, read and, where that fails, the default. -/
theorem setting_iff {profile key : String} {x : α} :
    env.Setting (places profile key) read default x ↔
      x = ((env.profiled? profile key).bind read).getD default := by
  rw [profiled?_eq_findSome?]
  constructor
  · intro h
    cases h with
    | read hvalue hread =>
      rw [findSome?_eq_some_iff_chooses.mpr hvalue, Option.bind_some, hread, Option.getD_some]
    | unreadable hvalue hread =>
      rw [findSome?_eq_some_iff_chooses.mpr hvalue, Option.bind_some, hread, Option.getD_none]
    | blank hblank =>
      rw [findSome?_eq_none_iff_blank.mpr hblank, Option.bind_none, Option.getD_none]
  · rintro rfl
    cases hfound : (places profile key).findSome? env.nonEmpty? with
    | none => exact .blank (findSome?_eq_none_iff_blank.mp hfound)
    | some value =>
      have hvalue := findSome?_eq_some_iff_chooses.mp hfound
      cases hread : read value with
      | none =>
        rw [Option.bind_some, hread]
        exact .unreadable hvalue hread
      | some x =>
        rw [Option.bind_some, hread]
        exact .read hvalue hread

end

end Environment

/-! ### All settings -/

namespace Settings

open Environment

/-- The variables of all settings under a profile in upper case. -/
def allPlaces (profile : String) : List String := keys.flatMap (places profile)

/-- All settings as the variables of a profile in upper case have them. -/
structure ReadUnder (env : Environment) (name : String) (s : Settings) : Prop where
  /-- The name is kept. -/
  profile : s.profile = name
  /-- A mode is read with blanks around it, in any case. -/
  dayMatch : env.Setting (places name dayMatchVariable)
    (fun raw => (DayMatch.read raw.toList).toOption) .all s.matching.dayMatch
  /-- A truth value is read as it stands. -/
  matchSecond : env.Setting (places name matchSecondVariable) readBool? true
    s.matching.matchSecond
  /-- A filter is not read at all. -/
  log : env.Setting (places name logVariable) some "warn" s.log.filter

/-- A profile has one reading. -/
theorem readUnder_iff {env : Environment} {profile : String} {s : Settings} :
    ReadUnder env (upperProfile profile) s ↔ s = forProfile env profile := by
  have hlog : ((env.profiled? (upperProfile profile) logVariable).bind some).getD "warn" =
      (LogSettings.underProfile env (upperProfile profile)).filter := by
    rw [Option.bind_fun_some]
    rfl
  constructor
  · rintro ⟨hprofile, hday, hsecond, hfilter⟩
    obtain ⟨_, ⟨_, _⟩, ⟨_⟩⟩ := s
    dsimp only at hprofile hday hsecond hfilter
    rw [setting_iff] at hday hsecond hfilter
    rw [hprofile, hday, hsecond, hfilter, hlog]
    rfl
  · rintro rfl
    exact ⟨rfl, setting_iff.mpr rfl, setting_iff.mpr rfl, setting_iff.mpr hlog.symm⟩

/-- Environments that agree on the variables of a profile have the same settings under it. -/
theorem forProfile_congr {env other : Environment} {profile : String}
    (h : ∀ name ∈ allPlaces (upperProfile profile), other name = env name) :
    forProfile other profile = forProfile env profile := by
  have hkey {key : String} (hkey : key ∈ keys) :
      other.profiled? (upperProfile profile) key = env.profiled? (upperProfile profile) key :=
    profiled?_congr fun name hname => h name (List.mem_flatMap.mpr ⟨key, hkey, hname⟩)
  unfold forProfile MatchSettings.underProfile LogSettings.underProfile
  dsimp only
  rw [hkey (by decide), hkey (by decide), hkey (by decide)]

/-- The settings of an environment are those of the profile that it names. -/
theorem fromEnvironment_eq (env : Environment) :
    fromEnvironment env = forProfile env ((env profileVariable).getD "") := by
  unfold fromEnvironment activeProfile forProfile
  rw [upperProfile_upperProfile]

/-- **The settings of a profile** are those of the values its variables choose; the settings of the
log alone are the same, and the settings of the environment are those of the profile that it names.
No variable but the seven at most that are looked at makes a difference. -/
theorem forProfile_readUnder (env : Environment) (profile : String) :
    (∀ s, ReadUnder env (upperProfile profile) s ↔ s = forProfile env profile) ∧
      LogSettings.forProfile env profile = (forProfile env profile).log ∧
      fromEnvironment env = forProfile env ((env profileVariable).getD "") ∧
      (∀ other : Environment,
        (∀ name ∈ allPlaces (upperProfile profile), other name = env name) →
          forProfile other profile = forProfile env profile) ∧
      (∀ other : Environment,
        (∀ name ∈ profileVariable :: allPlaces (activeProfile env), other name = env name) →
          fromEnvironment other = fromEnvironment env) ∧
      ∀ profile, (profileVariable :: allPlaces profile).length ≤ 7 := by
  refine ⟨fun s => readUnder_iff, rfl, fromEnvironment_eq env, fun other => forProfile_congr, ?_,
    ?_⟩
  · intro other h
    obtain ⟨hprofile, hvariables⟩ := List.forall_mem_cons.mp h
    rw [fromEnvironment_eq, fromEnvironment_eq, hprofile]
    exact forProfile_congr hvariables
  · intro profile
    unfold allPlaces places
    split
    · simp [keys]
    · simp [keys]

/-- Values of a profile that can be read, cannot be read and are empty: the mode is the profile's,
the second counts as if nothing were said, and the filter is the plain one. A further variable
changes nothing. -/
theorem forProfile_readUnder_prod :
    let env := Environment.ofList
      [("CRONPAT_PROFILE", "prod"), ("PROD_CRONPAT_DAY_MATCH", " Either "),
        ("CRONPAT_DAY_MATCH", "all"), ("PROD_CRONPAT_MATCH_SECOND", "no"),
        ("CRONPAT_MATCH_SECOND", "false"), ("PROD_CRONPAT_LOG", ""), ("CRONPAT_LOG", "info")]
    let other : Environment := fun name => if name = "CRONPAT" then some "all" else env name
    fromEnvironment other = ⟨"PROD", ⟨.either, true⟩, ⟨"info"⟩⟩ := by
  intro env other
  obtain ⟨hread, -, henvironment, -, hother, -⟩ := forProfile_readUnder env "prod"
  have hagree : ∀ name ∈ profileVariable :: allPlaces (activeProfile env),
      other name = env name := by
    decide +kernel
  have hupper : upperProfile "prod" = "PROD" := by decide +kernel
  have hmode : env.Chooses (places "PROD" dayMatchVariable) " Either " :=
    ⟨[], "PROD_CRONPAT_DAY_MATCH", ["CRONPAT_DAY_MATCH"], rfl, nofun, rfl, by decide⟩
  have hsecond : env.Chooses (places "PROD" matchSecondVariable) "no" :=
    ⟨[], "PROD_CRONPAT_MATCH_SECOND", ["CRONPAT_MATCH_SECOND"], rfl, nofun, rfl, by decide⟩
  have hfilter : env.Chooses (places "PROD" logVariable) "info" :=
    ⟨["PROD_CRONPAT_LOG"], "CRONPAT_LOG", [], rfl, List.forall_mem_singleton.mpr (.inr rfl), rfl,
      by decide⟩
  rw [hother other hagree, henvironment]
  refine ((hread _).mp ?_).symm
  rw [hupper]
  exact ⟨rfl, .read hmode (by decide), .unreadable hsecond (by decide), .read hfilter rfl⟩

end Settings

end CronSchedule
