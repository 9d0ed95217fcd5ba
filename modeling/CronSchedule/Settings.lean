import CronSchedule.DayMatch
import CronSchedule.Text.UpperCase

/-!
# Settings from the environment

Three settings are read from environment variables. A profile, named by a variable of its own or by
the caller, puts its name in upper case in front of a variable; such a variable is looked at before
the plain one. An empty value counts as none, and a value that cannot be read gives the default.

* `Environment` — the values of variables.
* `Environment.profiled?` — the value of a variable under a profile.
* `Settings.forProfile`, `Settings.fromEnvironment` — the settings.
* `Settings.consulted` — the names of the variables that are looked at under a profile.
-/

namespace CronSchedule

/-- The values of the variables that are set. -/
abbrev Environment := String → Option String

namespace Environment

/-- The value of a variable, if it is set and not empty. -/
def nonEmpty? (env : Environment) (key : String) : Option String :=
  (env key).filter fun value => value ≠ ""

/-- The variable of a profile. -/
def profileKey (profile key : String) : String := profile ++ "_" ++ key

/-- The value of a variable under a profile: the profile's own, else the plain one. -/
def profiled? (env : Environment) (profile key : String) : Option String :=
  if profile = "" then env.nonEmpty? key
  else (env.nonEmpty? (profileKey profile key)).or (env.nonEmpty? key)

end Environment

/-! ### The settings -/

/-- The variable that names the profile. -/
def profileVariable : String := "CRONPAT_PROFILE"

/-- The variable of the way day fields combine. -/
def dayMatchVariable : String := "CRONPAT_DAY_MATCH"

/-- The variable that says whether the second counts. -/
def matchSecondVariable : String := "CRONPAT_MATCH_SECOND"

/-- The variable of the filter of log lines. -/
def logVariable : String := "CRONPAT_LOG"

/-- How instants are held against a schedule. -/
structure MatchSettings where
  dayMatch : DayMatch
  matchSecond : Bool
deriving DecidableEq, Repr

/-- Which log lines are kept. -/
structure LogSettings where
  filter : String
deriving DecidableEq, Repr

/-- All settings, with the profile they were read under. -/
structure Settings where
  profile : String
  matching : MatchSettings
  log : LogSettings
deriving DecidableEq, Repr

/-- The name of a profile in upper case. -/
def upperProfile (profile : String) : String := String.ofList (upperCase profile.toList)

/-- The truth value a text names. -/
def readBool? (text : String) : Option Bool :=
  if text = "true" then some true else if text = "false" then some false else none

namespace MatchSettings

/-- The settings under a profile in upper case; both fields must match and the second counts, where
nothing else is said. -/
def underProfile (env : Environment) (profile : String) : MatchSettings where
  dayMatch :=
    ((env.profiled? profile dayMatchVariable).bind fun raw =>
      (DayMatch.read raw.toList).toOption).getD .all
  matchSecond := ((env.profiled? profile matchSecondVariable).bind readBool?).getD true

end MatchSettings

namespace LogSettings

/-- The settings under a profile in upper case: warnings, where nothing else is said. -/
def underProfile (env : Environment) (profile : String) : LogSettings where
  filter := (env.profiled? profile logVariable).getD "warn"

/-- The settings under a profile. -/
def forProfile (env : Environment) (profile : String) : LogSettings :=
  underProfile env (upperProfile profile)

end LogSettings

namespace Settings

/-- The settings under a profile. -/
def forProfile (env : Environment) (profile : String) : Settings :=
  let profile := upperProfile profile
  ⟨profile, .underProfile env profile, .underProfile env profile⟩

/-- The profile that the environment names, in upper case. -/
def activeProfile (env : Environment) : String :=
  upperProfile ((env profileVariable).getD "")

/-- The settings under the profile that the environment names. -/
def fromEnvironment (env : Environment) : Settings :=
  forProfile env (activeProfile env)

/-- The name shown for a profile. -/
def profileLabel (s : Settings) : String := if s.profile = "" then "default" else s.profile

/-- The variables that hold settings. -/
def keys : List String := [dayMatchVariable, matchSecondVariable, logVariable]

/-- The variables that are looked at under a profile in upper case. -/
def consulted (profile : String) : List String :=
  keys ++ keys.map (Environment.profileKey profile)

end Settings

end CronSchedule
