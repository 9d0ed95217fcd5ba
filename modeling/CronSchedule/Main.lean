import CronSchedule.CommandLine
import Std.Time.DateTime.Timestamp

/-!
# The program

Reads the environment, the clock and the arguments, and prints what `CronSchedule.run` answers.
-/

namespace CronSchedule

/-- The clock's reading, in UTC. -/
def currentTimestamp : IO Timestamp := do
  let now ← Std.Time.Timestamp.now
  let nanoseconds := now.toNanosecondsSinceUnixEpoch.val
  let epoch := Instant.ofSecondNumber (719468 * 86400)
  return {
    instant := epoch.addSeconds (nanoseconds / 1000000000)
    leapSecond := false
    nanosecond := (nanoseconds % 1000000000).toNat
    offset := 0 }

/-- The variables that a run looks at. -/
def readEnvironment : IO Environment := do
  let profile := upperProfile ((← IO.getEnv profileVariable).getD "")
  let keys := profileVariable :: Settings.consulted profile
  let values ← keys.mapM fun key => return (key, ← IO.getEnv key)
  return fun key => (values.lookup key).join

end CronSchedule

open CronSchedule in
/-- Runs one command and ends with its exit code. -/
def main (arguments : List String) : IO UInt32 := do
  let response := run (← readEnvironment) (← currentTimestamp) arguments
  match response with
  | .usageError => IO.eprintln "usage: check | explain | matches, with one expression"
  | .finished _ stdout stderr =>
    IO.print stdout
    IO.eprint stderr
  return UInt32.ofNat response.exitCode
