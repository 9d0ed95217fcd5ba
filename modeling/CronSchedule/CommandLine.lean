import CronSchedule.Command

/-!
# The command line

`check`, `explain` and `matches` each take one expression. Options begin with two dashes and stand
anywhere; the one for the day match mode may stand in front of the command's name as well, and
takes its value from the environment where it is not given. After `--` everything is an operand.
Requests for help (`--help`, `-h` and the command `help`) are left out with their texts: here they
are usage errors.

* `Token.readAll?` — the options and operands of arguments.
* `Invocation.read?` — the command they ask for; nothing for a usage error.
* `run` — what is printed and the exit code.

Main statement: `run` looks at the environment only through the variable of the day match mode and
the settings (`run_congr`).
-/

namespace CronSchedule

/-! ### Options and operands -/

/-- The options. -/
inductive Switch where
  | dayMatch
  | json
  | timestamp
  | ignoreSecond
deriving DecidableEq, Repr

namespace Switch

/-- All options. -/
def all : List Switch := [dayMatch, json, timestamp, ignoreSecond]

/-- The text of an option. -/
def name : Switch → String
  | dayMatch => "--day-match"
  | json => "--json"
  | timestamp => "--at"
  | ignoreSecond => "--ignore-second"

/-- Whether an option has a value. -/
def takesValue : Switch → Bool
  | dayMatch | timestamp => true
  | json | ignoreSecond => false

/-- The option of a text. -/
def ofName? (text : Fragment) : Option Switch := all.find? fun s => s.name.toList = text

end Switch

/-- What one or two arguments say. -/
inductive Token where
  /-- An option, with its value or an empty text. -/
  | switch (name : Switch) (value : String)
  /-- An operand. -/
  | operand (text : String)
  /-- All that follows a pair of dashes. -/
  | operands (texts : List String)
deriving DecidableEq, Repr

namespace Token

/-- Whether an argument is an option and no operand: it begins with a dash and goes on. -/
def isOption (argument : String) : Bool :=
  match argument.toList with
  | '-' :: _ :: _ => true
  | _ => false

/-- An option's text in front of an equals sign, and its value behind it. -/
def splitOption (argument : String) : Fragment × Option String :=
  let text := argument.toList
  (text.takeWhile (· ≠ '='),
    match text.dropWhile (· ≠ '=') with
    | [] => none
    | _ :: value => some (String.ofList value))

/-- The options and operands of arguments; nothing where an option is unknown, lacks its value or
has one too many. -/
def readAll? : List String → Option (List Token)
  | [] => some []
  | argument :: rest =>
    if argument = "--" then some [operands rest]
    else if isOption argument then
      match Switch.ofName? (splitOption argument).1, (splitOption argument).2 with
      | none, _ => none
      | some s, some value =>
        if s.takesValue then (readAll? rest).map (switch s value :: ·) else none
      | some s, none =>
        if s.takesValue then
          match rest with
          | [] => none
          | value :: rest =>
            if isOption value then none else (readAll? rest).map (switch s value :: ·)
        else (readAll? rest).map (switch s "" :: ·)
    else (readAll? rest).map (operand argument :: ·)

/-- The operands of a token. -/
def toOperands : Token → List String
  | switch .. => []
  | operand text => [text]
  | operands texts => texts

/-- The option of a token, with its value. -/
def toSwitch? : Token → Option (Switch × String)
  | switch s value => some (s, value)
  | _ => none

end Token

/-! ### Invocations -/

/-- The commands. -/
inductive Verb where
  | check
  | explain
  | test
deriving DecidableEq, Repr

namespace Verb

/-- The name of a command. -/
def name : Verb → String
  | check => "check"
  | explain => "explain"
  | test => "matches"

/-- The command of a name. -/
def ofName? (text : String) : Option Verb := [check, explain, test].find? fun v => v.name = text

/-- The options of a command. -/
def switches : Verb → List Switch
  | check => [.dayMatch, .json]
  | explain => [.dayMatch]
  | test => [.dayMatch, .timestamp, .ignoreSecond]

end Verb

/-- What the command line asks for. -/
structure Invocation where
  verb : Verb
  expression : String
  /-- The mode that the options or the environment name. -/
  dayMatch : Option DayMatch
  json : Bool
  timestamp : Option String
  ignoreSecond : Bool
deriving DecidableEq, Repr

namespace Invocation

/-- Whether options are all among some, and none of them is repeated. -/
def permitted (allowed : List Switch) (given : List (Switch × String)) : Bool :=
  let names := given.map (·.1)
  names.all (· ∈ allowed) && decide names.Nodup

/-- The mode at one place of the command line, given there or by the environment; nothing where it
cannot be read. -/
def dayMatchAt? (preset : Option String) (given : List (Switch × String)) :
    Option (Option DayMatch) :=
  match (given.lookup .dayMatch).or preset with
  | none => some none
  | some text => (DayMatch.read text.toList).toOption.map some

/-- The command that arguments ask for, `preset` being the value that the environment has for
the mode. The mode behind the command's name wins over one in front of it, and an option over the
environment. -/
def read? (preset : Option String) (arguments : List String) : Option Invocation := do
  let tokens ← Token.readAll? arguments
  let before := (tokens.takeWhile fun t => t.toSwitch?.isSome).filterMap Token.toSwitch?
  match tokens.dropWhile fun t => t.toSwitch?.isSome with
  | .operand name :: rest =>
    let verb ← Verb.ofName? name
    let given := rest.filterMap Token.toSwitch?
    guard (permitted [.dayMatch] before && permitted verb.switches given)
    let outer ← dayMatchAt? preset before
    let inner ← dayMatchAt? preset given
    match rest.flatMap Token.toOperands with
    | [expression] =>
      return {
        verb, expression
        dayMatch := if (before.lookup .dayMatch).isSome ∧ (given.lookup .dayMatch).isNone then outer
          else inner
        json := (given.lookup .json).isSome
        timestamp := given.lookup .timestamp
        ignoreSecond := (given.lookup .ignoreSecond).isSome }
    | _ => none
  | _ => none

/-- The settings of an invocation: its options on top of the environment's. -/
def settings (i : Invocation) (base : MatchSettings) : MatchSettings where
  dayMatch := i.dayMatch.getD base.dayMatch
  matchSecond := base.matchSecond && !i.ignoreSecond

/-- The answer to an invocation at a moment. -/
def execute (i : Invocation) (base : MatchSettings) (now : Timestamp) :
    Except CommandError Outcome :=
  let settings := i.settings base
  match i.verb with
  | .check => .ok (Command.check settings i.expression i.json)
  | .explain => Command.explain settings i.expression
  | .test =>
    Command.testAt settings i.expression
      ((i.timestamp.map Command.readTimestamp).getD (.ok now))

end Invocation

/-! ### Running -/

/-- How a run ends. -/
inductive Response where
  /-- The arguments ask for nothing that can be done. -/
  | usageError
  /-- The command ran. -/
  | finished (exitCode : Nat) (stdout stderr : String)
deriving DecidableEq, Repr

/-- The exit code of a response. -/
def Response.exitCode : Response → Nat
  | usageError => 2
  | finished exitCode .. => exitCode

/-- A text whose lines are moved in behind a margin. -/
def indentLines (margin text : String) : String :=
  margin ++ String.ofList
    (text.toList.flatMap fun c => if c = '\n' then '\n' :: margin.toList else [c])

/-- The text of a failure, its cause below it. -/
def CommandError.report (e : CommandError) : String :=
  let cause := indentLines "    " e.causeMessage
  s!"Error: {e.message}\n\nCaused by:\n{cause}\n"

/-- What a run prints and its exit code, under an environment and at a moment. -/
def run (env : Environment) (now : Timestamp) (arguments : List String) : Response :=
  match Invocation.read? (env dayMatchVariable) arguments with
  | none => .usageError
  | some invocation =>
    match invocation.execute (Settings.fromEnvironment env).matching now with
    | .ok outcome => .finished (if outcome.success then 0 else 1) outcome.output ""
    | .error e => .finished 1 "" e.report

/-- A run looks at the environment only through the mode's variable and the settings. -/
theorem run_congr {env other : Environment} (hmode : env dayMatchVariable = other dayMatchVariable)
    (hsettings : (Settings.fromEnvironment env).matching =
      (Settings.fromEnvironment other).matching) (now : Timestamp) (arguments : List String) :
    run env now arguments = run other now arguments := by
  rw [run, run, hmode, hsettings]

end CronSchedule
