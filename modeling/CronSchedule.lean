import CronSchedule.Text.DashSplit
import CronSchedule.Text.Numeral
import CronSchedule.Schedule
import CronSchedule.Calendar.Instant
import CronSchedule.Calendar.Timestamp
import CronSchedule.Text.LowerCase
import CronSchedule.Text.UpperCase
import CronSchedule.Suggestion
import CronSchedule.Validation
import CronSchedule.Command
import CronSchedule.Main
import CronSchedule.Proofs.Acceptance
import CronSchedule.Proofs.Field.Denotation
import CronSchedule.Proofs.Text.Pieces
import CronSchedule.Proofs.Text.Segments
import CronSchedule.Proofs.Text.Trimming
import CronSchedule.Proofs.Field.Grammar
import CronSchedule.Proofs.Field.Selection
import CronSchedule.Proofs.Schedule.Parsing
import CronSchedule.Proofs.ValueSet.Membership
import CronSchedule.Proofs.Schedule.Firing
import CronSchedule.Proofs.Field.Refusals
import CronSchedule.Proofs.Validation.Agreement
import CronSchedule.Proofs.ValueSet.Listing
import CronSchedule.Proofs.Field.Listing
import CronSchedule.Proofs.Field.Layout
import CronSchedule.Proofs.Field.Literals
import CronSchedule.Proofs.Field.Respelling
import CronSchedule.Proofs.Field.Spacing
import CronSchedule.Proofs.Schedule.Canonical
import CronSchedule.Proofs.ValueSet.Fitting
import CronSchedule.Proofs.Schedule.Fitting
import CronSchedule.Proofs.Calendar.Weekdays
import CronSchedule.Proofs.Validation.Warnings
import CronSchedule.Proofs.Validation.Reachability
import CronSchedule.Proofs.CommandLine.Precedence
import CronSchedule.Proofs.Schedule.Alternatives
import CronSchedule.Proofs.Schedule.DayModes
import CronSchedule.Proofs.Schedule.Composition
import CronSchedule.Proofs.Schedule.Spelling
import CronSchedule.Proofs.CommandLine.Overrides
import CronSchedule.Proofs.Safety.Operations
import CronSchedule.Proofs.Safety.Splitting
import CronSchedule.Proofs.Safety.Reading
import CronSchedule.Proofs.Safety.Compiling
import CronSchedule.Proofs.Safety.Suggesting
import CronSchedule.Proofs.Safety.Schedules
import CronSchedule.Proofs.Validation.Findings
import CronSchedule.Proofs.Schedule.MinuteResolution
import CronSchedule.Proofs.ValueSet.Exactness
import CronSchedule.Proofs.Field.Union
import CronSchedule.Proofs.Field.Aliases
import CronSchedule.Proofs.Field.Shorthands
import CronSchedule.Proofs.Suggestion.Edits
import CronSchedule.Proofs.Suggestion.Nearest
import CronSchedule.Proofs.Validation.Hints
import CronSchedule.Proofs.Calendar.NextDay
import CronSchedule.Proofs.Schedule.LastDay
import CronSchedule.Proofs.Schedule.Replacement
import CronSchedule.Proofs.Schedule.FullRange
import CronSchedule.Proofs.Schedule.Additions
import CronSchedule.Proofs.Text.Casing
import CronSchedule.Proofs.Settings.Lookup
import CronSchedule.Proofs.ValueSet.SmallSets
import CronSchedule.Proofs.Text.SignedSplit
