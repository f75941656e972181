import Conductor.Json.Reader
import Conductor.Template.Codec
import Conductor.Report
import Conductor.Machine.Supervision
import Conductor.Config.Store
import Conductor.Text.Columns
import Conductor.CommandLine.Answer
import Conductor.Main
import Conductor.Proofs.Action.Every
import Conductor.Proofs.Launch.Effect
import Conductor.Proofs.Handler.Registry
import Conductor.Proofs.Launch.Frame
import Conductor.Proofs.Launch.Move
import Conductor.Proofs.Launch.Loop
import Conductor.Proofs.Launch.Life
import Conductor.Proofs.Launch.Bookkeeping
import Conductor.Proofs.Launch.Follow
import Conductor.Proofs.Launch.Chronicle
import Conductor.Proofs.Launch.Finish
import Conductor.Proofs.Launch.OnExit
import Conductor.Proofs.Launch.Shutdown
import Conductor.Proofs.Launch.Ending
import Conductor.Proofs.Launch.Queue
import Conductor.Proofs.Launch.Turn
import Conductor.Proofs.Journal
import Conductor.Proofs.Launch.Ledger
import Conductor.Proofs.Launch.Timing
import Conductor.Proofs.Launch.Completion
import Conductor.Proofs.Launch.Containment
import Conductor.Proofs.Scope
import Conductor.Proofs.Launch.Isolation
import Conductor.Proofs.Launch.Rescope
import Conductor.Proofs.Launch.Flattening
import Conductor.Proofs.Launch.Course
import Conductor.Proofs.Launch.Origin
import Conductor.Proofs.Launch.Recall
import Conductor.Proofs.Launch.Stretch
import Conductor.Proofs.Launch.Custody
import Conductor.Proofs.Launch.FailFast
import Conductor.Proofs.Launch.Refusal
import Conductor.Proofs.Launch.Succession
import Conductor.Proofs.Launch.Lifecycle
import Conductor.Proofs.Launch.Accounts
import Conductor.Proofs.Launch.Errors
import Conductor.Proofs.Launch.Writes
import Conductor.Proofs.Launch.Handles
import Conductor.Proofs.Launch.Tale
import Conductor.Proofs.Launch.Telling
import Conductor.Proofs.Launch.Output
import Conductor.Proofs.Recounting
import Conductor.Proofs.Handler.Dealings
import Conductor.Proofs.Environment
import Conductor.Proofs.Launch.Halves
import Conductor.Proofs.Launch.FirstValue
import Conductor.Proofs.Arguments
import Conductor.Proofs.Duration
import Conductor.Proofs.Launch.Forcing
import Conductor.Proofs.Launch.Grace
import Conductor.Proofs.Launch.Declarations
import Conductor.Proofs.Launch.Entries
import Conductor.Proofs.Launch.Failing
import Conductor.Proofs.Launch.Known
import Conductor.Proofs.Launch.SideBySide
import Conductor.Proofs.Launch.Insertion
import Conductor.Proofs.Launch.Skipping
import Conductor.Proofs.Template.Written
import Conductor.Proofs.Template.Resolution
import Conductor.Proofs.Condition.Inquiry
import Conductor.Proofs.Condition.Failure
import Conductor.Proofs.Condition.Mentions
import Conductor.Proofs.Condition.Laws
import Conductor.Proofs.LaunchArguments
import Conductor.Proofs.LaunchArguments.Repetition
import Conductor.Proofs.Handler.Roster
import Conductor.Proofs.Context.Guard
import Conductor.Proofs.Machine.Executable
import Conductor.Proofs.Json.Forms
import Conductor.Proofs.Text.Columns
import Conductor.Proofs.Config.Reload
