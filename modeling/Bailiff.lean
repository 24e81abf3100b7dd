import Bailiff.Json.Reader
import Bailiff.Main
import Bailiff.Process.Launch
import Bailiff.Proofs.CommandLine.RoundTrip
import Bailiff.Proofs.CommandLine.Grammar
import Bailiff.Proofs.Files.Tree
import Bailiff.Proofs.Results.History
import Bailiff.Proofs.Batch.Resume
import Bailiff.Proofs.Batch.Plan
import Bailiff.Proofs.Number.Value
import Bailiff.Rehearsal.Judge
import Bailiff.Rehearsal.Scope
import Bailiff.Rehearsal.Supervisor
import Bailiff.Rehearsal.Waiting
import Bailiff.Proofs.Judge.Timeout
import Bailiff.Proofs.Judge.FirstEvent
import Bailiff.Proofs.Scope.Record
import Bailiff.Proofs.Fleet.Window
import Bailiff.Proofs.Commands.Reports
import Bailiff.Proofs.Files.Path
import Bailiff.Proofs.Fleet.Sweep
import Bailiff.Proofs.Fleet.Supervision
import Bailiff.Proofs.Files.Growth
import Bailiff.Proofs.Fleet.Survivors
import Bailiff.Proofs.Batch.Interrupted
import Bailiff.Proofs.Batch.Shared
import Bailiff.Proofs.Batch.Account
import Bailiff.Proofs.Results.Opening
import Bailiff.Proofs.Text.Order
import Bailiff.Proofs.Files.Ways
import Bailiff.Proofs.Files.Writing
import Bailiff.Proofs.Fleet.Preparation
import Bailiff.Proofs.Fleet.Clearing
import Bailiff.Proofs.Fleet.Stages
import Bailiff.Proofs.Fleet.CleanRoot
import Bailiff.Proofs.Results.Decision
import Bailiff.Proofs.Files.ReadBack
import Bailiff.Proofs.Number.Whole
import Bailiff.Proofs.Fleet.Stocking
import Bailiff.Proofs.Fleet.Marker
import Bailiff.Proofs.Fleet.Starts
import Bailiff.Proofs.Fleet.Wanted
import Bailiff.Proofs.Settings.WorkerCount
import Bailiff.Proofs.Fleet.Crew
import Bailiff.Proofs.CommandLine.Inert
import Bailiff.Proofs.Results.ReadBack
import Bailiff.Proofs.Results.Summaries
import Bailiff.Proofs.Log.Family
import Bailiff.Proofs.Text.Collation
import Bailiff.Proofs.Batch.Order
import Bailiff.Proofs.Text.Blank
import Bailiff.Proofs.Settings.Validation
import Bailiff.Proofs.Number.Nearest
import Bailiff.Proofs.Settings.Integers
import Bailiff.Proofs.Fleet.WholeSweep
import Bailiff.Proofs.Fleet.Draws
import Bailiff.Proofs.Report.Rendering
import Bailiff.Proofs.Settings.Logging
import Bailiff.Proofs.Sessions.Alignment
import Bailiff.Proofs.Files.Listing
