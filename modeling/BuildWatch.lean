import BuildWatch.Main
import BuildWatch.Proofs.Dispatcher.Delivery
import BuildWatch.Proofs.Dispatcher.Refusal
import BuildWatch.Proofs.Worker.Circuit
import BuildWatch.Proofs.Files.Entries
import BuildWatch.Proofs.Walk.Ledger
import BuildWatch.Proofs.Walk.Visits
import BuildWatch.Proofs.Walk.Found
import BuildWatch.Proofs.Walk.Coverage
import BuildWatch.Proofs.Walk.Succession
import BuildWatch.Proofs.Path.Order
import BuildWatch.Proofs.Watch.Effect
import BuildWatch.Proofs.Watch.Loop
import BuildWatch.Proofs.Watch.Invalidation
import BuildWatch.Proofs.Watch.Agreement
import BuildWatch.Proofs.Display.Broadcast
import BuildWatch.Proofs.Message.Classification
import BuildWatch.Proofs.Roots.Subscribing
import BuildWatch.Proofs.Roots.Upkeep
import BuildWatch.Proofs.Files.Meaning
import BuildWatch.Proofs.Files.Places
import BuildWatch.Proofs.Files.Normal
import BuildWatch.Proofs.Walk.Sources
import BuildWatch.Proofs.Watch.Repetition
import BuildWatch.Proofs.Walk.Naming
import BuildWatch.Proofs.Watch.Visibility
import BuildWatch.Proofs.Settings.Reloading
import BuildWatch.Proofs.Terminal.Console
import BuildWatch.Proofs.Terminal.Blocks
import BuildWatch.Proofs.Session.Hover
import BuildWatch.Proofs.Dispatcher.Draining
import BuildWatch.Proofs.Roots.Difference
import BuildWatch.Proofs.Session.Check
import BuildWatch.Proofs.Location.Shown
import BuildWatch.Proofs.Command.Lines
import BuildWatch.Proofs.Settings.Loading
import BuildWatch.Proofs.Settings.Selecting
import BuildWatch.Proofs.Watch.Quiet
import BuildWatch.Proofs.Settings.Unknown
import BuildWatch.Proofs.Watch.Retrying
import BuildWatch.Proofs.Settings.Searching
import BuildWatch.Proofs.Walk.Counting
