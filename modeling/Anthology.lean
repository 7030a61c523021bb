import Anthology.Bus
import Anthology.Duration
import Anthology.Event
import Anthology.Fault
import Anthology.Json
import Anthology.Logging
import Anthology.Logging.Filter
import Anthology.Logging.Pattern
import Anthology.Page
import Anthology.Record.Collection
import Anthology.Record.Slot
import Anthology.Record.Work
import Anthology.Session.Answer
import Anthology.Session.Basic
import Anthology.Session.Display
import Anthology.Session.Request
import Anthology.Settings.Address
import Anthology.Settings.Core
import Anthology.Settings.Maintainer
import Anthology.Settings.Pool
import Anthology.Store.Basic
import Anthology.Store.Collections
import Anthology.Store.Compose
import Anthology.Store.Containment
import Anthology.Store.Count
import Anthology.Store.Sequence
import Anthology.Store.Subtree
import Anthology.Store.Works
import Anthology.Table
import Anthology.Text.Blank
import Anthology.Text.Letters
import Anthology.Text.Lines
import Anthology.Text.Utf8
import Anthology.Uncollected.Cleanup
import Anthology.Uncollected.Refresh
import Anthology.Upkeep.Routine
import Anthology.Upkeep.Timeline
import Anthology.Walk
import Anthology.Word
import Anthology.Proofs.Containment
import Anthology.Proofs.Writes
import Anthology.Proofs.Below
import Anthology.Proofs.Recount
import Anthology.Proofs.Steps
import Anthology.Proofs.Operation
import Anthology.Proofs.Ways
import Anthology.Proofs.Counted
import Anthology.Proofs.Session
import Anthology.Proofs.Order
import Anthology.Proofs.Refresh
import Anthology.Proofs.Links
import Anthology.Proofs.References
import Anthology.Proofs.Progress
import Anthology.Proofs.Settled
import Anthology.Proofs.Transaction
import Anthology.Proofs.Interruption
import Anthology.Proofs.Atomic
import Anthology.Proofs.Verdict
import Anthology.Proofs.Independence
import Anthology.Proofs.Upkeep
import Anthology.Proofs.Batch
import Anthology.Proofs.Worker
import Anthology.Proofs.Completeness
import Anthology.Proofs.Fates
import Anthology.Proofs.DryRun
import Anthology.Proofs.Cleanup
import Anthology.Proofs.Kinds
import Anthology.Proofs.Renumber
import Anthology.Proofs.Returned
import Anthology.Proofs.Reorder
import Anthology.Proofs.Transplant
import Anthology.Proofs.Shift
import Anthology.Proofs.Tally
import Anthology.Proofs.Growth
import Anthology.Proofs.Repair
import Anthology.Proofs.Levels
import Anthology.Proofs.Descent
import Anthology.Proofs.Duality
import Anthology.Proofs.Ascent
import Anthology.Proofs.Stepwise
import Anthology.Proofs.Composition
import Anthology.Proofs.Deletion
import Anthology.Proofs.Repetition
import Anthology.Proofs.Announcements
import Anthology.Proofs.Bytes
import Anthology.Proofs.Totals
import Anthology.Proofs.Pages
import Anthology.Proofs.Paratext
import Anthology.Proofs.Settings
import Anthology.Proofs.Backoff
import Anthology.Proofs.Streams
import Anthology.Proofs.Delivery
import Anthology.Proofs.Rewording
import Anthology.Proofs.WireFormat
