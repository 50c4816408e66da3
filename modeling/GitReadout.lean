import GitReadout.Json.Log
import GitReadout.Json.NameStatus
import GitReadout.Json.Settings
import GitReadout.Json.Status
import GitReadout.Proofs.Status.Stream
import GitReadout.Proofs.Text.Blank
import GitReadout.Proofs.Text.Numeral
import GitReadout.Repository.Call
import GitReadout.Repository.Shown
import GitReadout.Proofs.Repository.Deferred
import GitReadout.Proofs.Repository.Course
import GitReadout.Proofs.Repository.Plan
import GitReadout.Proofs.NameStatus.Tolerance
import GitReadout.Proofs.Status.Moved
import GitReadout.Proofs.NameStatus.Cursor
import GitReadout.Proofs.NameStatus.Encoding
import GitReadout.Proofs.Status.Shown
import GitReadout.Proofs.Log.Fields
import GitReadout.Proofs.Status.Summary
import GitReadout.Proofs.Log.Stream
import GitReadout.Proofs.Log.TrailerLine
import GitReadout.Proofs.Status.Conflicts
import GitReadout.Proofs.Log.Date
import GitReadout.Proofs.Log.ZonedTime
import GitReadout.Proofs.Json.Name
import GitReadout.Proofs.Json.Status
import GitReadout.Proofs.Json.Log
import GitReadout.Proofs.Json.Readings
import GitReadout.Proofs.Text.Pieces
import GitReadout.Proofs.RefName
import GitReadout.Proofs.Log.Batch
import GitReadout.Proofs.Status.Walk
import GitReadout.Proofs.Log.Identity
import GitReadout.Proofs.NameStatus.Position
import GitReadout.Proofs.Status.Counts
import GitReadout.Proofs.Log.Decoration
import GitReadout.Proofs.Malformed
import GitReadout.Proofs.Repository.Failures
import GitReadout.Proofs.Status.History
import GitReadout.Proofs.Log.Grouping
import GitReadout.Proofs.Log.Author
import GitReadout.Proofs.Log.CoAuthors
import GitReadout.Proofs.Repository.Operations
import GitReadout.Proofs.ObjectName
import GitReadout.Proofs.Cuts
