import RowGate.Main
import RowGate.Decimal.Reading
import RowGate.Files.Tree
import RowGate.Proofs.Service.Ledger
import RowGate.Proofs.Service.Refinement
import RowGate.Proofs.Service.Notes
import RowGate.Proofs.Service.Deadline
import RowGate.Proofs.Service.Authentic
import RowGate.Proofs.Service.Course
import RowGate.Proofs.Service.StoreUse
import RowGate.Proofs.Service.Interleaving
import RowGate.Proofs.Service.Linearizable
import RowGate.Proofs.Session.Recall
import RowGate.Proofs.Session.Agreement
import RowGate.Proofs.Service.Opening
import RowGate.Proofs.Files.Append
import RowGate.Proofs.Json.OneLine
import RowGate.Proofs.Log.Interleaved
import RowGate.Proofs.Service.Discretion
import RowGate.Proofs.Service.Screening
import RowGate.Proofs.Settings
import RowGate.Proofs.Envelope
import RowGate.Proofs.Record.Cut
import RowGate.Proofs.Record.Arrangement
import RowGate.Proofs.Command.Tiers
import RowGate.Proofs.Envelope.Layout
import RowGate.Proofs.Service.Lifetime
import RowGate.Proofs.Service.Rendering
import RowGate.Proofs.Cell
import RowGate.Proofs.Rejection
import RowGate.Proofs.Selection
import RowGate.Proofs.Settings.Override
import RowGate.Proofs.Json.Written
import RowGate.Proofs.Json.Integers
import RowGate.Proofs.Settings.Sources
import RowGate.Proofs.Log.Fields
import RowGate.Proofs.Log.Redaction
import RowGate.Proofs.Files.Opening
import RowGate.Proofs.Log.Lines
import RowGate.Proofs.Command.Output
