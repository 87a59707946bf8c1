import Agenda.Host.Memory
import Agenda.Main
import Agenda.Program.Run
import Agenda.Selection
import Agenda.Store.Action
import Agenda.Store.Document
import Agenda.Store.InPlace
import Agenda.Store.Lookup
import Agenda.Proofs.Order.Compare
import Agenda.Proofs.Order.Renumber
import Agenda.Proofs.Order.Room
import Agenda.Proofs.Order.Placement
import Agenda.Proofs.Order.Rearranged
import Agenda.Proofs.View
import Agenda.Proofs.Search.Grammar
import Agenda.Proofs.Search.Matching
import Agenda.Proofs.Search.Alternatives
import Agenda.Proofs.Search.Query
import Agenda.Proofs.Store.Operation
import Agenda.Proofs.Store.Storage
import Agenda.Proofs.Store.Step
import Agenda.Proofs.Store.Separation
import Agenda.Proofs.Store.Sequence
import Agenda.Proofs.Store.Integrity
import Agenda.Proofs.Store.FilteredMove
import Agenda.Proofs.Order.Range
import Agenda.Proofs.Store.Range
import Agenda.Proofs.Search.Stability
import Agenda.Proofs.Search.Conditions
import Agenda.Proofs.Search.Juxtaposition
import Agenda.Proofs.Text.LowerCase
import Agenda.Proofs.Search.Rendering
import Agenda.Proofs.Search.Lossless
import Agenda.Proofs.Search.Spelling
import Agenda.Proofs.Text.Digits
import Agenda.Proofs.Json.Scanner
import Agenda.Proofs.Json.Reader
import Agenda.Proofs.Timestamp
import Agenda.Proofs.Store.Document
import Agenda.Proofs.Files.Tree
import Agenda.Proofs.Host.Memory
import Agenda.Proofs.Store.File
import Agenda.Proofs.Program.Action
import Agenda.Proofs.Program.Session
import Agenda.Proofs.Order.Landing
import Agenda.Proofs.Store.InPlace
import Agenda.Proofs.Store.Refusal
import Agenda.Proofs.Store.StorageOrder
import Agenda.Proofs.Order.Reckoning
import Agenda.Proofs.Search.Shape
import Agenda.Proofs.Search.ShapedQuery
import Agenda.Proofs.Files.Frame
import Agenda.Proofs.Files.Place
import Agenda.Proofs.Files.Way
import Agenda.Proofs.Host.Unsteady
import Agenda.Proofs.Store.Saving
import Agenda.Proofs.Store.ItemLookup
import Agenda.Proofs.Order.Clearance
import Agenda.Proofs.Order.Halving
import Agenda.Proofs.Text.FinalSigma
import Agenda.Proofs.Search.Literal
import Agenda.Proofs.Program.Batch
import Agenda.Proofs.Store.Appending
import Agenda.Proofs.Text.EditDistance
import Agenda.Proofs.Store.ListLookup
import Agenda.Proofs.Toml.Text
import Agenda.Proofs.Toml.Number
import Agenda.Proofs.Toml.Value
import Agenda.Proofs.Toml.Reader
import Agenda.Proofs.Settings.Document
import Agenda.Proofs.Settings.Assign
import Agenda.Proofs.Program.Assignments
import Agenda.Proofs.Order.Pass
import Agenda.Proofs.Report.Colors
import Agenda.Proofs.Json.Document
import Agenda.Proofs.Json.Settled
import Agenda.Proofs.Json.Skipping
import Agenda.Proofs.Json.Meaning
import Agenda.Proofs.Json.Record
import Agenda.Proofs.Json.Revision
import Agenda.Proofs.Json.Lexeme
import Agenda.Proofs.Json.Acceptance
import Agenda.Proofs.Store.Meaning
import Agenda.Proofs.Store.Versions
