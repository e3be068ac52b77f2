import RecordStore.Text.Blank
import RecordStore.Text.Split
import RecordStore.Text.Quoted
import RecordStore.Numeral.Shortest
import RecordStore.Numeral.Decimal
import RecordStore.Json.Number
import RecordStore.Json.Basic
import RecordStore.Json.Printer
import RecordStore.Json.Parser
import RecordStore.Literal
import RecordStore.Token
import RecordStore.Schema
import RecordStore.Entry
import RecordStore.Query
import RecordStore.Query.Printer
import RecordStore.Error
import RecordStore.Token.Lexer
import RecordStore.Query.Parser
import RecordStore.Query.Batch
import RecordStore.Record.Header
import RecordStore.Record.Reader
import RecordStore.FileTree
import RecordStore.CommandLine
import RecordStore.EntryId
import RecordStore.Main
import RecordStore.Proofs.Decimal.RoundTrip
import RecordStore.Proofs.Record.RoundTrip
import RecordStore.Proofs.Table.Simulation
import RecordStore.Proofs.Query.RoundTrip
import RecordStore.Proofs.Query.Accepted
import RecordStore.Proofs.Query.Batch
import RecordStore.Proofs.Store.Quoting
import RecordStore.Proofs.Store.Failure
import RecordStore.Proofs.Store.Separation
import RecordStore.Proofs.Store.Placement
import RecordStore.Proofs.Store.Reopening
import RecordStore.Proofs.Store.Batch
import RecordStore.Proofs.Store.Commuting
import RecordStore.Proofs.Envelope
import RecordStore.Proofs.Store.Handles
import RecordStore.Proofs.Table.Safety
import RecordStore.Proofs.Table.Where
import RecordStore.Proofs.Record.Agreement
import RecordStore.Proofs.Table.Idempotence
import RecordStore.Proofs.Store.Typing
import RecordStore.Proofs.Token.Respelling
import RecordStore.Proofs.Query.BareValues
import RecordStore.Proofs.Record.Verbatim
import RecordStore.Proofs.Table.Rewriting
import RecordStore.Proofs.Query.Literals
import RecordStore.Proofs.Query.Termination
import RecordStore.Proofs.Table.Rows
import RecordStore.Proofs.Store.Opening
import RecordStore.Proofs.CommandLine.Columns
