import SeriesWire.Calendar.Date
import SeriesWire.Calendar.Moment
import SeriesWire.Calendar.Month
import SeriesWire.Calendar.Weekday
import SeriesWire.Command.Arguments
import SeriesWire.Command.File
import SeriesWire.Command.Render
import SeriesWire.Delivery.Call
import SeriesWire.Delivery.Document
import SeriesWire.Delivery.Error
import SeriesWire.Delivery.Session
import SeriesWire.Entry.Context
import SeriesWire.Entry.Encoding
import SeriesWire.Entry.Members
import SeriesWire.Entry.Series
import SeriesWire.Hash.Key
import SeriesWire.Hash.XX64
import SeriesWire.Identity.Lookup
import SeriesWire.Identity.Name
import SeriesWire.Instant.Amount
import SeriesWire.Instant.Call
import SeriesWire.Instant.Grid
import SeriesWire.Instant.Shift
import SeriesWire.Instant.Snap
import SeriesWire.Instant.TimeUnit
import SeriesWire.Instant.Timestamp
import SeriesWire.Json.Call
import SeriesWire.Json.Cursor
import SeriesWire.Json.Decoder
import SeriesWire.Json.Draft
import SeriesWire.Json.Grammar
import SeriesWire.Json.Lexeme
import SeriesWire.Json.Numeral
import SeriesWire.Json.Reader
import SeriesWire.Json.Scalar
import SeriesWire.Json.Token
import SeriesWire.Json.Writer
import SeriesWire.Json.Written
import SeriesWire.Main
import SeriesWire.Number.Binary64
import SeriesWire.Number.DoubleText
import SeriesWire.Number.FixedWidth
import SeriesWire.Number.Padded
import SeriesWire.Number.Shortest
import SeriesWire.Result.Render
import SeriesWire.Result.Resolve
import SeriesWire.Series.Packed
import SeriesWire.Series.Result
import SeriesWire.Series.Value
import SeriesWire.Shard.Shelf
import SeriesWire.Shard.Table
import SeriesWire.SortedMap
import SeriesWire.Stored.Fixture
import SeriesWire.Stored.Identity
import SeriesWire.Stored.Series
import SeriesWire.Stored.Value
import SeriesWire.Proofs.Calendar.CivilTimes
import SeriesWire.Proofs.Calendar.Dates
import SeriesWire.Proofs.Calendar.Months
import SeriesWire.Proofs.Calendar.Reach
import SeriesWire.Proofs.Delivery.Completion
import SeriesWire.Proofs.Delivery.Document
import SeriesWire.Proofs.Delivery.Exclusion
import SeriesWire.Proofs.Delivery.History
import SeriesWire.Proofs.Delivery.Keys
import SeriesWire.Proofs.Delivery.Misuse
import SeriesWire.Proofs.Delivery.Modes
import SeriesWire.Proofs.Delivery.Refusals
import SeriesWire.Proofs.Delivery.Replies
import SeriesWire.Proofs.Delivery.Truncation
import SeriesWire.Proofs.Delivery.WellFormed
import SeriesWire.Proofs.Hash.Framing
import SeriesWire.Proofs.Identity.Separation
import SeriesWire.Proofs.Instant.Boundaries
import SeriesWire.Proofs.Instant.DurationReader
import SeriesWire.Proofs.Instant.GreatestBoundary
import SeriesWire.Proofs.Instant.GridCells
import SeriesWire.Proofs.Instant.GridPoints
import SeriesWire.Proofs.Instant.Iso8601
import SeriesWire.Proofs.Instant.Milliseconds
import SeriesWire.Proofs.Instant.Normalization
import SeriesWire.Proofs.Instant.Order
import SeriesWire.Proofs.Instant.Shift
import SeriesWire.Proofs.Instant.ShiftCalls
import SeriesWire.Proofs.Instant.Snapping
import SeriesWire.Proofs.Json.Likeness
import SeriesWire.Proofs.Json.Misplacement
import SeriesWire.Proofs.Json.Numerals
import SeriesWire.Proofs.Json.OpenText
import SeriesWire.Proofs.Json.Spelling
import SeriesWire.Proofs.Json.Splicing
import SeriesWire.Proofs.Json.Truncation
import SeriesWire.Proofs.Json.WellFormed
import SeriesWire.Proofs.Result.Concatenation
import SeriesWire.Proofs.Result.Resolution
import SeriesWire.Proofs.Result.SourceEntry
import SeriesWire.Proofs.Result.Splitting
import SeriesWire.Proofs.Series.Alignment
import SeriesWire.Proofs.Series.Confinement
import SeriesWire.Proofs.Series.DistinctNames
import SeriesWire.Proofs.Series.EntryBodies
import SeriesWire.Proofs.Series.Frames
import SeriesWire.Proofs.Series.Gathering
import SeriesWire.Proofs.Series.LateValues
import SeriesWire.Proofs.Series.Leading
import SeriesWire.Proofs.Series.NumericKeys
import SeriesWire.Proofs.Series.Packed
import SeriesWire.Proofs.Series.PackedWindow
import SeriesWire.Proofs.Series.RoundTrip
import SeriesWire.Proofs.Series.SummaryRows
import SeriesWire.Proofs.Series.Suppression
import SeriesWire.Proofs.Series.Window
import SeriesWire.Proofs.Shard.Accounting
import SeriesWire.Proofs.Shard.Confluence
import SeriesWire.Proofs.Shard.Cutting
import SeriesWire.Proofs.Shard.Flushing
import SeriesWire.Proofs.Shard.Ledger
import SeriesWire.Proofs.Shard.LedgerTable
import SeriesWire.Proofs.Shard.Origins
import SeriesWire.Proofs.Shard.WholeSeconds
import SeriesWire.Proofs.SortedMap.ByteOrder
import SeriesWire.Proofs.SortedMap.Tabulation
import SeriesWire.Proofs.Success
