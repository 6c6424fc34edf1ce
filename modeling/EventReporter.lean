import EventReporter.Ambient
import EventReporter.Buffer
import EventReporter.Buffer.History
import EventReporter.Buffer.Storage
import EventReporter.Cursor
import EventReporter.Decimal
import EventReporter.Draft
import EventReporter.ElementType
import EventReporter.EventType
import EventReporter.Foreign
import EventReporter.Guarded
import EventReporter.Guarded.Record
import EventReporter.Header
import EventReporter.Journal
import EventReporter.Journal.Filter
import EventReporter.Journal.Line
import EventReporter.Library
import EventReporter.Limiter
import EventReporter.Limiter.History
import EventReporter.Limiter.RecencyMap
import EventReporter.Limiter.RecencyMap.History
import EventReporter.LittleEndian
import EventReporter.Outbox
import EventReporter.Outbox.History
import EventReporter.Param
import EventReporter.Pattern
import EventReporter.Pattern.Atom
import EventReporter.Pattern.CharSet
import EventReporter.Proofs.Ambient
import EventReporter.Proofs.Buffer
import EventReporter.Proofs.Buffer.History
import EventReporter.Proofs.Buffer.Storage
import EventReporter.Proofs.Draft.Latest
import EventReporter.Proofs.Draft.Loss
import EventReporter.Proofs.Draft.Tidy
import EventReporter.Proofs.Draft.Whole
import EventReporter.Proofs.Foreign.Convert
import EventReporter.Proofs.Foreign.Write
import EventReporter.Proofs.Guarded.Follows
import EventReporter.Proofs.Guarded.Record
import EventReporter.Proofs.Header
import EventReporter.Proofs.Header.Reread
import EventReporter.Proofs.Limiter.CallSite
import EventReporter.Proofs.Limiter.Guarantee
import EventReporter.Proofs.Limiter.Independence
import EventReporter.Proofs.Limiter.Latest
import EventReporter.Proofs.Limiter.Recency
import EventReporter.Proofs.Limiter.Spans
import EventReporter.Proofs.Limiter.Thresholds
import EventReporter.Proofs.Outbox
import EventReporter.Proofs.Outbox.Queue
import EventReporter.Proofs.Param
import EventReporter.Proofs.Param.Context
import EventReporter.Proofs.Param.Partial
import EventReporter.Proofs.Param.Truncated
import EventReporter.Proofs.Reading
import EventReporter.Proofs.Reading.Local
import EventReporter.Proofs.Record.Extent
import EventReporter.Proofs.Record.Latest
import EventReporter.Proofs.Record.Layout
import EventReporter.Proofs.Record.Outgrown
import EventReporter.Proofs.Record.Peek
import EventReporter.Proofs.Record.Room
import EventReporter.Proofs.Record.RoundTrip
import EventReporter.Proofs.Record.Workbench
import EventReporter.Proofs.Route
import EventReporter.Proofs.Settings.Masks
import EventReporter.Proofs.Text.Cut
import EventReporter.Proofs.Text.Quotable
import EventReporter.Proofs.Text.Sequence
import EventReporter.Proofs.Text.Sparing
import EventReporter.Proofs.Text.Trim
import EventReporter.Proofs.Text.Utf8
import EventReporter.Proofs.Transport.Arrival
import EventReporter.Proofs.Transport.Attempt
import EventReporter.Proofs.Transport.Cause
import EventReporter.Proofs.Transport.Conservation
import EventReporter.Proofs.Transport.Occurrence
import EventReporter.Proofs.Transport.Order
import EventReporter.Proofs.Transport.Retry
import EventReporter.Proofs.Transport.Step
import EventReporter.Proofs.Value.Access
import EventReporter.Proofs.Value.Cut
import EventReporter.Proofs.Varint
import EventReporter.Proofs.Varint.Context
import EventReporter.Proofs.Varint.Ending
import EventReporter.Proofs.Writer.Delivery
import EventReporter.Proofs.Writer.Record
import EventReporter.Proofs.Writer.Room
import EventReporter.Proofs.Writer.Status
import EventReporter.Proofs.Writer.Step
import EventReporter.Record
import EventReporter.Record.Builder
import EventReporter.Record.History
import EventReporter.Record.Workbench
import EventReporter.Route
import EventReporter.Settings
import EventReporter.Settings.Load
import EventReporter.Socket.Collectors
import EventReporter.Socket.Network
import EventReporter.Status
import EventReporter.Text
import EventReporter.Text.Alphanumeric
import EventReporter.Text.Cut
import EventReporter.Text.Escape
import EventReporter.Text.Sparing
import EventReporter.Toml.Document
import EventReporter.Toml.Number
import EventReporter.Toml.Scan
import EventReporter.Trace
import EventReporter.Transport
import EventReporter.Transport.History
import EventReporter.Value
import EventReporter.Value.Access
import EventReporter.Varint
import EventReporter.Width
import EventReporter.Wire
import EventReporter.Writer
import EventReporter.Writer.History
