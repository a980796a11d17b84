import SqlRecords.Codec.Statement
import SqlRecords.Connection.Scripted
import SqlRecords.Engine.Basic
import SqlRecords.Field.Type
import SqlRecords.Proofs.Decimal.Characters
import SqlRecords.Proofs.Dialect.Escapes
import SqlRecords.Proofs.Dialect.Grouping
import SqlRecords.Proofs.Dialect.Renaming
import SqlRecords.Proofs.Engine.BatchSize
import SqlRecords.Proofs.Engine.BulkWrite
import SqlRecords.Proofs.Engine.RoundTrip
import SqlRecords.Proofs.Engine.Streaming
import SqlRecords.Proofs.Session.Brackets
import SqlRecords.Proofs.Session.Scope
import SqlRecords.Session.Pool
import SqlRecords.Session.Transaction
import SqlRecords.Sqlite.Connection
import SqlRecords.Proofs.Codec.Lossless
import SqlRecords.Proofs.Engine.InsertOrWrite
import SqlRecords.Proofs.Engine.Reached
import SqlRecords.Proofs.Engine.Upsert
import SqlRecords.Proofs.Dialect.Agreement
import SqlRecords.Proofs.Dialect.Placeholders
import SqlRecords.Proofs.Record.Placement
import SqlRecords.Proofs.Session.Leasing
import SqlRecords.Proofs.Record.Sendable
import SqlRecords.Proofs.Engine.Conflicts
import SqlRecords.Proofs.Dialect.Skeleton
import SqlRecords.Proofs.Field.Coherent
import SqlRecords.Proofs.Calendar.Offsets
import SqlRecords.Proofs.Dialect.PrimaryKey
import SqlRecords.Proofs.Engine.WriteCalls
import SqlRecords.Proofs.Engine.Fetches
import SqlRecords.Proofs.Json.RoundTrip
import SqlRecords.Proofs.Dialect.Durations
import SqlRecords.Proofs.Sqlite.Fetching
import SqlRecords.Proofs.Record.FirstFailure
import SqlRecords.Proofs.Sqlite.Sending
import SqlRecords.Proofs.Sqlite.StatementTexts
