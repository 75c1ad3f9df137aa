import SqlComposer.Builder.Change
import SqlComposer.Builder.Criteria
import SqlComposer.Builder.Delete
import SqlComposer.Builder.Insert
import SqlComposer.Builder.Join
import SqlComposer.Builder.Request
import SqlComposer.Builder.Scope
import SqlComposer.Builder.Select
import SqlComposer.Builder.Update
import SqlComposer.Builder.Usage
import SqlComposer.Cache
import SqlComposer.Calendar
import SqlComposer.Connection.Basic
import SqlComposer.Connection.Execution
import SqlComposer.Connection.Program
import SqlComposer.Connection.Replay
import SqlComposer.Connection.Transaction
import SqlComposer.Decimal.Fixed
import SqlComposer.Decimal.Parts
import SqlComposer.Decimal.Reader
import SqlComposer.Decimal.Shortest
import SqlComposer.Error
import SqlComposer.Json
import SqlComposer.Keyed
import SqlComposer.Kind
import SqlComposer.Options
import SqlComposer.Params
import SqlComposer.Piece
import SqlComposer.Postgres.Adapter
import SqlComposer.Postgres.Catalog
import SqlComposer.Postgres.Decode
import SqlComposer.Postgres.Replay
import SqlComposer.Proofs.Agree
import SqlComposer.Proofs.Agreement
import SqlComposer.Proofs.Brackets
import SqlComposer.Proofs.Breaks
import SqlComposer.Proofs.ByteOrder
import SqlComposer.Proofs.ByteReader
import SqlComposer.Proofs.Bytes
import SqlComposer.Proofs.CacheEntries
import SqlComposer.Proofs.CacheRuns
import SqlComposer.Proofs.CatalogCalls
import SqlComposer.Proofs.Characters
import SqlComposer.Proofs.Circles
import SqlComposer.Proofs.Clauses
import SqlComposer.Proofs.Columns
import SqlComposer.Proofs.Comments
import SqlComposer.Proofs.Conditions
import SqlComposer.Proofs.Cursor
import SqlComposer.Proofs.Decoding
import SqlComposer.Proofs.Direct
import SqlComposer.Proofs.Failures
import SqlComposer.Proofs.Faithful
import SqlComposer.Proofs.Families
import SqlComposer.Proofs.Filters
import SqlComposer.Proofs.Grammar
import SqlComposer.Proofs.Grammatical
import SqlComposer.Proofs.History
import SqlComposer.Proofs.Integers
import SqlComposer.Proofs.Interleaving
import SqlComposer.Proofs.Joins
import SqlComposer.Proofs.LastRows
import SqlComposer.Proofs.LetterCase
import SqlComposer.Proofs.Lexer
import SqlComposer.Proofs.Lexical
import SqlComposer.Proofs.Lexing
import SqlComposer.Proofs.Lifetimes
import SqlComposer.Proofs.Literals
import SqlComposer.Proofs.Lookups
import SqlComposer.Proofs.MainStatement
import SqlComposer.Proofs.Meeting
import SqlComposer.Proofs.Mentions
import SqlComposer.Proofs.Names
import SqlComposer.Proofs.Noise
import SqlComposer.Proofs.Occurrences
import SqlComposer.Proofs.Openings
import SqlComposer.Proofs.Outline
import SqlComposer.Proofs.Passages
import SqlComposer.Proofs.Placeholders
import SqlComposer.Proofs.Policy
import SqlComposer.Proofs.Positions
import SqlComposer.Proofs.Predicates
import SqlComposer.Proofs.Reading
import SqlComposer.Proofs.Recency
import SqlComposer.Proofs.References
import SqlComposer.Proofs.Registrations
import SqlComposer.Proofs.Repetitions
import SqlComposer.Proofs.Resets
import SqlComposer.Proofs.Retext
import SqlComposer.Proofs.Scan
import SqlComposer.Proofs.Scoping
import SqlComposer.Proofs.Segmentation
import SqlComposer.Proofs.SharedCache
import SqlComposer.Proofs.Slots
import SqlComposer.Proofs.Sources
import SqlComposer.Proofs.Spelling
import SqlComposer.Proofs.TextValues
import SqlComposer.Proofs.Truncation
import SqlComposer.Proofs.Untouched
import SqlComposer.Proofs.Writes
import SqlComposer.Quoting
import SqlComposer.Render
import SqlComposer.Rows.Record
import SqlComposer.Rows.ResultSet
import SqlComposer.Rows.Row
import SqlComposer.Settings
import SqlComposer.Statement
import SqlComposer.Term
import SqlComposer.Text.Blank
import SqlComposer.Text.Cut
import SqlComposer.Text.Hidden
import SqlComposer.Text.Literal
import SqlComposer.Text.Replacement
import SqlComposer.Text.Segments
import SqlComposer.Text.Shown
import SqlComposer.Text.Upper
import SqlComposer.Text.UpperTable
import SqlComposer.Toml.Document
import SqlComposer.Toml.Quoted
import SqlComposer.Toml.Scalar
import SqlComposer.Toml.Sound
import SqlComposer.Toml.Value
