import EntityCompiler.Api.Component
import EntityCompiler.Api.Document
import EntityCompiler.Calendar.Date
import EntityCompiler.Calendar.Instant
import EntityCompiler.Calendar.Moment
import EntityCompiler.Column.Literal
import EntityCompiler.Column.Parse
import EntityCompiler.Column.Type
import EntityCompiler.Digest.Sha256
import EntityCompiler.Entity.Basic
import EntityCompiler.Entity.Build
import EntityCompiler.Entity.Canonical
import EntityCompiler.Entity.Equality
import EntityCompiler.Environment
import EntityCompiler.Error
import EntityCompiler.Hashing
import EntityCompiler.Issue
import EntityCompiler.Journal.Basic
import EntityCompiler.Journal.Building
import EntityCompiler.Journal.Context
import EntityCompiler.Journal.Generation
import EntityCompiler.Journal.Line
import EntityCompiler.Journal.Output
import EntityCompiler.Json.Basic
import EntityCompiler.Json.Read
import EntityCompiler.Json.Text
import EntityCompiler.Number.Binary64
import EntityCompiler.Number.Numeral
import EntityCompiler.Project
import EntityCompiler.Shape
import EntityCompiler.Specification.Basic
import EntityCompiler.Specification.Read
import EntityCompiler.Sql.Default
import EntityCompiler.Sql.Dialect
import EntityCompiler.Sql.Generator
import EntityCompiler.Sql.Quote
import EntityCompiler.Sql.Statement
import EntityCompiler.Sql.Type
import EntityCompiler.Store
import EntityCompiler.Text.Ascii
import EntityCompiler.Text.Blank
import EntityCompiler.Text.Digit
import EntityCompiler.Text.Lowercase
import EntityCompiler.Text.Printable
import EntityCompiler.Text.Quoted
import EntityCompiler.Text.SnakeCase
import EntityCompiler.Text.Uppercase
import EntityCompiler.Validation.Check
import EntityCompiler.Validation.Schema
import EntityCompiler.Value.Basic
import EntityCompiler.Value.Depth
import EntityCompiler.Value.Display
import EntityCompiler.Value.JsonText
import EntityCompiler.Value.Moment
import EntityCompiler.Value.Plain
import EntityCompiler.Proofs.Json.Quoted
import EntityCompiler.Proofs.Number.Neighbourhood
import EntityCompiler.Proofs.Number.Shortest
import EntityCompiler.Proofs.Number.DecimalText
import EntityCompiler.Proofs.Json.Text
import EntityCompiler.Proofs.Entity.Build
import EntityCompiler.Proofs.Entity.Canonical
import EntityCompiler.Proofs.Value.Plain
import EntityCompiler.Proofs.Store.Transparency
import EntityCompiler.Proofs.Calendar.Fields
import EntityCompiler.Proofs.Calendar.IsoText
import EntityCompiler.Proofs.Shape
import EntityCompiler.Proofs.Validation.Literal
import EntityCompiler.Proofs.Validation.Defaults
import EntityCompiler.Proofs.Value.Respelled
import EntityCompiler.Proofs.Column.Respelled
import EntityCompiler.Proofs.Specification.Entries
import EntityCompiler.Proofs.Specification.Respelled
import EntityCompiler.Proofs.Specification.Contents
import EntityCompiler.Proofs.Entity.Respelled
import EntityCompiler.Proofs.Column.Frozen
import EntityCompiler.Proofs.Entity.WellFormed
import EntityCompiler.Proofs.Calendar.Universal
import EntityCompiler.Proofs.Sql.Render
import EntityCompiler.Proofs.Artifacts
import EntityCompiler.Proofs.Json.Length
import EntityCompiler.Proofs.Sql.Literal
import EntityCompiler.Proofs.Sql.Stored
import EntityCompiler.Proofs.Api.Document
import EntityCompiler.Proofs.Project.Run
import EntityCompiler.Proofs.Project.Names
import EntityCompiler.Proofs.Store.Recency
import EntityCompiler.Proofs.Sql.Determined
import EntityCompiler.Proofs.Specification.Described
import EntityCompiler.Proofs.Column.Reported
import EntityCompiler.Proofs.Entity.Reported
import EntityCompiler.Proofs.Validation.Conformance
import EntityCompiler.Proofs.Validation.Compiled
import EntityCompiler.Proofs.Validation.Records
import EntityCompiler.Proofs.Validation.Agreement
import EntityCompiler.Proofs.Validation.Presence
import EntityCompiler.Proofs.Sql.Table
import EntityCompiler.Proofs.Presence
import EntityCompiler.Proofs.Sql.Scan
import EntityCompiler.Proofs.Sql.Sealed
import EntityCompiler.Proofs.Sql.Outline
import EntityCompiler.Proofs.Json.Escaped
import EntityCompiler.Proofs.Sql.Escapes
import EntityCompiler.Proofs.Sql.Lossless
import EntityCompiler.Proofs.Sql.Words
import EntityCompiler.Proofs.Sql.DefaultClause
import EntityCompiler.Proofs.Sql.Indexes
import EntityCompiler.Proofs.Json.Alike
import EntityCompiler.Proofs.Api.Shown
import EntityCompiler.Proofs.Validation.Equality
import EntityCompiler.Proofs.Api.Hidden
import EntityCompiler.Proofs.Validation.Fields
import EntityCompiler.Proofs.Validation.Patch
import EntityCompiler.Proofs.Value.Depth
import EntityCompiler.Proofs.Interchangeable
import EntityCompiler.Proofs.Entity.Parsed
import EntityCompiler.Proofs.Entity.Reread
import EntityCompiler.Proofs.Validation.Settled
import EntityCompiler.Proofs.Validation.Restricted
import EntityCompiler.Proofs.Validation.Input
import EntityCompiler.Proofs.Api.Property
import EntityCompiler.Proofs.Api.Depicted
import EntityCompiler.Proofs.Calendar.Days
import EntityCompiler.Proofs.Sql.Stamp
import EntityCompiler.Proofs.Column.Representations
import EntityCompiler.Proofs.Text.SnakeCase
import EntityCompiler.Proofs.Sql.TableNames
import EntityCompiler.Proofs.Sql.Entries
import EntityCompiler.Proofs.Sql.Arrays
import EntityCompiler.Proofs.Api.Tags
import EntityCompiler.Proofs.Api.Literals
import EntityCompiler.Proofs.Entity.Masked
import EntityCompiler.Proofs.Journal.Balanced
import EntityCompiler.Proofs.Journal.Entries
import EntityCompiler.Proofs.Journal.Columns
import EntityCompiler.Proofs.Journal.Blocks
