import Phrasebook.Command.Arguments
import Phrasebook.Command.Check
import Phrasebook.Command.Console
import Phrasebook.Command.Display
import Phrasebook.Command.Grammar
import Phrasebook.Command.Help
import Phrasebook.Command.Inspect
import Phrasebook.Command.Locales
import Phrasebook.Command.Request
import Phrasebook.Command.Run
import Phrasebook.Command.Setup
import Phrasebook.Command.Templates
import Phrasebook.Command.Variants
import Phrasebook.Document.Diagnostic
import Phrasebook.Document.Record
import Phrasebook.Document.Span
import Phrasebook.Document.Tally
import Phrasebook.Entity
import Phrasebook.Files.Path
import Phrasebook.Files.Tree
import Phrasebook.Identity.Display
import Phrasebook.Identity.Kind
import Phrasebook.Identity.Locale
import Phrasebook.Identity.RecordId
import Phrasebook.Identity.Uuid
import Phrasebook.Instant
import Phrasebook.Json.Binary64
import Phrasebook.Json.Decode
import Phrasebook.Json.Print
import Phrasebook.Json.Read
import Phrasebook.Json.Value
import Phrasebook.Main
import Phrasebook.Pattern.CharSet
import Phrasebook.Pattern.Match
import Phrasebook.Pattern.Parse
import Phrasebook.Project.Layout
import Phrasebook.Project.Settings
import Phrasebook.Proofs.Accepted
import Phrasebook.Proofs.Actions
import Phrasebook.Proofs.Affixes
import Phrasebook.Proofs.Arrangement
import Phrasebook.Proofs.Atomicity
import Phrasebook.Proofs.BlockDocuments
import Phrasebook.Proofs.ByteOrder
import Phrasebook.Proofs.Calendar
import Phrasebook.Proofs.Changes
import Phrasebook.Proofs.ChangeText
import Phrasebook.Proofs.Chronology
import Phrasebook.Proofs.CivilTimes
import Phrasebook.Proofs.Clients
import Phrasebook.Proofs.ColumnRoom
import Phrasebook.Proofs.ColumnTexts
import Phrasebook.Proofs.Completeness
import Phrasebook.Proofs.Composition
import Phrasebook.Proofs.Conforming
import Phrasebook.Proofs.Consistent
import Phrasebook.Proofs.Constraints
import Phrasebook.Proofs.Conversions
import Phrasebook.Proofs.Creations
import Phrasebook.Proofs.Decimals
import Phrasebook.Proofs.Decoding
import Phrasebook.Proofs.Deletion
import Phrasebook.Proofs.Differences
import Phrasebook.Proofs.Entries
import Phrasebook.Proofs.EntryPlaces
import Phrasebook.Proofs.Fields
import Phrasebook.Proofs.FileChecks
import Phrasebook.Proofs.FlatForms
import Phrasebook.Proofs.History
import Phrasebook.Proofs.IndexNames
import Phrasebook.Proofs.Installation
import Phrasebook.Proofs.Installed
import Phrasebook.Proofs.Integrity
import Phrasebook.Proofs.JsonText
import Phrasebook.Proofs.KeyForms
import Phrasebook.Proofs.KeyOrder
import Phrasebook.Proofs.Keys
import Phrasebook.Proofs.KeySpans
import Phrasebook.Proofs.Lawful
import Phrasebook.Proofs.Lines
import Phrasebook.Proofs.Listings
import Phrasebook.Proofs.LocaleCodes
import Phrasebook.Proofs.Lookups
import Phrasebook.Proofs.Made
import Phrasebook.Proofs.Matching
import Phrasebook.Proofs.Mutations
import Phrasebook.Proofs.Patches
import Phrasebook.Proofs.Paths
import Phrasebook.Proofs.Permanence
import Phrasebook.Proofs.ReadBack
import Phrasebook.Proofs.References
import Phrasebook.Proofs.Registries
import Phrasebook.Proofs.Removals
import Phrasebook.Proofs.RenderedSchemas
import Phrasebook.Proofs.Reports
import Phrasebook.Proofs.Results
import Phrasebook.Proofs.Rows
import Phrasebook.Proofs.Runs
import Phrasebook.Proofs.Shortening
import Phrasebook.Proofs.Spellings
import Phrasebook.Proofs.Statements
import Phrasebook.Proofs.Tables
import Phrasebook.Proofs.Timestamps
import Phrasebook.Proofs.TypedForms
import Phrasebook.Proofs.UniqueKeys
import Phrasebook.Proofs.Updates
import Phrasebook.Proofs.Upkeep
import Phrasebook.Proofs.VariantLocales
import Phrasebook.Proofs.VariantQueries
import Phrasebook.Proofs.Variants
import Phrasebook.Proofs.Verdicts
import Phrasebook.Record
import Phrasebook.Schema.Builtin
import Phrasebook.Schema.Ddl
import Phrasebook.Schema.Definition
import Phrasebook.Schema.Descriptor
import Phrasebook.Schema.Registry
import Phrasebook.Schema.Render
import Phrasebook.Store.Change
import Phrasebook.Store.Column
import Phrasebook.Store.Connection
import Phrasebook.Store.Database
import Phrasebook.Store.Error
import Phrasebook.Store.Mutation
import Phrasebook.Store.Query
import Phrasebook.Store.Saved
import Phrasebook.Store.Table
import Phrasebook.Text.Basic
import Phrasebook.Text.Table
import Phrasebook.Text.Truncate
import Phrasebook.Text.Width
import Phrasebook.Validation.Check
import Phrasebook.Validation.Format
import Phrasebook.Validation.Validator
import Phrasebook.Validation.Violation
import Phrasebook.Yaml.Cursor
import Phrasebook.Yaml.Node
import Phrasebook.Yaml.Print
import Phrasebook.Yaml.Read
import Phrasebook.Yaml.Scalar
import Phrasebook.Yaml.Value
