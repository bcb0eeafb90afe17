import CqlStatements.Builder
import CqlStatements.Files
import CqlStatements.Main
import CqlStatements.Proofs.Binding
import CqlStatements.Proofs.Binding.Composition
import CqlStatements.Proofs.Fallible
import CqlStatements.Proofs.Runs
import CqlStatements.Proofs.Rows
import CqlStatements.Proofs.Compilation
import CqlStatements.Proofs.Trimming
import CqlStatements.Proofs.InsertRows
import CqlStatements.Proofs.ColumnNames
import CqlStatements.Proofs.BoundText
import CqlStatements.Proofs.Quotes.Spans
import CqlStatements.Proofs.Quotes.Literals
import CqlStatements.Proofs.Quotes.Statements
import CqlStatements.Proofs.Quotes.Bound
import CqlStatements.Proofs.Qualifier.Matching
import CqlStatements.Proofs.Qualifier.WordStarts
import CqlStatements.Proofs.Qualifier.Clauses
import CqlStatements.Proofs.Qualifier.Deletion
import CqlStatements.Proofs.Qualifier.Stripping
import CqlStatements.Proofs.Qualifier.Searches
import CqlStatements.Proofs.Qualifier.Idempotence
import CqlStatements.Proofs.Qualifier.Interruption
import CqlStatements.Proofs.Qualifier.Target
import CqlStatements.Proofs.Qualifier.QuotedText
import CqlStatements.Proofs.Qualifier.LetterCase
import CqlStatements.Proofs.Qualifier.CompiledTables
import CqlStatements.Proofs.Qualifier.KelvinSigns
import CqlStatements.Proofs.Builder.Conditions
import CqlStatements.Proofs.WellFormed
import CqlStatements.Proofs.Builder.Interleaving
import CqlStatements.Proofs.Numerals
import CqlStatements.Proofs.TypedScalars
import CqlStatements.Proofs.Json.Numerals
import CqlStatements.Proofs.Json.Reading
import CqlStatements.Proofs.Json.Documents
import CqlStatements.Proofs.Binary64.Nearest
import CqlStatements.Proofs.Binary64.ReadBack
import CqlStatements.Proofs.Json.Decoding
import CqlStatements.Proofs.Json.Layouts
import CqlStatements.Proofs.Json.Members
import CqlStatements.Proofs.RoundTrip.Descriptors
import CqlStatements.Proofs.Decoding.Arrangements
import CqlStatements.Proofs.Decoding.Collections
import CqlStatements.Proofs.Toml.Numbers
import CqlStatements.Proofs.Toml.Strings
import CqlStatements.Proofs.Toml.Values
import CqlStatements.Proofs.Toml.Documents
import CqlStatements.Proofs.Toml.Canonical
import CqlStatements.Proofs.Config.Acceptance
import CqlStatements.Proofs.Config.Precedence
import CqlStatements.Proofs.Config.ContactPoints
import CqlStatements.Proofs.RoundTrip.Settings
import CqlStatements.Proofs.Command.Output
import CqlStatements.Proofs.Files.Lookups
import CqlStatements.Proofs.Command.Settings
import CqlStatements.Proofs.Command.StatementJson
import CqlStatements.Proofs.Command.SettingsPath
import CqlStatements.Proofs.Quotes.Recovery
