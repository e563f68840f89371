import TableLoom.Catalog.Data
import TableLoom.Database.Transaction
import TableLoom.Main
import TableLoom.Proofs.Query.Alignment
import TableLoom.Proofs.Query.SoftDeletion
import TableLoom.Proofs.Schema.Cascade
import TableLoom.Proofs.Schema.Merging
import TableLoom.Query.Terminal
import TableLoom.Record.Embedded
import TableLoom.Schema.Data
import TableLoom.Storage.Listing
import TableLoom.Proofs.Query.Alike
import TableLoom.Proofs.Query.Opacity
import TableLoom.Proofs.Query.Groups
import TableLoom.Proofs.Query.Lifecycle
import TableLoom.Proofs.Query.Sections
import TableLoom.Proofs.Schema.Acceptance
import TableLoom.Proofs.Text.Legible
import TableLoom.Proofs.Code.Legible
import TableLoom.Proofs.Generation.Legible
import TableLoom.Proofs.Generation.Targets
import TableLoom.Proofs.Generation.Rendering
import TableLoom.Proofs.Query.Composition
import TableLoom.Proofs.Query.Terminals
import TableLoom.Proofs.Query.FreshStart
import TableLoom.Proofs.Query.Released
import TableLoom.Proofs.Query.Conditions
import TableLoom.Proofs.Query.Conjuncts
import TableLoom.Proofs.Schema.Intake
import TableLoom.Proofs.Storage.Without
import TableLoom.Proofs.Schema.Isolation
import TableLoom.Proofs.Query.Disjunction
import TableLoom.Proofs.Text.Words
import TableLoom.Proofs.Traversal
import TableLoom.Proofs.Generation.ClassNames
import TableLoom.Proofs.Generation.MemberNames
import TableLoom.Proofs.Database.Lending
import TableLoom.Proofs.Query.Refusal
import TableLoom.Proofs.Schema.Names
import TableLoom.Proofs.Generation.Tokens
import TableLoom.Proofs.Code.Reading
import TableLoom.Proofs.Generation.Constants
import TableLoom.Proofs.Database.Sharing
import TableLoom.Proofs.Database.Verdict
import TableLoom.Proofs.Text.Utf8
import TableLoom.Proofs.Storage.Growth
import TableLoom.Proofs.Storage.Runs
import TableLoom.Proofs.Text.LineEnds
import TableLoom.Proofs.Generation.Exporting
import TableLoom.Proofs.Generation.Inventory
import TableLoom.Proofs.Generation.Cleaning
import TableLoom.Proofs.Check.Entries
import TableLoom.Proofs.Check.Flags
import TableLoom.Proofs.Schema.Flags
import TableLoom.Proofs.Catalog.Pulled
import TableLoom.Proofs.Catalog.Written
import TableLoom.Proofs.Catalog.Joins
import TableLoom.Proofs.Generation.Interruption
import TableLoom.Proofs.Schema.Canonical
import TableLoom.Proofs.Statement.Insertion
import TableLoom.Proofs.Statement.Update
import TableLoom.Proofs.Generation.SingleRow
import TableLoom.Proofs.Schema.Junctions
import TableLoom.Proofs.Storage.Sound
import TableLoom.Proofs.Generation.Unchanged
import TableLoom.Proofs.Generation.Addressing
import TableLoom.Proofs.Json.Reading
import TableLoom.Proofs.Json.Depth
import TableLoom.Proofs.Record.Decoding
import TableLoom.Proofs.Catalog.Accounts
import TableLoom.Proofs.Query.Deletion
import TableLoom.Proofs.Schema.FarColumns
import TableLoom.Proofs.Query.Scopes
import TableLoom.Proofs.Query.Correlation
import TableLoom.Proofs.Generation.Relations
import TableLoom.Proofs.Generation.Coverage
