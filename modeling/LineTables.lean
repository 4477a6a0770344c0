import LineTables.Main
import LineTables.Proofs.Database.Effect
import LineTables.Proofs.Text.Trimming
import LineTables.Statement.Writer
import LineTables.Proofs.Text.WholeWord
import LineTables.Proofs.Statement.Legible
import LineTables.Proofs.Statement.Codec
import LineTables.Proofs.Statement.Plain
import LineTables.Proofs.Statement.Keywords
import LineTables.Proofs.Statement.Clauses
import LineTables.Proofs.Statement.Assigning
import LineTables.Proofs.Database.Reachable
import LineTables.Proofs.Storage.Loading
import LineTables.Proofs.Json.Codec
import LineTables.Proofs.Table.Codec
import LineTables.Proofs.Database.Durable
import LineTables.Proofs.Database.Alike
import LineTables.Proofs.Database.Restart
import LineTables.Proofs.Database.Memory
import LineTables.Proofs.Database.Unchanged
import LineTables.Proofs.Json.Grammar
import LineTables.Proofs.Storage.RoundTrip
import LineTables.Proofs.Json.Scanning
import LineTables.Proofs.Storage.Opening
import LineTables.Proofs.Text.Occurrence
import LineTables.Proofs.Condition.Composition
import LineTables.Proofs.Condition.Addressing
import LineTables.Proofs.Condition.Codec
import LineTables.Proofs.Condition.Numeral
import LineTables.Proofs.Database.Answers
import LineTables.Proofs.Database.Insertion
import LineTables.Proofs.CommandLine.Pieces
import LineTables.Proofs.Database.Apart
import LineTables.Proofs.Database.Frame
import LineTables.Proofs.Database.Closing
import LineTables.Proofs.Database.Turns
import LineTables.Proofs.Catalog
import LineTables.Proofs.Database.Standing
import LineTables.Proofs.Database.Creation
import LineTables.Proofs.Database.Accounts
import LineTables.Proofs.Database.Unforeseen
import LineTables.Proofs.Database.Matching
import LineTables.Proofs.Database.Assigning
import LineTables.Proofs.Database.Repetition
