import CardArchive.Address.Basic
import CardArchive.Address.Host
import CardArchive.Card.ManaCost
import CardArchive.Catalog
import CardArchive.Cli.Command
import CardArchive.Cli.Options
import CardArchive.Cli.Path
import CardArchive.Cli.Run
import CardArchive.Cli.Size
import CardArchive.Deck.Basic
import CardArchive.Deck.Storage
import CardArchive.Download.Attempts
import CardArchive.Download.Directory
import CardArchive.Download.FileName
import CardArchive.Download.Record
import CardArchive.Download.Transfer
import CardArchive.Failure
import CardArchive.Filter.Basic
import CardArchive.Filter.Compile
import CardArchive.Filter.Compose
import CardArchive.Filter.Partition
import CardArchive.Json.Limits
import CardArchive.Json.Reader
import CardArchive.Json.Writer
import CardArchive.Main
import CardArchive.Number.Binary
import CardArchive.Number.Decimal
import CardArchive.Number.Shortest
import CardArchive.Number.Written
import CardArchive.Proofs.Card.Costs
import CardArchive.Proofs.Card.Objects
import CardArchive.Proofs.Cli.Downloads
import CardArchive.Proofs.Cli.Enquiries
import CardArchive.Proofs.Deck.Entries
import CardArchive.Proofs.Deck.Instances
import CardArchive.Proofs.Deck.Map
import CardArchive.Proofs.Deck.Moments
import CardArchive.Proofs.Deck.Reading
import CardArchive.Proofs.Deck.References
import CardArchive.Proofs.Deck.Refinement
import CardArchive.Proofs.Deck.Snapshots
import CardArchive.Proofs.Deck.Stored
import CardArchive.Proofs.Deck.Writing
import CardArchive.Proofs.Distinct
import CardArchive.Proofs.Download.Arrivals
import CardArchive.Proofs.Download.Course
import CardArchive.Proofs.Download.Files
import CardArchive.Proofs.Download.Hops
import CardArchive.Proofs.Download.Outcomes
import CardArchive.Proofs.Download.Requests
import CardArchive.Proofs.Download.Retries
import CardArchive.Proofs.Download.Staleness
import CardArchive.Proofs.Download.Status
import CardArchive.Proofs.Download.Versions
import CardArchive.Proofs.Filter.Admission
import CardArchive.Proofs.Filter.Blocks
import CardArchive.Proofs.Filter.Comparisons
import CardArchive.Proofs.Filter.Fragments
import CardArchive.Proofs.Filter.Labels
import CardArchive.Proofs.Filter.Laws
import CardArchive.Proofs.Filter.Lengths
import CardArchive.Proofs.Filter.Mana
import CardArchive.Proofs.Filter.Measures
import CardArchive.Proofs.Filter.Members
import CardArchive.Proofs.Filter.Moving
import CardArchive.Proofs.Filter.Numbered
import CardArchive.Proofs.Filter.Printings
import CardArchive.Proofs.Filter.Scoped
import CardArchive.Proofs.Filter.Statistics
import CardArchive.Proofs.Filter.Words
import CardArchive.Proofs.Json.Numerals
import CardArchive.Proofs.Json.RoundTrip
import CardArchive.Proofs.Json.Settled
import CardArchive.Proofs.Json.Texts
import CardArchive.Proofs.Keyed
import CardArchive.Proofs.Outcome
import CardArchive.Proofs.Search.Comparisons
import CardArchive.Proofs.Search.Contradictions
import CardArchive.Proofs.Search.Determined
import CardArchive.Proofs.Search.Narrowing
import CardArchive.Proofs.Search.Pages
import CardArchive.Proofs.Search.Refusals
import CardArchive.Proofs.Search.Requests
import CardArchive.Proofs.Search.Runs
import CardArchive.Proofs.Search.Selected
import CardArchive.Proofs.Search.Splits
import CardArchive.Proofs.Search.Statements
import CardArchive.Proofs.Search.Symbols
import CardArchive.Proofs.Search.Taken
import CardArchive.Proofs.Search.Verdicts
import CardArchive.Proofs.Server.Answered
import CardArchive.Proofs.Server.Asked
import CardArchive.Proofs.Server.Hints
import CardArchive.Proofs.Server.Searches
import CardArchive.Proofs.Server.Session
import CardArchive.Proofs.Stateful
import CardArchive.Proofs.Statement.Balanced
import CardArchive.Proofs.Statement.Conditions
import CardArchive.Proofs.Statement.Heights
import CardArchive.Proofs.Statement.Joins
import CardArchive.Proofs.Statement.Lexer
import CardArchive.Proofs.Statement.Patterns
import CardArchive.Proofs.Statement.Precedence
import CardArchive.Proofs.Statement.Readable
import CardArchive.Proofs.Statement.Reading
import CardArchive.Proofs.Statement.Renaming
import CardArchive.Proofs.Statement.Scope
import CardArchive.Proofs.Statement.Selection
import CardArchive.Proofs.Statement.Taken
import CardArchive.Proofs.Statement.Widths
import CardArchive.Proofs.Store.Calls
import CardArchive.Proofs.Store.Coherence
import CardArchive.Proofs.Store.Costs
import CardArchive.Proofs.Store.FirstWins
import CardArchive.Proofs.Store.Groups
import CardArchive.Proofs.Store.Growth
import CardArchive.Proofs.Store.Imports
import CardArchive.Proofs.Store.Kept
import CardArchive.Proofs.Store.Layouts
import CardArchive.Proofs.Store.LeftOpen
import CardArchive.Proofs.Store.Numbers
import CardArchive.Proofs.Store.Profiles
import CardArchive.Proofs.Store.Reachable
import CardArchive.Proofs.Store.Repeated
import CardArchive.Proofs.Store.Rollback
import CardArchive.Proofs.Store.SingleSets
import CardArchive.Proofs.Store.Steps
import CardArchive.Proofs.Store.Stock
import CardArchive.Proofs.Store.Symbols
import CardArchive.Proofs.Text.Numerals
import CardArchive.Proofs.Text.UpperCase
import CardArchive.Proofs.Timestamp.Instants
import CardArchive.Proofs.Timestamp.ReadBack
import CardArchive.Search.Basic
import CardArchive.Search.Call
import CardArchive.Search.Comparison
import CardArchive.Server.Answers
import CardArchive.Server.Schema
import CardArchive.Server.Tools
import CardArchive.Server.Views
import CardArchive.Statement.Basic
import CardArchive.Statement.Cell
import CardArchive.Statement.Limits
import CardArchive.Statement.Meaning
import CardArchive.Statement.Text
import CardArchive.Store.Binding
import CardArchive.Store.Database
import CardArchive.Store.Details
import CardArchive.Store.Ingest
import CardArchive.Store.Matches
import CardArchive.Store.Rows
import CardArchive.Store.SetFile
import CardArchive.Store.Tables
import CardArchive.Store.Vocabulary
import CardArchive.Text.Blank
import CardArchive.Text.Digit
import CardArchive.Text.Integer
import CardArchive.Text.Order
import CardArchive.Text.Parts
import CardArchive.Text.Printable
import CardArchive.Text.Quoted
import CardArchive.Text.UpperCase
import CardArchive.Timestamp.Basic
import CardArchive.Timestamp.Reader
import CardArchive.Value.Access
import CardArchive.Value.Basic
import CardArchive.Value.Same
