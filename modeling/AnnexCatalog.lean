import AnnexCatalog.Cache.Contents
import AnnexCatalog.Cache.File
import AnnexCatalog.Catalog.Basic
import AnnexCatalog.Catalog.Build
import AnnexCatalog.Catalog.Item
import AnnexCatalog.Catalog.Membership
import AnnexCatalog.Catalog.Metadata
import AnnexCatalog.Collection.TextMap
import AnnexCatalog.CommandLine.Arguments
import AnnexCatalog.CommandLine.Json
import AnnexCatalog.CommandLine.Moment
import AnnexCatalog.CommandLine.Output
import AnnexCatalog.CommandLine.Run
import AnnexCatalog.Config
import AnnexCatalog.Disk.Basic
import AnnexCatalog.Disk.Cache
import AnnexCatalog.Failure
import AnnexCatalog.Field
import AnnexCatalog.Git.Batch
import AnnexCatalog.Git.Error
import AnnexCatalog.Git.Key
import AnnexCatalog.Git.Listing
import AnnexCatalog.Git.Location
import AnnexCatalog.Git.Repository
import AnnexCatalog.Git.Store
import AnnexCatalog.Log.Entry
import AnnexCatalog.Log.Replay
import AnnexCatalog.Log.Timestamp
import AnnexCatalog.Main
import AnnexCatalog.Number.Arithmetic
import AnnexCatalog.Number.Binary64
import AnnexCatalog.Number.Decimal
import AnnexCatalog.Number.Leading
import AnnexCatalog.Number.Shortest
import AnnexCatalog.Number.Significant
import AnnexCatalog.Number.Wide
import AnnexCatalog.Outcome
import AnnexCatalog.Query.Basic
import AnnexCatalog.Query.Clause
import AnnexCatalog.Query.Error
import AnnexCatalog.Query.Lexeme
import AnnexCatalog.Query.Number
import AnnexCatalog.Query.Parse
import AnnexCatalog.Query.Progress
import AnnexCatalog.Query.Render
import AnnexCatalog.Search.Basic
import AnnexCatalog.Search.Compile
import AnnexCatalog.Search.Condition
import AnnexCatalog.Search.Depth
import AnnexCatalog.Search.Parameters
import AnnexCatalog.Search.Verdict
import AnnexCatalog.Store.Basic
import AnnexCatalog.Store.Memory
import AnnexCatalog.Store.Reading
import AnnexCatalog.Store.Scripted
import AnnexCatalog.Text.Alphanumeric
import AnnexCatalog.Text.Base64
import AnnexCatalog.Text.Blank
import AnnexCatalog.Text.LowerCase
import AnnexCatalog.Text.LowerCase.Context
import AnnexCatalog.Text.LowerCase.Table
import AnnexCatalog.Text.Pieces
import AnnexCatalog.Text.Quoted
import AnnexCatalog.Text.Ranges
import AnnexCatalog.Text.Token
import AnnexCatalog.Text.Token.Folding
import AnnexCatalog.Text.Token.Separators
import AnnexCatalog.Text.Unprintable
import AnnexCatalog.Text.Utf8
import AnnexCatalog.Toml.Document
import AnnexCatalog.Toml.Number
import AnnexCatalog.Toml.Space
import AnnexCatalog.Toml.Table
import AnnexCatalog.Toml.Text
import AnnexCatalog.Toml.Value
import AnnexCatalog.Toml.Write
import AnnexCatalog.Workspace
import AnnexCatalog.Proofs.Catalog.Metadata
import AnnexCatalog.Proofs.Catalog.Tables
import AnnexCatalog.Proofs.Log.LastWriter
import AnnexCatalog.Proofs.Log.Timeline
import AnnexCatalog.Proofs.Catalog.Contents
import AnnexCatalog.Proofs.Catalog.Writes
import AnnexCatalog.Proofs.Catalog.Steps
import AnnexCatalog.Proofs.Catalog.Mirror
import AnnexCatalog.Proofs.Catalog.Rebuild
import AnnexCatalog.Proofs.Catalog.Items
import AnnexCatalog.Proofs.Search.Conditions
import AnnexCatalog.Proofs.Search.Results
import AnnexCatalog.Proofs.Cache.Refusals
import AnnexCatalog.Proofs.Cache.Recovery
import AnnexCatalog.Proofs.Query.Grammar
import AnnexCatalog.Proofs.Query.Parts
import AnnexCatalog.Proofs.Query.Pieces
import AnnexCatalog.Proofs.Query.RoundTrip
import AnnexCatalog.Proofs.Catalog.Values
import AnnexCatalog.Proofs.Catalog.Filing
import AnnexCatalog.Proofs.Text.Pieces
import AnnexCatalog.Proofs.Log.Rejections
import AnnexCatalog.Proofs.Catalog.Frame
import AnnexCatalog.Proofs.Catalog.History
import AnnexCatalog.Proofs.Catalog.Aliases
import AnnexCatalog.Proofs.Query.Numbers
import AnnexCatalog.Proofs.Query.Printable
import AnnexCatalog.Proofs.Text.Tokens
import AnnexCatalog.Proofs.Search.Terms
import AnnexCatalog.Proofs.Log.Arrival
import AnnexCatalog.Proofs.Query.Composition
import AnnexCatalog.Proofs.Search.Success
import AnnexCatalog.Proofs.Search.Negation
import AnnexCatalog.Proofs.Search.Composition
import AnnexCatalog.Proofs.Search.Phrases
import AnnexCatalog.Proofs.Search.Failures
import AnnexCatalog.Proofs.Number.Decimal
import AnnexCatalog.Proofs.Number.Rounding
import AnnexCatalog.Proofs.Number.Arithmetic
import AnnexCatalog.Proofs.Number.Wide
import AnnexCatalog.Proofs.Number.Leading
import AnnexCatalog.Proofs.Text.Utf8
import AnnexCatalog.Proofs.Text.Base64
import AnnexCatalog.Proofs.Log.Writing
import AnnexCatalog.Proofs.Query.Typing
import AnnexCatalog.Proofs.Query.Places
import AnnexCatalog.Proofs.Git.Framing
import AnnexCatalog.Proofs.Catalog.Numbering
import AnnexCatalog.Proofs.Text.LowerCase
import AnnexCatalog.Proofs.Search.Substrings
import AnnexCatalog.Proofs.Search.Numbers
import AnnexCatalog.Proofs.Toml.Number
import AnnexCatalog.Proofs.Toml.Text
import AnnexCatalog.Proofs.Toml.Document
import AnnexCatalog.Proofs.Toml.Table
import AnnexCatalog.Proofs.Config
import AnnexCatalog.Proofs.Git.Truncation
import AnnexCatalog.Proofs.Git.Locations
import AnnexCatalog.Proofs.Git.Listing
import AnnexCatalog.Proofs.Catalog.Summaries
import AnnexCatalog.Proofs.Search.Comparisons
import AnnexCatalog.Proofs.Search.Presence
import AnnexCatalog.Proofs.Store.Patches
import AnnexCatalog.Proofs.Catalog.Attachment
import AnnexCatalog.Proofs.Catalog.Repeats
import AnnexCatalog.Proofs.Catalog.Listings
import AnnexCatalog.Proofs.Git.Keys
import AnnexCatalog.Proofs.Git.Repository
import AnnexCatalog.Proofs.Git.Store
import AnnexCatalog.Proofs.Log.Timestamp
import AnnexCatalog.Proofs.Disk
import AnnexCatalog.Proofs.Workspace
import AnnexCatalog.Proofs.CommandLine
import AnnexCatalog.Proofs.CommandLine.Queries
