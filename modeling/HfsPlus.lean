import HfsPlus.Bytes
import HfsPlus.Code
import HfsPlus.CommandLine.Answer
import HfsPlus.CommandLine.Grammar
import HfsPlus.CommandLine.Host
import HfsPlus.CommandLine.Request
import HfsPlus.Digest
import HfsPlus.Error
import HfsPlus.Extent
import HfsPlus.FileSystem.Basic
import HfsPlus.FileSystem.Catalog
import HfsPlus.FileSystem.Content
import HfsPlus.FileSystem.Emptied
import HfsPlus.FileSystem.Summary
import HfsPlus.FileSystem.Trees
import HfsPlus.Fork
import HfsPlus.Hasher
import HfsPlus.Layout
import HfsPlus.Log
import HfsPlus.Main
import HfsPlus.Name
import HfsPlus.Name.Order
import HfsPlus.Partition.Map
import HfsPlus.Partition.Selection
import HfsPlus.Partition.Stored
import HfsPlus.Proofs.Agreement
import HfsPlus.Proofs.Code
import HfsPlus.Proofs.Completion
import HfsPlus.Proofs.Digest
import HfsPlus.Proofs.Extent.Ordered
import HfsPlus.Proofs.Extent.Placement
import HfsPlus.Proofs.FileSystem.Ancestry
import HfsPlus.Proofs.FileSystem.Answers
import HfsPlus.Proofs.FileSystem.Ascent
import HfsPlus.Proofs.FileSystem.Copies
import HfsPlus.Proofs.FileSystem.Counting
import HfsPlus.Proofs.FileSystem.Entries
import HfsPlus.Proofs.FileSystem.History
import HfsPlus.Proofs.FileSystem.Isolation
import HfsPlus.Proofs.FileSystem.Listings
import HfsPlus.Proofs.FileSystem.Mounting
import HfsPlus.Proofs.FileSystem.Paths
import HfsPlus.Proofs.FileSystem.Ranking
import HfsPlus.Proofs.FileSystem.Rankings
import HfsPlus.Proofs.FileSystem.Shelf
import HfsPlus.Proofs.FileSystem.Spelling
import HfsPlus.Proofs.FileSystem.Summary
import HfsPlus.Proofs.FileSystem.Sums
import HfsPlus.Proofs.FileSystem.Surroundings
import HfsPlus.Proofs.FileSystem.Threads
import HfsPlus.Proofs.FileSystem.Totals
import HfsPlus.Proofs.Fork.Allocation
import HfsPlus.Proofs.Fork.Answers
import HfsPlus.Proofs.Fork.Arithmetic
import HfsPlus.Proofs.Fork.Chain
import HfsPlus.Proofs.Fork.Checked
import HfsPlus.Proofs.Fork.Contents
import HfsPlus.Proofs.Fork.Growth
import HfsPlus.Proofs.Fork.History
import HfsPlus.Proofs.Fork.Loading
import HfsPlus.Proofs.Fork.Mapped
import HfsPlus.Proofs.Fork.Places
import HfsPlus.Proofs.Fork.Questions
import HfsPlus.Proofs.Fork.Runs
import HfsPlus.Proofs.Layout
import HfsPlus.Proofs.Name.Codec
import HfsPlus.Proofs.Name.Folding
import HfsPlus.Proofs.Name.Order
import HfsPlus.Proofs.Name.Posix
import HfsPlus.Proofs.Outcome
import HfsPlus.Proofs.Partition.Apple
import HfsPlus.Proofs.Partition.Attached
import HfsPlus.Proofs.Partition.Guid
import HfsPlus.Proofs.RecencyCache
import HfsPlus.Proofs.RecencyCache.History
import HfsPlus.Proofs.RecencyCache.Inclusion
import HfsPlus.Proofs.RecencyCache.Recency
import HfsPlus.Proofs.RecencyCache.Store
import HfsPlus.Proofs.Record.Groups
import HfsPlus.Proofs.Record.Keys
import HfsPlus.Proofs.Record.Order
import HfsPlus.Proofs.Record.Values
import HfsPlus.Proofs.Structure
import HfsPlus.Proofs.Text.Units
import HfsPlus.Proofs.Tree.Answers
import HfsPlus.Proofs.Tree.Caching
import HfsPlus.Proofs.Tree.Cursor
import HfsPlus.Proofs.Tree.Format
import HfsPlus.Proofs.Tree.Iteration
import HfsPlus.Proofs.Tree.Lookup
import HfsPlus.Proofs.Tree.Node
import HfsPlus.Proofs.Tree.Pass
import HfsPlus.Proofs.Tree.Range
import HfsPlus.Proofs.Tree.Search
import HfsPlus.Proofs.Tree.Session
import HfsPlus.Proofs.Tree.Soundness
import HfsPlus.Proofs.Tree.Split
import HfsPlus.Proofs.Tree.Trail
import HfsPlus.Proofs.Tree.Walk
import HfsPlus.Proofs.Tree.WellFormed
import HfsPlus.Proofs.Volume
import HfsPlus.Proofs.Volume.Nesting
import HfsPlus.Proofs.Volume.Parts
import HfsPlus.Proofs.Volume.Pieces
import HfsPlus.Proofs.Volume.Readable
import HfsPlus.RecencyCache
import HfsPlus.Record.Attribute
import HfsPlus.Record.Catalog
import HfsPlus.Record.Field
import HfsPlus.Record.HotFile
import HfsPlus.Record.Overflow
import HfsPlus.Report.Entry
import HfsPlus.Report.Record
import HfsPlus.Report.Style
import HfsPlus.Report.Summary
import HfsPlus.Report.Tree
import HfsPlus.Report.Volume
import HfsPlus.Source
import HfsPlus.Structure.Attribute
import HfsPlus.Structure.Catalog
import HfsPlus.Structure.Fork
import HfsPlus.Structure.HotFiles
import HfsPlus.Structure.Node
import HfsPlus.Structure.Volume
import HfsPlus.Text.Lowercase
import HfsPlus.Text.Number
import HfsPlus.Text.Octets
import HfsPlus.Text.Printable
import HfsPlus.Text.Quoted
import HfsPlus.Text.Size
import HfsPlus.Text.Units
import HfsPlus.Tree.Basic
import HfsPlus.Tree.Chain
import HfsPlus.Tree.Node
import HfsPlus.Tree.Search
import HfsPlus.Volume
