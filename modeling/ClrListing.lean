import ClrListing.Assembly.Basic
import ClrListing.Assembly.Builder
import ClrListing.Assembly.Method
import ClrListing.Assembly.Primitive
import ClrListing.Binding.Resolver
import ClrListing.CommandLine
import ClrListing.Declaration.Forest
import ClrListing.Diagnostic
import ClrListing.Disk.Basic
import ClrListing.Error
import ClrListing.Image.Executable
import ClrListing.Image.Module
import ClrListing.Listing.Method
import ClrListing.Listing.Node
import ClrListing.Listing.Report
import ClrListing.Log
import ClrListing.Lowering.Compile
import ClrListing.Lowering.Effect
import ClrListing.Lowering.Emission
import ClrListing.Lowering.External
import ClrListing.Lowering.Scope
import ClrListing.Main
import ClrListing.Metadata.Bytes
import ClrListing.Metadata.Layout
import ClrListing.Metadata.Root
import ClrListing.Metadata.Signature
import ClrListing.Metadata.Tables
import ClrListing.Metadata.Token
import ClrListing.Native.Decoder
import ClrListing.Native.Encoding
import ClrListing.Native.Fetch
import ClrListing.Native.Form.Basic
import ClrListing.Native.Form.Media
import ClrListing.Native.Form.System
import ClrListing.Native.Form.Vector
import ClrListing.Native.Form.Whole
import ClrListing.Native.Instruction
import ClrListing.Native.Runtime
import ClrListing.Native.Snapshot.Basic
import ClrListing.Native.Snapshot.Json
import ClrListing.Process
import ClrListing.Proofs.Assembly.Building
import ClrListing.Proofs.Assembly.Naming
import ClrListing.Proofs.Binding.Faithful
import ClrListing.Proofs.Binding.Known
import ClrListing.Proofs.Binding.Lookups
import ClrListing.Proofs.Binding.Own
import ClrListing.Proofs.Binding.Queues
import ClrListing.Proofs.Binding.Requests
import ClrListing.Proofs.Binding.Rounds
import ClrListing.Proofs.Binding.Traversal
import ClrListing.Proofs.Diagnostic
import ClrListing.Proofs.Elements
import ClrListing.Proofs.Image.Names
import ClrListing.Proofs.Image.Owners
import ClrListing.Proofs.Image.Reading
import ClrListing.Proofs.Image.Shares
import ClrListing.Proofs.Listing.Columns
import ClrListing.Proofs.Listing.Ending
import ClrListing.Proofs.Listing.Isolation
import ClrListing.Proofs.Listing.Pieces
import ClrListing.Proofs.Listing.Preparation
import ClrListing.Proofs.Lowering.Alike
import ClrListing.Proofs.Lowering.Arrays
import ClrListing.Proofs.Lowering.Bodies
import ClrListing.Proofs.Lowering.Collapse
import ClrListing.Proofs.Lowering.Compiled
import ClrListing.Proofs.Lowering.Constructions
import ClrListing.Proofs.Lowering.Cuts
import ClrListing.Proofs.Lowering.Deeds
import ClrListing.Proofs.Lowering.Entries
import ClrListing.Proofs.Lowering.Explicit
import ClrListing.Proofs.Lowering.FullNames
import ClrListing.Proofs.Lowering.Insertion
import ClrListing.Proofs.Lowering.Layout
import ClrListing.Proofs.Lowering.Likeness
import ClrListing.Proofs.Lowering.Listed
import ClrListing.Proofs.Lowering.Members
import ClrListing.Proofs.Lowering.Methods
import ClrListing.Proofs.Lowering.Mirrors
import ClrListing.Proofs.Lowering.Names
import ClrListing.Proofs.Lowering.Parts
import ClrListing.Proofs.Lowering.Paths
import ClrListing.Proofs.Lowering.Pushes
import ClrListing.Proofs.Lowering.Records
import ClrListing.Proofs.Lowering.Script
import ClrListing.Proofs.Lowering.Shadowing
import ClrListing.Proofs.Lowering.Simulation
import ClrListing.Proofs.Lowering.Spacing
import ClrListing.Proofs.Lowering.Tables
import ClrListing.Proofs.Lowering.Tallies
import ClrListing.Proofs.Lowering.Tasks
import ClrListing.Proofs.Lowering.Unoptimized
import ClrListing.Proofs.Lowering.Walk
import ClrListing.Proofs.Machine.Cursor
import ClrListing.Proofs.Machine.Declarations
import ClrListing.Proofs.Machine.Decoding
import ClrListing.Proofs.Machine.Descent
import ClrListing.Proofs.Machine.Directory
import ClrListing.Proofs.Machine.Engine
import ClrListing.Proofs.Machine.Forms
import ClrListing.Proofs.Machine.Labels
import ClrListing.Proofs.Machine.Location
import ClrListing.Proofs.Machine.Module
import ClrListing.Proofs.Machine.Rows
import ClrListing.Proofs.Machine.Scanner
import ClrListing.Proofs.Machine.Signature
import ClrListing.Proofs.Machine.Skipping
import ClrListing.Proofs.Machine.Tables
import ClrListing.Proofs.Machine.Word
import ClrListing.Proofs.Metadata.Reads
import ClrListing.Proofs.Metadata.Root
import ClrListing.Proofs.Metadata.Rows
import ClrListing.Proofs.Metadata.Signature
import ClrListing.Proofs.Metadata.Stream
import ClrListing.Proofs.Metadata.Token
import ClrListing.Proofs.Metadata.Values
import ClrListing.Proofs.Native.Fetched
import ClrListing.Proofs.Native.Lookups
import ClrListing.Proofs.Native.Recoded
import ClrListing.Proofs.Native.Written
import ClrListing.Proofs.Run
import ClrListing.Proofs.Source.Following
import ClrListing.Proofs.Source.Placement
import ClrListing.Proofs.Source.Rules
import ClrListing.Proofs.Source.Spelling
import ClrListing.Proofs.Source.Tiles
import ClrListing.Proofs.Syntax.Advances
import ClrListing.Proofs.Syntax.Gaps
import ClrListing.Proofs.Syntax.Identifiers
import ClrListing.Proofs.Syntax.Interfaces
import ClrListing.Proofs.Syntax.Parts
import ClrListing.Proofs.Syntax.Provenance
import ClrListing.Proofs.Syntax.Reread
import ClrListing.Proofs.Syntax.Respaced
import ClrListing.Proofs.Syntax.Runs
import ClrListing.Proofs.Syntax.Spacing
import ClrListing.Proofs.Syntax.Spans
import ClrListing.Proofs.Syntax.WellNamed
import ClrListing.Proofs.Syntax.Written
import ClrListing.Proofs.Text.Json
import ClrListing.Proofs.Text.Search
import ClrListing.Proofs.Text.Utf8
import ClrListing.Script.Arithmetic
import ClrListing.Script.Basic
import ClrListing.Script.Builtin
import ClrListing.Script.Calendar
import ClrListing.Script.Channels
import ClrListing.Script.Expansion
import ClrListing.Script.FileMode
import ClrListing.Script.Launch
import ClrListing.Script.Number
import ClrListing.Script.Pattern
import ClrListing.Script.Reader
import ClrListing.Script.Records.Evaluation
import ClrListing.Script.Records.Machine
import ClrListing.Script.Records.Reader
import ClrListing.Script.Records.Run
import ClrListing.Script.Records.Syntax
import ClrListing.Script.Records.Token
import ClrListing.Script.Records.Value
import ClrListing.Script.Regex
import ClrListing.Script.Runner
import ClrListing.Script.Shell
import ClrListing.Script.Tool.Basic
import ClrListing.Script.Tool.Columns
import ClrListing.Script.Tool.Date
import ClrListing.Script.Tool.DateText
import ClrListing.Script.Tool.Difference
import ClrListing.Script.Tool.Digest
import ClrListing.Script.Tool.Dump
import ClrListing.Script.Tool.Edit
import ClrListing.Script.Tool.EditScript
import ClrListing.Script.Tool.Files
import ClrListing.Script.Tool.Finding
import ClrListing.Script.Tool.Lines
import ClrListing.Script.Tool.Listing
import ClrListing.Script.Tool.Naming
import ClrListing.Script.Tool.Numbers
import ClrListing.Script.Tool.Printing
import ClrListing.Script.Tool.Search
import ClrListing.Script.Tool.Sorting
import ClrListing.Script.Tool.Surroundings
import ClrListing.Script.Tool.Test
import ClrListing.Script.Tool.Translation
import ClrListing.Script.World
import ClrListing.Source.Lexeme
import ClrListing.Source.Scanner
import ClrListing.Syntax.Declaration
import ClrListing.Syntax.Parser.Basic
import ClrListing.Syntax.Parser.Member
import ClrListing.Syntax.Parser.Skip
import ClrListing.Syntax.Parser.TypeExpr
import ClrListing.Syntax.Tree
import ClrListing.Text.Hex
import ClrListing.Text.Json.Reader
import ClrListing.Text.Letter
import ClrListing.Text.Search
import ClrListing.Text.Utf8
