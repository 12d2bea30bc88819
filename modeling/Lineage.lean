import Lineage.Browser.Canvas
import Lineage.Browser.Details
import Lineage.Browser.Export
import Lineage.Browser.Preview
import Lineage.Browser.Screen
import Lineage.Browser.Session
import Lineage.Browser.Styled
import Lineage.Browser.Window
import Lineage.Census
import Lineage.CommandLine.Arguments
import Lineage.CommandLine.Run
import Lineage.Data.Basic
import Lineage.Data.Decode
import Lineage.Data.Json
import Lineage.Data.Toml
import Lineage.Declaration
import Lineage.Declaration.Codec
import Lineage.Files.Disk
import Lineage.Files.Glob
import Lineage.Files.Ignore
import Lineage.Files.Path
import Lineage.Files.Survey
import Lineage.Forest.Basic
import Lineage.Forest.Links
import Lineage.Forest.Table
import Lineage.Language
import Lineage.Main
import Lineage.Number.Binary
import Lineage.Number.Decimal
import Lineage.Outline
import Lineage.Pattern.Basic
import Lineage.Pattern.Match
import Lineage.Proofs.Ancestry
import Lineage.Proofs.BlockEnds
import Lineage.Proofs.Blocks
import Lineage.Proofs.ByteOrder
import Lineage.Proofs.ByteReading
import Lineage.Proofs.Catalogue
import Lineage.Proofs.Census
import Lineage.Proofs.Chain
import Lineage.Proofs.Clauses
import Lineage.Proofs.CommentScan
import Lineage.Proofs.Comments
import Lineage.Proofs.Depth
import Lineage.Proofs.Descendants
import Lineage.Proofs.Excerpt
import Lineage.Proofs.Following
import Lineage.Proofs.Forest
import Lineage.Proofs.Heritage
import Lineage.Proofs.Indentation
import Lineage.Proofs.Insertion
import Lineage.Proofs.Insight
import Lineage.Proofs.Isolation
import Lineage.Proofs.Json
import Lineage.Proofs.LineEndings
import Lineage.Proofs.Lines
import Lineage.Proofs.Linking
import Lineage.Proofs.Links
import Lineage.Proofs.Listing
import Lineage.Proofs.Locality
import Lineage.Proofs.Loops
import Lineage.Proofs.Navigation
import Lineage.Proofs.Nesting
import Lineage.Proofs.Offsets
import Lineage.Proofs.Pages
import Lineage.Proofs.Paths
import Lineage.Proofs.Permutation
import Lineage.Proofs.Preorder
import Lineage.Proofs.Preview
import Lineage.Proofs.Rails
import Lineage.Proofs.Renaming
import Lineage.Proofs.Returns
import Lineage.Proofs.Routes
import Lineage.Proofs.Session
import Lineage.Proofs.Siblings
import Lineage.Proofs.Survey
import Lineage.Proofs.Table
import Lineage.Proofs.Tally
import Lineage.Proofs.Targets
import Lineage.Proofs.Truncation
import Lineage.Proofs.Twins
import Lineage.Proofs.Walk
import Lineage.Settings
import Lineage.Source.Block
import Lineage.Source.Brace
import Lineage.Source.Classes
import Lineage.Source.Grammar
import Lineage.Source.Heritage
import Lineage.Source.Layout
import Lineage.Source.Method
import Lineage.Source.Offset
import Lineage.Text.Blank
import Lineage.Text.Cluster
import Lineage.Text.Emoji
import Lineage.Text.Hidden
import Lineage.Text.Measure
import Lineage.Text.Quoted
import Lineage.Text.Spans
import Lineage.Text.Truncate
import Lineage.Text.Utf8
import Lineage.Text.Width
import Lineage.Text.Word
