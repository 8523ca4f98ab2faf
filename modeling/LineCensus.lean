import LineCensus.Census.Enumerator
import LineCensus.Census.Scan
import LineCensus.Census.Table
import LineCensus.Census.Totals
import LineCensus.Census.Walk
import LineCensus.Command.Arguments
import LineCensus.Command.Session
import LineCensus.Command.Switch
import LineCensus.Config
import LineCensus.Count
import LineCensus.Decimal.Binary64
import LineCensus.Decimal.Fixed
import LineCensus.Decimal.Reading
import LineCensus.Decimal.Shortest
import LineCensus.FileTree
import LineCensus.Filespec
import LineCensus.Glob
import LineCensus.Ignore
import LineCensus.Language
import LineCensus.Line.Kind
import LineCensus.Line.Reconcile
import LineCensus.Line.Stats
import LineCensus.Log
import LineCensus.Main
import LineCensus.Options
import LineCensus.Path
import LineCensus.Proofs.Census.Arrivals
import LineCensus.Proofs.Census.Deletion
import LineCensus.Proofs.Census.Enumerator
import LineCensus.Proofs.Census.Failures
import LineCensus.Proofs.Census.Ignoring
import LineCensus.Proofs.Census.Limits
import LineCensus.Proofs.Census.Lookup
import LineCensus.Proofs.Census.Merging
import LineCensus.Proofs.Census.Recording
import LineCensus.Proofs.Census.Scan
import LineCensus.Proofs.Census.Selection
import LineCensus.Proofs.Census.Table
import LineCensus.Proofs.Census.Totals
import LineCensus.Proofs.Census.Unreadable
import LineCensus.Proofs.Census.Walk
import LineCensus.Proofs.Config.Refusal
import LineCensus.Proofs.Count.Confirmation
import LineCensus.Proofs.Count.Conservation
import LineCensus.Proofs.Count.LineEnds
import LineCensus.Proofs.Count.Reading
import LineCensus.Proofs.Count.Roles
import LineCensus.Proofs.Count.Writing
import LineCensus.Proofs.FileTree.Files
import LineCensus.Proofs.FileTree.Loss
import LineCensus.Proofs.FileTree.Removal
import LineCensus.Proofs.FileTree.Resolution
import LineCensus.Proofs.FileTree.Way
import LineCensus.Proofs.Glob.Brackets
import LineCensus.Proofs.Glob.Separator
import LineCensus.Proofs.Line.Conservation
import LineCensus.Proofs.Line.Reconciliation
import LineCensus.Proofs.Path.Extension
import LineCensus.Proofs.Path.Text
import LineCensus.Proofs.Role.Attribute
import LineCensus.Proofs.Role.Block
import LineCensus.Proofs.Role.Condition
import LineCensus.Proofs.Role.Counters
import LineCensus.Proofs.Role.LineComment
import LineCensus.Proofs.Role.Mask
import LineCensus.Proofs.Role.Reach
import LineCensus.Proofs.Role.Scope
import LineCensus.Proofs.Scanner.Absorption
import LineCensus.Proofs.Scanner.BlankLines
import LineCensus.Proofs.Scanner.Braces
import LineCensus.Proofs.Scanner.Classification
import LineCensus.Proofs.Scanner.CommentStatement
import LineCensus.Proofs.Scanner.Concatenation
import LineCensus.Proofs.Scanner.Continuation
import LineCensus.Proofs.Scanner.Depths
import LineCensus.Proofs.Scanner.Indentation
import LineCensus.Proofs.Scanner.Marks
import LineCensus.Proofs.Scanner.Nesting
import LineCensus.Proofs.Scanner.Openers
import LineCensus.Proofs.Scanner.Position
import LineCensus.Proofs.Scanner.Turns
import LineCensus.Proofs.Text.Edges
import LineCensus.Proofs.Text.LowerCase
import LineCensus.Proofs.Text.Quoted
import LineCensus.Proofs.Text.Search
import LineCensus.Proofs.Text.Utf8
import LineCensus.Report.Analysis
import LineCensus.Report.Layout
import LineCensus.Report.Progress
import LineCensus.Role.Attribute
import LineCensus.Role.Basic
import LineCensus.Role.Lexeme
import LineCensus.Role.Location
import LineCensus.Role.Tracker
import LineCensus.Scanner.Algol
import LineCensus.Scanner.Basic
import LineCensus.Scanner.Columns
import LineCensus.Scanner.Dcl
import LineCensus.Scanner.Delimited
import LineCensus.Scanner.Docstring
import LineCensus.Scanner.Documentation
import LineCensus.Scanner.Pascal
import LineCensus.Scanner.Registry
import LineCensus.Scanner.WholeLine
import LineCensus.Setting
import LineCensus.SystemError
import LineCensus.Text.Alphanumeric
import LineCensus.Text.Base64
import LineCensus.Text.Blank
import LineCensus.Text.CharTable
import LineCensus.Text.Digit
import LineCensus.Text.Integer
import LineCensus.Text.Lines
import LineCensus.Text.LowerCase
import LineCensus.Text.Printable
import LineCensus.Text.Quoted
import LineCensus.Text.Search
import LineCensus.Text.Utf8
import LineCensus.Yaml.BlockScalar
import LineCensus.Yaml.Cursor
import LineCensus.Yaml.Document
import LineCensus.Yaml.Graph
import LineCensus.Yaml.Layout
import LineCensus.Yaml.Moment
import LineCensus.Yaml.Node
import LineCensus.Yaml.Number
import LineCensus.Yaml.PlainScalar
import LineCensus.Yaml.QuotedScalar
import LineCensus.Yaml.Reader
import LineCensus.Yaml.Schema
import LineCensus.Yaml.Token
import LineCensus.Yaml.Value
