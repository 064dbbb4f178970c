import Forwarding.Main
import Forwarding.Registry
import Forwarding.Proofs.Forest.Ancestry
import Forwarding.Proofs.Forest.Growth
import Forwarding.Proofs.Program.Numbering
import Forwarding.Proofs.Program.Rebuilding
import Forwarding.Proofs.Group.Grouping
import Forwarding.Proofs.Group.Positions
import Forwarding.Proofs.Candidate.ForwardName
import Forwarding.Proofs.Candidate.SuffixCut
import Forwarding.Proofs.Generation.TopDown
import Forwarding.Proofs.Generation.Placement
import Forwarding.Proofs.Generation.Agreement
import Forwarding.Proofs.Generation.Accounting
import Forwarding.Proofs.Text.Lines
import Forwarding.Proofs.Text.Utf8
import Forwarding.Proofs.Path.Absolute
import Forwarding.Proofs.Path.Below
import Forwarding.Table
import Forwarding.Proofs.FileTree.Walking
import Forwarding.Proofs.FileTree.Writing
import Forwarding.Proofs.Glob.Ending
import Forwarding.Proofs.Scan.Kept
import Forwarding.Proofs.Run.Reading
import Forwarding.Proofs.Run.Outcome
import Forwarding.Proofs.Run.Again
import Forwarding.Proofs.Emission.Layout
import Forwarding.Proofs.Generation.Locality
import Forwarding.Proofs.Generation.InputOrder
import Forwarding.Proofs.Scan.Order
import Forwarding.Proofs.Syntax.Reading
import Forwarding.Proofs.Syntax.GrammarLaws
import Forwarding.Proofs.Outline.Bodies
import Forwarding.Proofs.Syntax.Positions
import Forwarding.Proofs.Outline.DocumentOrder
import Forwarding.Proofs.Syntax.Lookahead
import Forwarding.Proofs.Syntax.Quotes
import Forwarding.Proofs.Syntax.Scanning
import Forwarding.Proofs.Syntax.Comments
import Forwarding.Proofs.Syntax.Relexing
import Forwarding.Proofs.Syntax.Likeness
import Forwarding.Proofs.Outline.Quotations
import Forwarding.Proofs.Outline.Uncommented
import Forwarding.Proofs.Generation.Comments
import Forwarding.Proofs.Forest.NamespacePath
import Forwarding.Proofs.TypeName.Layout
import Forwarding.Proofs.Syntax.Apart
import Forwarding.Proofs.Outline.FunctionPlaces
import Forwarding.Proofs.Outline.LocalFunctions
import Forwarding.Proofs.Generation.LocalFunctions
import Forwarding.Proofs.TypeName.Tokens
import Forwarding.Proofs.TypeName.Chains
import Forwarding.Proofs.TypeName.Aliases
import Forwarding.Proofs.TypeName.Substitution
import Forwarding.Proofs.TypeName.ByReference
import Forwarding.Proofs.TypeName.Separators
import Forwarding.Proofs.TypeName.Unplaced
import Forwarding.Proofs.TypeName.Spacing
import Forwarding.Proofs.TypeName.FixedPoints
import Forwarding.Proofs.Text.Words
import Forwarding.Proofs.TypeName.Index
import Forwarding.Proofs.Parameter.Keywords
import Forwarding.Proofs.Parameter.Parts
import Forwarding.Proofs.Parameter.RoundTrip
import Forwarding.Proofs.Syntax.PartOrder
import Forwarding.Proofs.Parameter.TwoReaders
import Forwarding.Proofs.Parameter.ByteOffsets
import Forwarding.Proofs.Json.RoundTrip
import Forwarding.Proofs.FileTree.Members
import Forwarding.Proofs.Summary.ReadBack
import Forwarding.Proofs.FileTree.Volume
import Forwarding.Proofs.OutputFolder.Session
import Forwarding.Proofs.OutputFolder.Confined
import Forwarding.Proofs.Text.ByteOrder
import Forwarding.Proofs.Scan.Partition
