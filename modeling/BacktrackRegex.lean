import BacktrackRegex.Main
import BacktrackRegex.Pattern.Grammar
import BacktrackRegex.Pattern.Printer
import BacktrackRegex.Pattern.Results
import BacktrackRegex.Regex.Log
import BacktrackRegex.Search.EveryPosition
import BacktrackRegex.Proofs.Search.Move
import BacktrackRegex.Proofs.Search.Settles
import BacktrackRegex.Proofs.Search.Yields
import BacktrackRegex.Proofs.Pattern.Numbered
import BacktrackRegex.Proofs.Graph.Fragment
import BacktrackRegex.Proofs.Pattern.Follows
import BacktrackRegex.Proofs.Search.Idle
import BacktrackRegex.Proofs.Graph.Carries
import BacktrackRegex.Proofs.Search.Attempt
import BacktrackRegex.Proofs.StartPredicate
import BacktrackRegex.Proofs.Search.Scan
import BacktrackRegex.Proofs.Search.OneWalk
import BacktrackRegex.Proofs.Search.Course
import BacktrackRegex.Proofs.Search.Items
import BacktrackRegex.Proofs.Search.Budget
import BacktrackRegex.Proofs.Pattern.Quantifier
import BacktrackRegex.Proofs.Pattern.Escape
import BacktrackRegex.Proofs.Pattern.Leaf
import BacktrackRegex.Proofs.Pattern.Tally
import BacktrackRegex.Proofs.Pattern.Accepts
import BacktrackRegex.Proofs.Graph.Closed
import BacktrackRegex.Proofs.Search.Sound
import BacktrackRegex.Search.Matcher
import BacktrackRegex.Proofs.Search.Reuse
import BacktrackRegex.Proofs.Search.Safety
import BacktrackRegex.Proofs.Search.Iteration
import BacktrackRegex.Proofs.Search.Calls
import BacktrackRegex.Proofs.Search.Shift
import BacktrackRegex.Proofs.Pattern.Order
import BacktrackRegex.Proofs.Search.Order
import BacktrackRegex.Proofs.Pattern.Written
import BacktrackRegex.Proofs.Pattern.Retrace
import BacktrackRegex.Proofs.Pattern.Nested
import BacktrackRegex.Proofs.Search.Nesting
import BacktrackRegex.Proofs.Text.LowerCase
import BacktrackRegex.Proofs.Search.LetterCase
import BacktrackRegex.Proofs.Pattern.Filled
import BacktrackRegex.Proofs.Graph.Block
import BacktrackRegex.Proofs.Graph.Parts
import BacktrackRegex.Proofs.Graph.WellFormed
import BacktrackRegex.Proofs.Graph.Owner
import BacktrackRegex.Proofs.Search.Ledger
import BacktrackRegex.Proofs.Search.Trail
import BacktrackRegex.Proofs.Search.Record
import BacktrackRegex.Proofs.Graph.Entered
import BacktrackRegex.Proofs.Graph.Origin
import BacktrackRegex.Proofs.Graph.Scope
import BacktrackRegex.Proofs.Search.Configuration
import BacktrackRegex.Proofs.Search.Bookkeeping
import BacktrackRegex.Proofs.Search.Inside
import BacktrackRegex.Proofs.Search.Lookahead
import BacktrackRegex.Proofs.Pattern.Spelled
import BacktrackRegex.Proofs.Pattern.InOrder
import BacktrackRegex.Proofs.Text.CaseVariants
import BacktrackRegex.Proofs.Search.Depth
import BacktrackRegex.Proofs.Pattern.Faults
import BacktrackRegex.Proofs.Graph.Size
import BacktrackRegex.Proofs.Search.Counters
import BacktrackRegex.Proofs.Search.Unroll
import BacktrackRegex.Proofs.Text.Comparison
