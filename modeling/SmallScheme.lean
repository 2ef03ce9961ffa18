import SmallScheme.Main
import SmallScheme.Proofs.Acceptance
import SmallScheme.Proofs.Adequacy
import SmallScheme.Proofs.Depth
import SmallScheme.Proofs.Expansion
import SmallScheme.Proofs.Frames.Evaluation
import SmallScheme.Proofs.Limit
import SmallScheme.Proofs.Literals.Integers
import SmallScheme.Proofs.OwnFrames
import SmallScheme.Proofs.Pieces
import SmallScheme.Proofs.Recursion
import SmallScheme.Proofs.Reserved
import SmallScheme.Proofs.RoundTrip
import SmallScheme.Proofs.Seams
import SmallScheme.Proofs.TailMarks.Position
import SmallScheme.Proofs.TailMarks.Unmarked
import SmallScheme.Proofs.Unmentioned
import SmallScheme.Proofs.Frames.Trees
import SmallScheme.Proofs.Positions
import SmallScheme.Proofs.Truncation
import SmallScheme.Proofs.Observation
import SmallScheme.Proofs.Alike
import SmallScheme.Proofs.Conditionals
import SmallScheme.Proofs.Arithmetic
import SmallScheme.Proofs.Division
import SmallScheme.Proofs.Calls
import SmallScheme.Proofs.Strict
import SmallScheme.Proofs.Comparison
import SmallScheme.Proofs.Equality
import SmallScheme.Proofs.Profile
