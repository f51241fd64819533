import ParseTrail.Parser.Catalog
import ParseTrail.Parser.Run
import ParseTrail.Report.Json
import ParseTrail.Proofs.Engine
import ParseTrail.Proofs.Engine.Simulation
import ParseTrail.Proofs.Outcome
import ParseTrail.Proofs.Session.Likeness
import ParseTrail.Proofs.Text.Lines
import ParseTrail.Proofs.Cursor.Extension
import ParseTrail.Proofs.Session.Outcome
import ParseTrail.Proofs.Session.Steady
import ParseTrail.Proofs.Backtracking
import ParseTrail.Proofs.Source
import ParseTrail.Proofs.Cursor.View
import ParseTrail.Proofs.Cursor.Lines
import ParseTrail.Proofs.Session.SameText
import ParseTrail.Proofs.Streaming
import ParseTrail.Proofs.Meaning
import ParseTrail.Proofs.Meaning.Lists
import ParseTrail.Proofs.Meaning.Runs
import ParseTrail.Proofs.Meaning.Session
import ParseTrail.Proofs.Trail.Linked
import ParseTrail.Proofs.Trail.Reach
import ParseTrail.Proofs.Report
import ParseTrail.Proofs.Trail.Forest
import ParseTrail.Proofs.Cursor.Forward
import ParseTrail.Proofs.Blame
import ParseTrail.Proofs.Ranges
import ParseTrail.Proofs.Cursor.Undisturbed
import ParseTrail.Proofs.Session.Log
import ParseTrail.Proofs.Unrecoverable
import ParseTrail.Proofs.Text.Places
import ParseTrail.Proofs.Uses
import ParseTrail.Proofs.Positions
import ParseTrail.Proofs.Trail.Walks
import ParseTrail.Proofs.Trail.Operations
import ParseTrail.Proofs.Trail.Ordered
import ParseTrail.Proofs.Session.Chronicle
import ParseTrail.Proofs.Session.Moments
import ParseTrail.Proofs.Recording
import ParseTrail.Proofs.Session.Sites
import ParseTrail.Proofs.Meaning.Alternatives
import ParseTrail.Proofs.Meaning.Similar
import ParseTrail.Proofs.Modifiers
import ParseTrail.Proofs.Session.Limit
import ParseTrail.Proofs.DepthLimit
import ParseTrail.Proofs.Text.Counted
import ParseTrail.Proofs.Cursor.Back
import ParseTrail.Proofs.Bookmark
import ParseTrail.Proofs.Tracking
import ParseTrail.Proofs.Trail.Marks
import ParseTrail.Proofs.Trail.Deferred
import ParseTrail.Proofs.Session.Ledger
import ParseTrail.Proofs.Dissolution
import ParseTrail.Proofs.Cursor.Replay
import ParseTrail.Proofs.Pulling
import ParseTrail.Proofs.Session.Bounds
import ParseTrail.Proofs.Session.Fuel
import ParseTrail.Proofs.Termination
import ParseTrail.Proofs.Trail.Copies
import ParseTrail.Proofs.Trimming
import ParseTrail.Proofs.Trail.Dissolved
import ParseTrail.Proofs.Cursor.Alongside
import ParseTrail.Proofs.Cursor.Seek
import ParseTrail.Proofs.Seeking
import ParseTrail.Proofs.Session.Mismatch
import ParseTrail.Proofs.Session.Boundaries
import ParseTrail.Proofs.Pointing
import ParseTrail.Proofs.LookingAhead
import ParseTrail.Proofs.Cursor.Frontier
import ParseTrail.Proofs.Text.WellFormed
import ParseTrail.Proofs.Decoding
import ParseTrail.Proofs.ReadingOn
import ParseTrail.Proofs.Underlining
import ParseTrail.Proofs.Cursor.Passage
import ParseTrail.Proofs.Verbatim
import ParseTrail.Proofs.Cells
import ParseTrail.Proofs.Session.Retention
import ParseTrail.Proofs.Rendering
import ParseTrail.Proofs.Session.Labelled
import ParseTrail.Proofs.Trail.Crowned
import ParseTrail.Proofs.Labels
import ParseTrail.Proofs.LineNumbers
import ParseTrail.Proofs.Session.Closed
import ParseTrail.Proofs.Session.Nesting
import ParseTrail.Proofs.Meaning.Landing
import ParseTrail.Proofs.Meaning.Characters
import ParseTrail.Proofs.Session.Leaf
import ParseTrail.Proofs.Decimal
import ParseTrail.Proofs.Separated
import ParseTrail.Proofs.Session.Blind
import ParseTrail.Proofs.Session.Trying
import ParseTrail.Proofs.Chains
