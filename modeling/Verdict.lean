import Verdict.Analysis
import Verdict.Attribute
import Verdict.Cache
import Verdict.CallDependency
import Verdict.Checksum
import Verdict.Checksum.Table
import Verdict.Closure
import Verdict.Command
import Verdict.Declaration
import Verdict.Dependency.Graph
import Verdict.Dependency.Node
import Verdict.Diagnostic
import Verdict.Digest.Sha256
import Verdict.Engine
import Verdict.Engine.Attempt
import Verdict.Engine.Batch
import Verdict.Engine.Ending
import Verdict.Engine.Job
import Verdict.Engine.Phase
import Verdict.Engine.RequestId
import Verdict.Engine.Requests
import Verdict.Engine.Roster
import Verdict.Engine.Selection
import Verdict.Engine.Shared
import Verdict.Engine.Ticket
import Verdict.Expr
import Verdict.Expr.Descent
import Verdict.Expr.Variables
import Verdict.Fault
import Verdict.Fingerprint
import Verdict.Location
import Verdict.Options
import Verdict.Options.Document
import Verdict.Outcome
import Verdict.Output
import Verdict.Program
import Verdict.Proofs.Analysis
import Verdict.Proofs.Cache
import Verdict.Proofs.Cache.History
import Verdict.Proofs.CallDependency
import Verdict.Proofs.Checksum
import Verdict.Proofs.Checksum.Closure
import Verdict.Proofs.Checksum.Dependency
import Verdict.Proofs.Checksum.Moving
import Verdict.Proofs.Checksum.Reaction
import Verdict.Proofs.Checksum.Replacement
import Verdict.Proofs.Checksum.Table
import Verdict.Proofs.Closure
import Verdict.Proofs.Dependency.Polarity
import Verdict.Proofs.Dependency.Relevance
import Verdict.Proofs.Engine.Accounts
import Verdict.Proofs.Engine.Answerable
import Verdict.Proofs.Engine.Backing
import Verdict.Proofs.Engine.Course
import Verdict.Proofs.Engine.Earned
import Verdict.Proofs.Engine.Expectation
import Verdict.Proofs.Engine.Growth
import Verdict.Proofs.Engine.Happening
import Verdict.Proofs.Engine.Interleaving
import Verdict.Proofs.Engine.Keeping
import Verdict.Proofs.Engine.Lineage
import Verdict.Proofs.Engine.Registry
import Verdict.Proofs.Engine.Registry.History
import Verdict.Proofs.Engine.Repetition
import Verdict.Proofs.Engine.Reports
import Verdict.Proofs.Engine.Requests
import Verdict.Proofs.Engine.Rest
import Verdict.Proofs.Engine.Roster
import Verdict.Proofs.Engine.Schedule
import Verdict.Proofs.Engine.Selection
import Verdict.Proofs.Engine.Selection.Order
import Verdict.Proofs.Engine.Sessions
import Verdict.Proofs.Engine.Standing
import Verdict.Proofs.Engine.Stopping
import Verdict.Proofs.Engine.Told
import Verdict.Proofs.Engine.Traceless
import Verdict.Proofs.Engine.Transition
import Verdict.Proofs.Engine.Turn
import Verdict.Proofs.Engine.Undisturbed
import Verdict.Proofs.Engine.Writing
import Verdict.Proofs.Expr.Free
import Verdict.Proofs.Expr.Occurrence
import Verdict.Proofs.Expr.Untriggered
import Verdict.Proofs.Expr.Walk
import Verdict.Proofs.Fingerprint.Assignment
import Verdict.Proofs.Fingerprint.Attribute
import Verdict.Proofs.Fingerprint.Command
import Verdict.Proofs.Fingerprint.Expr
import Verdict.Proofs.Fingerprint.Implementation
import Verdict.Proofs.Fingerprint.Renaming
import Verdict.Proofs.Fingerprint.Stream
import Verdict.Proofs.Fingerprint.Written
import Verdict.Proofs.Location
import Verdict.Proofs.Options
import Verdict.Proofs.Output
import Verdict.Proofs.Output.History
import Verdict.Proofs.Output.Queue
import Verdict.Proofs.Output.Refusal
import Verdict.Proofs.Program
import Verdict.Proofs.Pruning.Contracts
import Verdict.Proofs.Pruning.Idempotent
import Verdict.Proofs.Pruning.Kept
import Verdict.Proofs.Pruning.Monotone
import Verdict.Proofs.Pruning.References
import Verdict.Proofs.Pruning.WhereClauses
import Verdict.Proofs.Rehearsal
import Verdict.Proofs.Report
import Verdict.Proofs.SetFamily.Listing
import Verdict.Proofs.SetFamily.Members
import Verdict.Proofs.SetFamily.Ranks
import Verdict.Proofs.SetFamily.Search
import Verdict.Proofs.SetFamily.Tree
import Verdict.Proofs.Sorting
import Verdict.Proofs.Statistics
import Verdict.Proofs.Text.Quoted
import Verdict.Proofs.Text.Separated
import Verdict.Proofs.Text.Utf8
import Verdict.Proofs.Wildcard
import Verdict.Proofs.Wildcard.Trial
import Verdict.Pruning
import Verdict.Pruning.WhereClauses
import Verdict.Rehearsal.Play
import Verdict.Rehearsal.Script
import Verdict.Rehearsal.Stage
import Verdict.Report
import Verdict.SessionPool
import Verdict.SetFamily
import Verdict.Statistics
import Verdict.Text.Quoted
import Verdict.Text.Seconds
import Verdict.Text.Shown
import Verdict.Toml.Reader
import Verdict.Toml.Scalar
import Verdict.Toml.Value
import Verdict.Toml.Writer
import Verdict.Wildcard
import Verdict.Wildcard.Expression
