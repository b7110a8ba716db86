import WatchedTree.Connection.Rehearsal
import WatchedTree.Panel
import WatchedTree.Refresh.Pact
import WatchedTree.Settings.Source
import WatchedTree.Store.Guarded
import WatchedTree.World.Workbench
import WatchedTree.Proofs.Path.Descent
import WatchedTree.Proofs.Store.Calls
import WatchedTree.Proofs.Store.Fence
import WatchedTree.Proofs.World.Command
import WatchedTree.Proofs.Ensemble.Tree
import WatchedTree.Proofs.Text.Sorting
import WatchedTree.Proofs.Ensemble.Children
import WatchedTree.Proofs.Ensemble.Watches
import WatchedTree.Proofs.Store.Entries
import WatchedTree.Proofs.Store.Answers
import WatchedTree.Proofs.Store.Recency
import WatchedTree.Proofs.Store.LeastRecent
import WatchedTree.Proofs.Store.Expiry
import WatchedTree.Proofs.Store.Indexing
import WatchedTree.Proofs.Store.Capacity
import WatchedTree.Proofs.Store.Removal
import WatchedTree.Proofs.Cache.Reconcile
import WatchedTree.Proofs.World.Quiet
import WatchedTree.Proofs.World.Visit
import WatchedTree.Proofs.World.Sound
import WatchedTree.Proofs.World.Reached
import WatchedTree.Proofs.Mirror.Changes
import WatchedTree.Proofs.Connection.Steady
import WatchedTree.Proofs.Mirror.Fetches
import WatchedTree.Proofs.Mirror.Hearing
import WatchedTree.Proofs.Mirror.Upkeep
import WatchedTree.Proofs.Mirror.Following
import WatchedTree.Proofs.Mirror.Convergence
import WatchedTree.Proofs.World.Journal
import WatchedTree.Proofs.World.Absence
import WatchedTree.Proofs.Sweep.Plan
import WatchedTree.Proofs.Sweep.Stage
import WatchedTree.Proofs.Sweep.Fetches
import WatchedTree.Proofs.World.Ledger
import WatchedTree.Proofs.Sweep.Running
import WatchedTree.Proofs.Sweep.Drain
import WatchedTree.Proofs.Sweep.Refresh
import WatchedTree.Proofs.Cache.Delivery
import WatchedTree.Proofs.World.Delivery
import WatchedTree.Proofs.Connection.Reopening
import WatchedTree.Proofs.Connection.Calls
import WatchedTree.Proofs.Connection.BoundedQueue
import WatchedTree.Proofs.Connection.Accounting
import WatchedTree.Proofs.Connection.Metering
import WatchedTree.Proofs.Connection.Timeout
import WatchedTree.Proofs.World.Incident
import WatchedTree.Proofs.World.Deeds
import WatchedTree.Proofs.World.Answering
import WatchedTree.Proofs.World.Transcript
import WatchedTree.Proofs.World.Serving
import WatchedTree.Proofs.World.Lasting
import WatchedTree.Proofs.Refresh.Tally
import WatchedTree.Proofs.Refresh.Ending
import WatchedTree.Proofs.Refresh.Completion
import WatchedTree.Proofs.Refresh.Answers
import WatchedTree.Proofs.Cache.Script
import WatchedTree.Proofs.World.Script
import WatchedTree.Proofs.Connection.Ownership
import WatchedTree.Proofs.Connection.Closed
import WatchedTree.Proofs.Mirror.Hosting
import WatchedTree.Proofs.Mirror.Portrait
import WatchedTree.Proofs.Mirror.SingleNode
import WatchedTree.Proofs.Mirror.SingleConvergence
import WatchedTree.Proofs.Ensemble.Time
import WatchedTree.Proofs.World.Recall
import WatchedTree.Proofs.World.RemoteTime
import WatchedTree.Proofs.World.Waiting
import WatchedTree.Proofs.World.CutOff
import WatchedTree.Proofs.World.Reading
import WatchedTree.Proofs.World.Handover
import WatchedTree.Proofs.World.Closing
import WatchedTree.Proofs.World.Shape
import WatchedTree.Proofs.World.Telling
import WatchedTree.Proofs.Cache.Owing
import WatchedTree.Proofs.World.Notices
import WatchedTree.Proofs.World.Likeness
import WatchedTree.Proofs.World.Twins
import WatchedTree.Proofs.World.Heard
import WatchedTree.Proofs.World.Pace
import WatchedTree.Proofs.Refresh.Tokens
import WatchedTree.Proofs.Refresh.Cancellation
import WatchedTree.Proofs.World.Reconciling
import WatchedTree.Proofs.World.Untouched
import WatchedTree.Proofs.World.Failing
import WatchedTree.Proofs.Path.Correspondence
import WatchedTree.Proofs.History
import WatchedTree.Proofs.Refresh.Protocol
import WatchedTree.Proofs.Store.Tombstones
import WatchedTree.Proofs.Store.Telling
import WatchedTree.Proofs.Cache.Calling
import WatchedTree.Proofs.Cache.Building
import WatchedTree.Proofs.Ensemble.Offspring
import WatchedTree.Proofs.Ensemble.Armed
import WatchedTree.Proofs.Ensemble.Firing
import WatchedTree.Proofs.Settings.Fields
import WatchedTree.Proofs.Settings.Overlay
import WatchedTree.Proofs.Settings.Layering
import WatchedTree.Proofs.Store.Eviction
import WatchedTree.Proofs.Connection.Queueing
