import ResourcePool.Demo.Advanced
import ResourcePool.Demo.Waiting
import ResourcePool.Main
import ResourcePool.Metrics.Document
import ResourcePool.Program.Run
import ResourcePool.Program.Search
import ResourcePool.Strategy.Document
import ResourcePool.Workload.LeakCount
import ResourcePool.Workload.Race
import ResourcePool.Proofs.Client
import ResourcePool.Proofs.Client.Agreement
import ResourcePool.Proofs.Exclusion
import ResourcePool.Proofs.Run.Calls
import ResourcePool.Proofs.Run.Program
import ResourcePool.Proofs.History
import ResourcePool.Proofs.History.Change
import ResourcePool.Proofs.Hinting
import ResourcePool.Proofs.Guards
import ResourcePool.Proofs.Values
import ResourcePool.Proofs.Closing
import ResourcePool.Proofs.Disposal
import ResourcePool.Proofs.Orderly
import ResourcePool.Proofs.Turnover
import ResourcePool.Proofs.Ledger
import ResourcePool.Proofs.Shutdown
import ResourcePool.Proofs.Custody
import ResourcePool.Proofs.Veil
import ResourcePool.Proofs.Transparency
import ResourcePool.Proofs.LeakTracking
import ResourcePool.Proofs.Callers
import ResourcePool.Proofs.LastReturn
import ResourcePool.Proofs.Sharing
import ResourcePool.Proofs.Independence
import ResourcePool.Proofs.Caching
import ResourcePool.Proofs.Scan.Stale
import ResourcePool.Proofs.Rollback
import ResourcePool.Proofs.Creation
import ResourcePool.Proofs.Refusals
import ResourcePool.Proofs.Selection
import ResourcePool.Proofs.Rounds
import ResourcePool.Proofs.ByHand
import ResourcePool.Proofs.Warmup
import ResourcePool.Proofs.Scan.Checked
import ResourcePool.Proofs.LeakCounts
import ResourcePool.Proofs.Exposition.Reader
import ResourcePool.Proofs.Health
import ResourcePool.Proofs.Exposition.Blocks
import ResourcePool.Proofs.NamedHints
