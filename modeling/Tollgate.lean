import Tollgate.Admission.Json
import Tollgate.Cache.Json
import Tollgate.Channel.Json
import Tollgate.Config.File
import Tollgate.Config.Json
import Tollgate.Limiter.Json
import Tollgate.Log.Level
import Tollgate.Pricing.Json
import Tollgate.Proofs.Admission.Checking
import Tollgate.Proofs.Admission.Failover
import Tollgate.Proofs.Admission.Rejecting
import Tollgate.Proofs.Admission.Vouching
import Tollgate.Proofs.Batch.Till
import Tollgate.Proofs.Cache.Coherence
import Tollgate.Proofs.Cache.Filling
import Tollgate.Proofs.Cache.Naming
import Tollgate.Proofs.Cache.Readers
import Tollgate.Proofs.Ledger.Auditing
import Tollgate.Proofs.Ledger.Closing
import Tollgate.Proofs.Ledger.Conservation
import Tollgate.Proofs.Ledger.Deciding
import Tollgate.Proofs.Ledger.Dips
import Tollgate.Proofs.Ledger.Lagging
import Tollgate.Proofs.Ledger.Refinement
import Tollgate.Proofs.Ledger.Refusing
import Tollgate.Proofs.Limiter.Sliding
import Tollgate.Proofs.Limiter.Sweeping
import Tollgate.Proofs.Limiter.Windows
import Tollgate.Proofs.Log.Targets
import Tollgate.Proofs.Routing.Cooling
import Tollgate.Proofs.Routing.Expansion
import Tollgate.Proofs.Routing.Fairness
import Tollgate.Proofs.Routing.Flags
import Tollgate.Proofs.Routing.Meaning
import Tollgate.Proofs.Routing.Restoring
import Tollgate.Proofs.Routing.Selection
import Tollgate.Proofs.Routing.Standing
import Tollgate.Remote
import Tollgate.Reply.Json
import Tollgate.Routing.Json
import Tollgate.Store.Json
import Tollgate.Store.Place
import Tollgate.Version
