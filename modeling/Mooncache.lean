import Mooncache.Gateway.SingleflightSafety
import Mooncache.Gateway.Coalescing
import Mooncache.Gateway.Fingerprint
import Mooncache.Gateway.Routing
import Mooncache.Gateway.ReadIsolation
import Mooncache.Gateway.Visibility
import Mooncache.Gateway.FailOpen
import Mooncache.Gateway.Reservation
import Mooncache.Gateway.Artifacts
import Mooncache.Master.QuotaAccounting
import Mooncache.Master.Failover
import Mooncache.Master.LeaseSafety
import Mooncache.Master.ExactEviction
import Mooncache.Master.Refusal
import Mooncache.Master.Placements
import Mooncache.Master.TenantIsolation
import Mooncache.Master.Footprint
import Mooncache.Master.StandbyReads
import Mooncache.Master.Election
import Mooncache.Master.FleetHistory
import Mooncache.Store.Isolation
import Mooncache.Store.Restart
import Mooncache.Store.Agreement
import Mooncache.Store.MemoryBounds
import Mooncache.Store.Recovery
import Mooncache.Gateway.TenantFile
import Mooncache.Gateway.Sse
import Mooncache.Gateway.Queries
import Mooncache.Gateway.NonCaching
import Mooncache.Gateway.Metrics
import Mooncache.Gateway.LocalCommit
import Mooncache.Gateway.Quiescence
import Mooncache.Gateway.Transparency
import Mooncache.Gateway.Remote
import Mooncache.Gateway.StoreWire
import Mooncache.Gateway.Deployment
import Mooncache.Store.ObjectNames
import Mooncache.Store.SsdKey
import Mooncache.Admin.AuditTrail
