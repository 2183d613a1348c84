import Nanogate.Semantics.Machine
import Nanogate.Semantics.Program
import Nanogate.Python.JsonText
import Nanogate.Python.JsonParsed
import Nanogate.Bus.Message
import Nanogate.Bus.System
import Nanogate.Bus.Provenance
import Nanogate.Bus.Isolation
import Nanogate.Bus.Conservation
import Nanogate.Bus.Outcomes
import Nanogate.Bus.Chained
import Nanogate.Bus.StreamUrl
import Nanogate.Bus.Subscription
import Nanogate.Bus.Wire
import Nanogate.Bus.EventStream
import Nanogate.Approval.SessionCheck
import Nanogate.Approval.SameSession
import Nanogate.Approval.Once
import Nanogate.Approval.Attribution
import Nanogate.Approval.Gateway
import Nanogate.Approval.Reported
import Nanogate.Approval.Listing
import Nanogate.Approval.Callbacks
import Nanogate.History.Turns
import Nanogate.History.Search
import Nanogate.History.RoundTrip
import Nanogate.History.LostWorkspace
import Nanogate.Webhook.Delivery
import Nanogate.Webhook.Budget
import Nanogate.Webhook.Attribution
import Nanogate.Webhook.Attempts
import Nanogate.Tenants.Pruner
import Nanogate.Tenants.Offline
import Nanogate.Tenants.ConfigDirs
import Nanogate.Tenants.Workspace
import Nanogate.Tenants.Resume
import Nanogate.Tenants.Orphans
import Nanogate.Tenants.Downtime
import Nanogate.Tenants.Cluster
import Nanogate.Tenants.LostUpdate
import Nanogate.Tenants.Listeners
import Nanogate.Tenants.Settings
import Nanogate.Tenants.Ledger
import Nanogate.Tenants.Gate
import Nanogate.Tenants.Ports
import Nanogate.Tenants.Routing
import Nanogate.Tenants.Ownership
import Nanogate.Tenants.Shutdown
import Nanogate.Tenants.Scan
import Nanogate.Tenants.Mounts
