import Keel.Common.Request
import Keel.Common.Net
import Keel.Common.Text
import Keel.Spec.Types
import Keel.Spec.Validate
import Keel.ControlPlane.Model.Tables
import Keel.ControlPlane.Model.Registry
import Keel.ControlPlane.Model.Services
import Keel.ControlPlane.Model.Worker
import Keel.ControlPlane.Model.Http
import Keel.ControlPlane.Model.Run
import Keel.ControlPlane.Helpers.Tables
import Keel.ControlPlane.Helpers.Steps
import Keel.ControlPlane.Helpers.Plan
import Keel.ControlPlane.Fencing
import Keel.ControlPlane.Addresses
import Keel.ControlPlane.Ownership
import Keel.Agent.Model.Zfs
import Keel.Agent.Model.Replication
import Keel.Agent.Model.Pair
import Keel.Agent.Model.Link
import Keel.Agent.Model.Reconciler
import Keel.Agent.Model.Worker
import Keel.Agent.Model.Http
import Keel.Agent.Helpers.Replication
import Keel.Agent.Helpers.Worker
import Keel.Agent.Recovery
import Keel.Agent.Confirmed
import Keel.Agent.Loops
import Keel.Cluster.Model
import Keel.Cluster.Helpers
import Keel.Cluster.Primaries
import Keel.Cluster.Snapshots
import Keel.Cluster.Readiness
import Keel.Common.Block
import Keel.ControlPlane.Vips
import Keel.ControlPlane.Subnets
import Keel.ControlPlane.Leaks
import Keel.ControlPlane.Reapply
import Keel.ControlPlane.Standbys
import Keel.Cluster.Discovery
import Keel.Agent.Helpers.Records
import Keel.Cluster.Serial
import Keel.Cluster.Helpers.Serial
import Keel.Cluster.Teardown
import Keel.Cluster.Copies
import Keel.Cluster.Acceptable
import Keel.Cluster.Distinct
import Keel.Common.Result
import Keel.Spec.Names
import Keel.Cluster.Admission
import Keel.ControlPlane.Pinning
import Keel.ControlPlane.Helpers.Indices
import Keel.ControlPlane.Fixpoint
import Keel.Common.Checked
import Keel.ControlPlane.Model.Args
import Keel.ControlPlane.Model.Checked
import Keel.ControlPlane.Panics
import Keel.ControlPlane.Disjoint
import Keel.Common.Proc
import Keel.Node.Model.Machine
import Keel.Node.Model.Store
import Keel.Node.Model.Reconciler
import Keel.Node.Model.Run
import Keel.Node.Helpers.Footprint
import Keel.Node.Volumes
import Keel.Node.Helpers.Files
import Keel.Node.Helpers.Frame
import Keel.Node.Helpers.Ledger
import Keel.Node.Disk
import Keel.Node.Helpers.Apart
import Keel.Node.Undisturbed
import Keel.Node.Panics
import Keel.Node.Helpers.Parts
import Keel.Node.Helpers.BringUp
import Keel.Node.Converge
import Keel.Cluster.Volumes
import Keel.Agent.Model.Registration
import Keel.Agent.Routes
import Keel.Agent.Proxies
import Keel.ControlPlane.Keelctl
import Keel.Node.Helpers.Certs
import Keel.Node.Ingress
import Keel.Node.Certificates
import Keel.ControlPlane.Helpers.Nodes
import Keel.ControlPlane.Helpers.Schedules
import Keel.ControlPlane.Plans
import Keel.ControlPlane.Spares
import Keel.ControlPlane.Repin
import Keel.ControlPlane.Selection
import Keel.Node.Backoff
import Keel.Node.Acceptance
import Keel.Common.Twin
import Keel.Node.Helpers.Plots
import Keel.Node.Helpers.Visits
import Keel.Node.Spacing
import Keel.Node.Deletes
import Keel.Node.Helpers.Visited
import Keel.Node.Rollbacks
import Keel.Node.Changes
import Keel.Node.Helpers.Abreast
import Keel.Node.Helpers.Fates
import Keel.Node.Helpers.Endings
import Keel.Node.Orders
import Keel.Common.Paths
import Keel.Common.Directives
import Keel.Node.Model.Targets
import Keel.Node.Model.Nginx
import Keel.Node.Mounts
import Keel.Node.Targets
import Keel.Node.Committed
import Keel.Node.Publishing
import Keel.Node.Rendering
import Keel.Node.Vhosts
import Keel.Cluster.Gateways
import Keel.Cluster.Reserved
import Keel.Ingress.Model
import Keel.Ingress.Challenges
import Keel.Agent.Pruning
import Keel.ControlPlane.Assigned
import Keel.Node.Quotas
import Keel.Spec.Sizes
import Keel.Common.Codec
import Keel.Node.Headers
import Keel.Ingress.Ovh
import Keel.Ingress.SubDomains
import Keel.Common.Heads
import Keel.Common.Utf8
import Keel.Http.Model
import Keel.Http.Heads
import Keel.Http.Requests
import Keel.Http.Responses
import Keel.Common.Yaml
import Keel.Cluster.Registration
import Keel.Node.Model.Daemon
import Keel.Agent.Helpers.Agreement
import Keel.Node.Helpers.Tending
import Keel.Node.Helpers.Mirror
import Keel.Node.Helpers.Turns
import Keel.Node.Refinement
import Keel.Agent.Model.Enrolment
import Keel.Cluster.Fleet
import Keel.Cluster.Helpers.Fleet
import Keel.Cluster.Enrolment
import Keel.Cluster.Settling
import Keel.Cluster.Overlay
import Keel.Agent.Model.Relay
import Keel.Agent.Relay
import Keel.Http.Calls
import Keel.Http.Exchange
import Keel.Http.Through
