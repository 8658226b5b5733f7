import Atlaso.Kmip.TtlvExactness
import Atlaso.Kmip.KeyLifecycle
import Atlaso.Kmip.CommitInterleavings
import Atlaso.Dhcp.FindingHistory
import Atlaso.Jobs.ExclusiveClaims
import Atlaso.Automation.ScheduleIsolation
import Atlaso.Kmip.RecoveryRoundTrip
import Atlaso.Routing.LeakFreedom
import Atlaso.Uploads.Reassembly
import Atlaso.Logs.StoreGuarantees
import Atlaso.Logs.PagingGuarantees
import Atlaso.Oidc.KeyContinuity
import Atlaso.Oidc.GrantPolicy
import Atlaso.Oidc.CodeBinding
import Atlaso.Firewall.ShownPermissions
import Atlaso.Logs.CaptureGuarantees
import Atlaso.NetworkBoot.SingleUse
import Atlaso.Automation.CronRuns
import Atlaso.Automation.ScriptArguments
import Atlaso.Dns.ProjectionRuns
import Atlaso.Vcf.CertificateRecovery
import Atlaso.NetworkBoot.MediaRecovery
import Atlaso.Logs.ChunkGuarantees
import Atlaso.Oidc.ThrottleRuns
import Atlaso.Firewall.GroupRules
import Atlaso.Dhcp.ScopeIsolation
import Atlaso.Firewall.NameCollisions
import Atlaso.Publishing.ForwardTable
import Atlaso.Routing.HeldSources
import Atlaso.NetworkBoot.HostIdentities
import Atlaso.Networking.AppliedAliases
import Atlaso.Networking.InventoryReconciliation
import Atlaso.Kmip.AttributeViews
import Atlaso.Kmip.KeyLocations
import Atlaso.Kmip.RequestShapes
import Atlaso.Kmip.Connections
import Atlaso.Kmip.KeyCounts
import Atlaso.Kmip.ProviderIsolation
