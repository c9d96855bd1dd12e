import Kindling.Verify.RestartBudget
import Kindling.Verify.Retries
import Kindling.Verify.Removal
import Kindling.Verify.EntitySchedule
import Kindling.Verify.JobStatus
import Kindling.Verify.BuildStatus
import Kindling.Verify.MigrationCommits
import Kindling.Verify.NetworkBlocks
import Kindling.Verify.RunnerVariables
import Kindling.Verify.RunnerSecrets
import Kindling.Verify.CacheKeys
import Kindling.Verify.Provisioning
import Kindling.Verify.DnsIsolation
import Kindling.Verify.VmAddresses
import Kindling.Verify.VolumeDeletion
import Kindling.Verify.VolumeAttachments
import Kindling.Verify.VolumeRelease
import Kindling.Verify.VolumeExclusion
import Kindling.Verify.VolumeRecreation
import Kindling.Verify.EndpointAddresses
import Kindling.Verify.CertificateIssuance
import Kindling.Verify.CommittedChanges
import Kindling.Verify.PollingSweeps
import Kindling.Verify.AutoscaleSweeps
import Kindling.Verify.IdleMarks
import Kindling.Verify.SecretBackfill
import Kindling.Verify.FirstAdmin
import Kindling.Verify.LoginRetries
import Kindling.Verify.EventBroker
import Kindling.Verify.FailedStarts
import Kindling.Verify.Suspension
import Kindling.Verify.Endings
import Kindling.Verify.DeploymentViews
import Kindling.Verify.NetworkSlots
import Kindling.Verify.PreviewHosts
import Kindling.Verify.ServerDrain
import Kindling.Builder.ExecProtocol
import Kindling.Builder.ShellQuote
import Kindling.CI.HashFiles
import Kindling.CI.LogLines
import Kindling.Edge.CertStorage
import Kindling.Edge.Requests
import Kindling.Verify.ImageNames
import Kindling.Verify.Interpolation
import Kindling.Verify.PushEvents
import Kindling.Verify.RateLimit
import Kindling.Verify.RouteBackends
import Kindling.Verify.RouteLoads
import Kindling.Verify.ManagedDomains
