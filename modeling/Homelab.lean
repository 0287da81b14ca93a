import Homelab.Operators.Provisioning.Installation
import Homelab.Operators.Provisioning.Ownership
import Homelab.Operators.Provisioning.Progress
import Homelab.Operators.Provisioning.Cleanup
import Homelab.Operators.Provisioning.Exclusion
import Homelab.Operators.Provisioning.Attestation
import Homelab.Operators.Provisioning.Preflight
import Homelab.Operators.Configurations.Order
import Homelab.Operators.Provisioning.StorageGeometry
import Homelab.Operators.Provisioning.StorageFinish
import Homelab.Roles.Provision.VerifyEfi
import Homelab.FilterPlugins.HostNetwork
import Homelab.FilterPlugins.NodeObservations
import Homelab.Operators.RunnerKubernetes.StableSettings
import Homelab.Operators.StatusWriters
import Homelab.Operators.SshHostKeys.Reconcile
import Homelab.Api.Touches
import Homelab.Operators.Configurations.Outputs
import Homelab.Operators.Configurations.Transport
import Homelab.Operators.Configurations.Freshness
import Homelab.Operators.KnownHosts
import Homelab.Roles.Provision.BootOrder
import Homelab.Roles.Provision.ConfigureUsers
import Homelab.Roles.Provision.Probe
import Homelab.Operators.RunnerKubernetes.Kubeconfig
import Homelab.Operators.RunnerKubernetes.ContextOwnership
import Homelab.Operators.Configurations.Coverage
import Homelab.FilterPlugins.FlannelRollout
import Homelab.Api.Exact
import Homelab.Interaction.Keeping
import Homelab.Operators.Configurations.Claimed
import Homelab.Operators.Operating
import Homelab.Operators.SshHostKeys.Trust
