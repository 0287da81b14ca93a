import Homelab.Interaction.Runs
import Homelab.Operators.Configurations.Execution
import Homelab.Operators.Provisioning.Bodies

namespace Homelab

open Json (Object)
open Interaction (Op)
open Provisioning (captureInventory_plain resolvedInventoryHosts_plain checkOutput_plain run_plain)

/-! # The parts of an execution that only read -/

theorem get_plain (kind : Kind) (name : String) : Plain (Api.get kind name) := .perform rfl

namespace RunnerTrust

theorem prepare_plain (env : Environment) {fetch : String → Task Resource} (inventory : Object)
    (fetches : ∀ name, Plain (fetch name)) : Plain (prepare env fetch inventory) := by
  apply Op.Confined.check
  intro hosts _
  apply Op.Confined.mapM
  intro host _
  exact .bind (fetches host.1) fun _ => .lift _

end RunnerTrust

namespace RunnerKubernetes

theorem controlPlane_plain (inventory : Object) (cluster : Resource) : Plain (controlPlane inventory cluster) := by
  apply Op.Confined.check
  intro hosts _
  refine .bind (.mapM fun host _ => get_plain .server host.1) fun servers => ?_
  split
  · exact .check fun _ _ => .pure _
  · exact .throw _

theorem fetchContext_plain (env : Environment) (server cluster : Resource) :
    Plain (fetchContext env server cluster) := by
  refine .bind (RunnerTrust.prepare_plain env _ fun _ => .pure server) fun trusted => ?_
  refine .bind (run_plain _ rfl) fun _ => .check fun endpoint _ => ?_
  cases endpoint with
  | none => exact .throw _
  | some endpoint =>
      refine .check fun arguments _ => .check fun host _ => .check fun settings _ => ?_
      refine .bind (run_plain _ rfl) fun output => ?_
      cases output with
      | none => exact .throw _
      | some decoded => exact .lift _

theorem verifiedContext_plain (env : Environment) (inventory : Object) (cluster : Resource) :
    Plain (verifiedContext env inventory cluster) := by
  refine .check fun _ _ => .bind (controlPlane_plain inventory cluster) fun server => ?_
  refine .bind (fetchContext_plain env server cluster) fun fetched => .check fun config _ => ?_
  refine .bind (get_plain .kubeCluster _) fun current => .check fun _ _ => ?_
  refine .bind (get_plain .server _) fun currentServer => .check fun _ _ => ?_
  exact .check fun _ _ => .check fun _ _ => .pure config

theorem installedAlready_plain (env : Environment) (destination expected : String) :
    Plain (installedAlready env destination expected) := by
  refine .bind (run_plain _ rfl) fun state => ?_
  cases state with
  | regular size => exact .bind (run_plain _ rfl) fun _ => .pure _
  | _ => exact .pure _

theorem installKubectl_plain (env : Environment) (version directory : String) :
    Plain (installKubectl env version directory) := by
  refine .check fun _ _ => .bind (checkOutput_plain _) fun machine => ?_
  cases clientArchitecture (strip machine) with
  | none => exact .throw _
  | some architecture =>
      refine .bind (run_plain _ rfl) fun published => .check fun _ _ => ?_
      refine .bind (installedAlready_plain env _ _) fun present => ?_
      cases present with
      | true => exact .pure _
      | false => exact .bind (run_plain _ rfl) fun binary => .check fun _ _ => run_plain _ rfl

end RunnerKubernetes

namespace Configurations

open ServerOperation (verifyOperation)

theorem fetchReference_plain (kind : Kind) (reference : Object) : Plain (fetchReference kind reference) := by
  refine .check fun name _ => .bind (.tryCatch (get_plain kind name) fun failure => ?_)
    fun resource => .check fun _ _ => .pure resource
  split
  · exact .throw _
  · exact .throw _

theorem installedServer_plain (server : Resource) : Plain (installedServer server) := by
  refine .check fun _ _ => .check fun _ _ => .check fun _ _ => .check fun runReference _ => ?_
  refine .bind (fetchReference_plain .provisioningRun runReference) fun run => ?_
  refine .check fun _ _ => .check fun _ _ => .check fun _ _ => .check fun machineReference _ => ?_
  refine .bind (fetchReference_plain .machine machineReference) fun machine => ?_
  exact .check fun _ _ => .check fun _ _ => .check fun _ _ => .pure _

theorem selectHosts_plain (rawHosts : List (String × Object)) (servers : List Resource) (hosts : Object) :
    Plain (selectHosts rawHosts servers hosts) := by
  induction servers generalizing hosts with
  | nil => exact .pure hosts
  | cons server rest ih =>
      refine .bind (installedServer_plain server) fun _ => ?_
      split
      · exact ih _
      · exact .throw _

theorem resolveTargets_plain (env : Environment) (configuration : Resource) :
    Plain (resolveTargets env configuration) := by
  refine .check fun targetReference _ => .check fun kind _ => .check fun collection _ => ?_
  refine .bind (fetchReference_plain collection targetReference) fun target => ?_
  refine .check fun groupReference _ => .bind (fetchReference_plain _ groupReference) fun group => ?_
  refine .check fun _ _ => .check fun _ _ => .check fun _ _ => ?_
  refine .bind (captureInventory_plain group.name) fun capture => .check fun _ _ => ?_
  refine .bind (resolvedInventoryHosts_plain env capture.2) fun rawHosts => .check fun _ _ => ?_
  refine .bind (.mapM fun name _ => fetchReference_plain .server _) fun servers => ?_
  exact .bind (selectHosts_plain rawHosts servers []) fun hosts => .pure _

theorem revParse_plain (source : String) (candidates : List String) : Plain (revParse source candidates) := by
  induction candidates with
  | nil => exact .throw _
  | cons candidate rest ih =>
      refine .bind (run_plain _ rfl) fun completed => ?_
      split
      · exact .pure _
      · exact ih

theorem sourceCommit_plain (repository : Resource) (sourceSpec : Object) (source : String) :
    Plain (sourceCommit repository sourceSpec source) := by
  refine .bind (checkOutput_plain _) fun origin => .check fun _ _ => ?_
  exact .check fun candidates _ => revParse_plain source candidates

theorem contextCluster_plain (configuration : Resource) : Plain (contextCluster configuration) := by
  refine .check fun context _ => ?_
  split
  · exact .check fun reference _ => .bind (fetchReference_plain .kubeCluster reference) fun _ => .pure _
  · exact .pure _

theorem prerequisiteInputs_plain {resolve : Resource → List String → Task Plan}
    (resolves : ∀ dependency stack, Plain (resolve dependency stack)) (configuration : Resource)
    (stack : List String) : Plain (prerequisiteInputs resolve configuration stack) := by
  refine .check fun references _ => .foldlM fun revisions reference => ?_
  refine .bind (fetchReference_plain .configuration reference) fun dependency => ?_
  refine .bind (.tryCatch (resolves dependency _) fun failure => ?_) fun resolved => .check fun _ _ => .pure _
  split
  · split
    · exact .throw _
    · exact .throw _
  · exact .throw _

theorem plan_plain (env : Environment) (frames : Nat) (configuration : Resource) (stack : List String) :
    Plain (plan env frames configuration stack) := by
  induction frames generalizing configuration stack with
  | zero => exact .throw _
  | succ frames ih =>
      refine .check fun _ _ => .check fun _ _ => .bind (resolveTargets_plain env configuration) fun targets => ?_
      refine .check fun _ _ => .check fun sourceSpec _ => .check fun repositoryReference _ => ?_
      refine .bind (fetchReference_plain .gitRepository repositoryReference) fun repository => ?_
      refine .bind (sourceCommit_plain repository sourceSpec env.checkout) fun commit => ?_
      refine .bind (contextCluster_plain configuration) fun kubeCluster => .check fun references _ => ?_
      refine .bind (.mapM fun reference _ => fetchReference_plain .configuration reference) fun _ => ?_
      refine .bind (prerequisiteInputs_plain (fun dependency stack => ih dependency stack) configuration stack)
        fun revisions => ?_
      exact .check fun members _ => .pure _

theorem checkout_plain (configuration : Resource) (source destination expectedCommit : String) :
    Plain (checkout configuration source destination expectedCommit) := by
  refine .check fun sourceSpec _ => .check fun repositoryReference _ => ?_
  refine .bind (fetchReference_plain .gitRepository repositoryReference) fun repository => ?_
  refine .bind (sourceCommit_plain repository sourceSpec source) fun revision => .check fun _ _ => ?_
  exact .bind (checkOutput_plain _) fun archive => .bind (run_plain _ rfl) fun _ => .pure _

theorem prepareExecution_plain (env : Environment) (resolved : Plan) (directory : String) :
    Plain (prepareExecution env resolved directory) := by
  refine .check fun normalized _ => .check fun groups _ => ?_
  refine .bind (RunnerTrust.prepare_plain env _ fun name => get_plain .server name) fun trusted => ?_
  refine .bind (run_plain _ rfl) fun _ => .check fun hosts _ => ?_
  exact .bind (run_plain _ rfl) fun _ => run_plain _ rfl

theorem kubernetesEnvironment_plain (env : Environment) (resolved : Plan) (directory : String) :
    Plain (kubernetesEnvironment env resolved directory) := by
  unfold kubernetesEnvironment
  cases resolved.kubeCluster with
  | none => exact .pure _
  | some cluster =>
      refine .tryCatch (.bind (RunnerKubernetes.verifiedContext_plain env _ cluster) fun context => ?_)
        fun failure => ?_
      · refine .bind (run_plain _ rfl) fun _ => .check fun version _ => ?_
        exact .bind (RunnerKubernetes.installKubectl_plain env version _) fun _ => .pure _
      · split
        · exact .throw _
        · exact .throw _

theorem verifyOperation_plain (target : Resource) : Plain (verifyOperation target) := by
  refine .check fun reference _ => .check fun name _ => ?_
  exact .bind (get_plain .operation name) fun operation => .check fun _ _ => .pure operation

theorem verifyClaims_plain (servers : List Resource) : Plain (verifyClaims servers) := by
  induction servers with
  | nil => exact .pure _
  | cons server rest ih =>
      refine .bind (get_plain .server server.name) fun latest => .check fun _ _ => ?_
      exact .bind (verifyOperation_plain latest) fun _ => ih

theorem refreshClaimTarget_plain (server : Resource) : Plain (refreshClaimTarget server) :=
  .bind (get_plain .server server.name) fun latest => .check fun _ _ => .check fun _ _ => .pure latest

theorem readPublicResult_plain (path : String) : Plain (readPublicResult path) := by
  refine .bind (run_plain _ rfl) fun state => ?_
  cases state with
  | missing => exact .pure _
  | regular size =>
      refine .check fun _ _ => .tryCatch (.bind (run_plain _ rfl) fun decoded => ?_) fun failure => .throw _
      exact .check fun fields _ => .pure _
  | _ => exact .throw _

end Configurations

end Homelab
