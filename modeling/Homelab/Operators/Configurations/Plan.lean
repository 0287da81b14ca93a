import Homelab.Operators.Configurations.Order

namespace Homelab.Configurations

open Json (Object)

/-! # What a Configuration is resolved to -/

/-- Resolved public inputs; private runner credentials never enter this record. -/
structure Plan where
  configuration : Resource
  target : Resource
  servers : List Resource
  hosts : Object
  inputRevision : String
  sourceRevision : String
  resolvedReferences : List Json
  inventory : Object
  kubeCluster : Option Resource := none

/-- Narrow a required API mapping before inspecting resource-specific fields. -/
def mapping (parent : Object) (field : String) : Except Exn Object :=
  jsonObject (value parent field) field

/-- Validate a declarative reference by name; observed references may also carry a UID. -/
def reference (parent : Object) (field : String) : Except Exn Object := do
  let fields ← mapping parent field
  let _ ← jsonString (value fields "name") (field ++ ".name")
  return fields

/-- Observed bindings must still identify a lifetime. -/
def pinnedReference (parent : Object) (field : String) : Except Exn Object := do
  let fields ← reference parent field
  let _ ← jsonString (value fields "uid") (field ++ ".uid")
  return fields

def maximumArguments : Nat := 256

def maximumArgument : Nat := 8192

def invalidCommand (message : String) : Exn := .operator "InvalidCommand" message

def commandArgument : Json → Except Exn String
  | .str argument => do
      demand (argument ≠ "" && !argument.toList.contains '\x00' && argument.length ≤ maximumArgument)
        (invalidCommand "Command arguments must be nonempty strings without NUL")
      return argument
  | _ => throw (invalidCommand "Command arguments must be nonempty strings without NUL")

/-- The direct executable and its arguments; nothing expands or invokes a shell. -/
def commandArgv (configuration : Resource) : Except Exn (List String) := do
  let command ← mapping configuration.spec "command"
  match value command "argv" with
  | .arr arguments => do
      demand (!arguments.isEmpty && arguments.length ≤ maximumArguments)
        (invalidCommand "command.argv requires 1 to 256 arguments")
      arguments.mapM commandArgument
  | _ => throw (invalidCommand "command.argv requires 1 to 256 arguments")

/-- Resolve desired names; enforce UID pins only on observed execution references. -/
def fetchReference (kind : Kind) (reference : Object) : Task Resource := do
  let name ← jsonString (value reference "name") "reference name"
  let resource ← tryCatch (Api.get kind name) fun
    | .http 404 => throw (.operator "ReferenceMissing" "Referenced resource is not available")
    | failure => throw failure
  demand ((value reference "uid" = .null || value reference "uid" = .str resource.uid) &&
      !resource.terminating)
    (.operator "ReferenceChanged" "Referenced resource was replaced or deleted")
  return resource

def targetPending (message : String) : Exn := .operator "TargetPending" message

/-- `reconciliation.paused` of a Server. -/
def checkPaused (server : Resource) : Except Exn Unit :=
  if holds server.spec "reconciliation" then do
    let reconciliation ← mapping server.spec "reconciliation"
    demand (!holds reconciliation "paused") (targetPending "Server reconciliation is paused")
  else .ok ()

/-- Require the current successful installation and reciprocal hardware binding. -/
def installedServer (server : Resource) : Task Unit := do
  let provisioning ← mapping server.status "provisioning"
  checkPaused server
  demand (holds provisioning "provisioned" && !holds provisioning "activeRunRef" &&
      !holds provisioning "maintenance" && !server.terminating)
    (targetPending "Server needs a verified installed OS without provisioning ownership")
  let runReference ← pinnedReference provisioning "lastSuccessfulRunRef"
  let run ← fetchReference .provisioningRun runReference
  demand (value run.status "phase" = .str "Succeeded")
    (targetPending "Successful installation does not match Server identity")
  let installed ← mapping run.spec "serverRef"
  demand (value installed "uid" = .str server.uid)
    (targetPending "Successful installation does not match Server identity")
  let machineReference ← pinnedReference server.status "machineRef"
  let machine ← fetchReference .machine machineReference
  let bound ← mapping machine.status "serverRef"
  demand (value bound "uid" = .str server.uid) (targetPending "Machine binding is not reciprocal")
  let _ ← managementAddress server.status
  return ()

/-- `metadata.get("generation", 0)` -/
def generationOr (resource : Resource) : Json := .int (resource.metadata.generation.getD 0)

def labels (resource : Resource) : Json := Metadata.strings (resource.metadata.labels.getD [])

def annotations (resource : Resource) : Json :=
  Metadata.strings (resource.metadata.annotations.getD [])

/-- Fingerprint identities and settings, not pulse timestamps or temporary claims. -/
def memberInputs (server : Resource) : Except Exn Object := do
  let provisioning ← mapping server.status "provisioning"
  let hostSSH ← mapping server.status "hostSSH"
  let networking ← mapping server.status "networking"
  return [("uid", .str server.uid), ("generation", generationOr server),
    ("machineRef", value server.status "machineRef"),
    ("installationRef", value provisioning "lastSuccessfulRunRef"), ("labels", labels server),
    ("annotations", annotations server), ("keyPairRef", value hostSSH "keyPairRef"),
    ("management", value networking "management")]

/-- `{'Server': 'servers', 'KubeCluster': 'kube-clusters'}[kind]` -/
def targetKind (kind : String) : Except Exn Kind :=
  if kind = "Server" then .ok .server
  else if kind = "KubeCluster" then .ok .kubeCluster
  else .error (keyError kind)

def inventoryPending (message : String) : Exn := .operator "InventoryPending" message

def serverSelector : Json :=
  .arr [.obj [("apiVersion", .str "homelab.io/v1alpha1"), ("kind", .str "Server")]]

/-- What a Configuration targets, and the hosts that it may execute on. -/
structure Targets where
  target : Resource
  servers : List Resource
  group : Resource
  hosts : Object
  inventory : Object

/-- The variables of the selected hosts, each one installed. -/
def selectHosts (rawHosts : List (String × Object)) : List Resource → Object → Task Object
  | [], hosts => return hosts
  | server :: rest, hosts => do
      installedServer server
      match rawHosts.lookup server.name with
      | some hostVars => selectHosts rawHosts rest (hosts.set server.name (.obj hostVars))
      | none => throw (keyError server.name)

/-- Target supplies context; the capture group supplies the execution boundary. -/
def resolveTargets (env : Environment) (configuration : Resource) : Task Targets := do
  let targetReference ← reference configuration.spec "targetRef"
  let kind ← jsonString (value targetReference "kind") "target kind"
  let collection ← targetKind kind
  let target ← fetchReference collection targetReference
  let groupReference ← reference configuration.spec "inventoryCaptureGroupRef"
  let group ← fetchReference .inventoryCaptureGroup groupReference
  demand (!holds group.status "omittedResources")
    (inventoryPending "Configuration requires a complete capture; selected resources were omitted")
  let selector ← mapping group.spec "selector"
  demand (Json.Same (value selector "matchKinds") serverSelector)
    (inventoryPending "Configuration requires a Server-only capture group")
  let (captured, inventory) ← captureInventory group.name
  demand (captured.uid = group.uid && captured.metadata.generation = group.metadata.generation)
    (inventoryPending "Capture group changed during resolution")
  let rawHosts ← resolvedInventoryHosts env inventory
  demand (!rawHosts.isEmpty) (inventoryPending "Capture group has no managed hosts")
  let names := (rawHosts.map Prod.fst).insertionSort (· ≤ ·)
  let servers ← names.mapM fun name => fetchReference .server [("name", .str name)]
  let hosts ← selectHosts rawHosts servers []
  return { target, servers, group, hosts, inventory }

/-- Persist the resource lifetime resolved for this execution, never credentials. -/
def observedReference (resource : Resource) : Json :=
  .obj [("kind", .str resource.kind.text), ("name", .str resource.name), ("uid", .str resource.uid),
    ("generation", generationOr resource)]

def git (source : String) : List String := ["git", "-c", "safe.directory=" ++ source, "-C", source]

/-- The first candidate that names a commit. -/
def revParse (source : String) : List String → Task String
  | [] => throw (.operator "SourceUnavailable"
      "Requested commit/ref is missing from pipeline Git input")
  | candidate :: rest => do
      let completed : Completed ← Host.run (.subprocess
        (git source ++ ["rev-parse", "--verify", "--end-of-options", candidate ++ "^\x7bcommit\x7d"]))
      if completed.returncode = 0 then return strip completed.stdout
      else revParse source rest

def isCommit (text : String) : Bool :=
  text.length = 40 && text.toList.all fun char => char.isDigit || ('a' ≤ char && char ≤ 'f')

/-- What may name the requested commit, in the order it is tried. -/
def sourceCandidates (repository : Resource) (sourceSpec : Object) : Except Exn (List String) :=
  match value sourceSpec "revision" with
  | .null => do
      let name ← jsonString ((repository.spec.get? "ref").getD (.str "main")) "repository ref"
      return ["refs/remotes/origin/" ++ name, "refs/heads/" ++ name, "refs/tags/" ++ name]
  | revision => do
      let commit ← jsonString revision "source revision"
      demand (isCommit commit) (.operator "SourceMismatch" "Revision must be a full immutable commit")
      return [commit]

/-- Resolve a local trusted Git input to a commit without fetching arbitrary code. -/
def sourceCommit (repository : Resource) (sourceSpec : Object) (source : String) : Task String := do
  let origin ← checkOutput (git source ++ ["remote", "get-url", "origin"])
  demand (Json.str (strip origin) = value repository.spec "url")
    (.operator "SourceMismatch" "Source repository differs from pipeline code input")
  let candidates ← sourceCandidates repository sourceSpec
  revParse source candidates

/-- What makes a prerequisite unavailable for now. -/
def unavailableReasons : List String :=
  ["Suspended", "TargetPending", "InventoryPending", "DependencyPending", "ReferenceMissing"]

/-- Require the prerequisite's verification to describe its current inputs. -/
def prerequisiteInput (resolve : Resource → List String → Task Plan) (stack : List String)
    (revisions : Object) (dependencyRef : Object) : Task Object := do
  let dependency ← fetchReference .configuration dependencyRef
  let resolved ← tryCatch (resolve dependency stack) fun
    | .operator reason message =>
        if unavailableReasons.contains reason then
          throw (.operator "DependencyPending" "Prerequisite is unavailable or suspended")
        else throw (.operator reason message)
    | failure => throw failure
  demand (value dependency.status "phase" = .str "Ready" &&
      value dependency.status "observedGeneration" = optionalInt dependency.metadata.generation &&
      value dependency.status "inputRevision" = .str resolved.inputRevision)
    (.operator "DependencyPending" "Prerequisite is not verified against current inputs")
  return revisions.set dependency.uid (.str resolved.inputRevision)

def prerequisiteInputs (resolve : Resource → List String → Task Plan) (configuration : Resource)
    (stack : List String) : Task Object := do
  let references ← dependencies configuration
  references.foldlM (prerequisiteInput resolve (stack ++ [configuration.name])) []

/-- `configuration["spec"].get("context", {})` -/
def executionContext (configuration : Resource) : Except Exn Object :=
  jsonObject ((configuration.spec.get? "context").getD (.obj [])) "execution context"

/-- The cluster whose credentials the command asks for. -/
def contextCluster (configuration : Resource) : Task (Option Resource) := do
  let context ← executionContext configuration
  if (context.get? "kubeClusterRef").isSome then
    let clusterReference ← reference context "kubeClusterRef"
    let cluster ← fetchReference .kubeCluster clusterReference
    return some cluster
  else return none

def kubernetesInput (cluster : Resource) : Json :=
  .obj [("uid", .str cluster.uid), ("spec", .obj cluster.spec)]

/-- What the input revision is computed from. -/
def planInputs (configuration : Resource) (targets : Targets) (repository : Resource) (commit : String)
    (references : List Json) (kubeCluster : Option Resource) (prerequisites : Object)
    (members : List Object) : Object :=
  [("spec", .obj configuration.spec), ("targetUID", .str targets.target.uid),
    ("targetGeneration", generationOr targets.target), ("targetSpec", .obj targets.target.spec),
    ("groupUID", .str targets.group.uid), ("groupGeneration", generationOr targets.group),
    ("repositorySpec", .obj repository.spec), ("sourceRevision", .str commit),
    ("inventory", .obj targets.inventory), ("dependencies", .obj prerequisites),
    ("members", .arr (members.map .obj)), ("resolvedReferences", .arr references),
    ("hosts", .obj targets.hosts)] ++
    match kubeCluster with
    | some cluster => [("kubernetesContext", kubernetesInput cluster)]
    | none => []

/-- Resolve current relevant inputs, not stale Ready flags alone; `resolve` does so
for the prerequisites. -/
def planStep (env : Environment) (resolve : Resource → List String → Task Plan) (configuration : Resource)
    (stack : List String) : Task Plan := do
  demand (!stack.contains configuration.name)
    (.operator "DependencyCycle" "Configuration dependency cycle")
  demand (!holds configuration.spec "suspended" && !configuration.terminating)
    (.operator "Suspended" "Configuration is suspended or terminating")
  let targets ← resolveTargets env configuration
  let _ ← commandArgv configuration
  let sourceSpec ← mapping configuration.spec "source"
  let repositoryReference ← reference sourceSpec "repositoryRef"
  let repository ← fetchReference .gitRepository repositoryReference
  let commit ← sourceCommit repository sourceSpec env.checkout
  let kubeCluster ← contextCluster configuration
  let prerequisiteReferences ← dependencies configuration
  let prerequisites ← prerequisiteReferences.mapM (fetchReference .configuration)
  let resolvedReferences :=
    ([targets.target, targets.group, repository] ++ targets.servers ++ kubeCluster.toList ++
      prerequisites).map observedReference
  let revisions ← prerequisiteInputs resolve configuration stack
  let members ← (targets.servers.mapM memberInputs : Except Exn (List Object))
  let inputs := planInputs configuration targets repository commit resolvedReferences kubeCluster
    revisions members
  return {
    configuration
    target := targets.target
    servers := targets.servers
    hosts := targets.hosts
    inputRevision := "sha256:" ++ env.digest (.obj inputs)
    sourceRevision := commit
    resolvedReferences
    inventory := targets.inventory
    kubeCluster }

/-- `plan` calls itself; `frames` is the call depth the interpreter still allows. -/
def plan (env : Environment) : Nat → Resource → List String → Task Plan
  | 0, _, _ => throw recursionError
  | frames + 1, configuration, stack => planStep env (plan env frames) configuration stack

end Homelab.Configurations
