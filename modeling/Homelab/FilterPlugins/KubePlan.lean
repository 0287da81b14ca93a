import Mathlib.Data.List.Sort
import Homelab.Operators.Common

namespace Homelab.KubePlan

open Json (Object)

/-! # Pure Kubernetes planning filters -/

def valueError (message : String) : Exn := .error "ValueError" message

/-- Require a mapping at the Ansible data boundary. -/
def mapping (value : Json) (context : String) : Except Exn Object :=
  match value with
  | .obj fields => .ok fields
  | _ => .error (valueError (context ++ " must be a mapping"))

/-- Reject absent or non-string identities instead of coercing them. -/
def text (value : Json) (context : String) : Except Exn String :=
  match value with
  | .str found =>
      if found = "" then .error (valueError (context ++ " must be a nonempty string")) else .ok found
  | _ => .error (valueError (context ++ " must be a nonempty string"))

/-- `mapping.get(key, default)` -/
def valueOr (fields : Object) (key : String) (default : Json) : Json := (fields.get? key).getD default

def list (value : Json) (message : String) : Except Exn (List Json) :=
  match value with
  | .arr items => .ok items
  | _ => .error (valueError message)

/-! ## Names and networks -/

def isLowerAlphanumeric (char : Char) : Bool := ('a' ≤ char && char ≤ 'z') || char.isDigit

def isDnsLabel (label : String) : Bool :=
  label.length ≤ 63 && label ≠ "" && label.toList.all (fun char => isLowerAlphanumeric char || char == '-') &&
    label.toList.head?.any isLowerAlphanumeric && label.toList.getLast?.any isLowerAlphanumeric

/-- Kubernetes DNS-subdomain node names, including per-label limits. -/
def dnsName (value : String) : Bool := value.length ≤ 253 && (IpAddress.split '.' value).all isDnsLabel

structure Ipv4Network where
  address : Nat
  length : Nat
deriving DecidableEq

namespace Ipv4Network

def first (network : Ipv4Network) : Nat := network.address

def last (network : Ipv4Network) : Nat := network.address + 2 ^ (32 - network.length) - 1

def overlaps (left right : Ipv4Network) : Bool := left.first ≤ right.last && right.first ≤ left.last

def subnetOf (inner outer : Ipv4Network) : Bool := outer.first ≤ inner.first && inner.last ≤ outer.last

def addressOf (octets : List Nat) : Nat := octets.foldl (fun value octet => 256 * value + octet) 0

/-- A prefix length, a netmask or a host mask. -/
def lengthOf (mask : String) : Option Nat :=
  if mask ≠ "" ∧ mask.toList.all Char.isDigit ∧ IpAddress.number 10 mask ≤ 32 then some (IpAddress.number 10 mask)
  else do
    let bits := addressOf (← IpAddress.ipv4 mask)
    let netmask := (List.range 33).find? fun length => bits == 2 ^ 32 - 2 ^ (32 - length)
    netmask.or ((List.range 33).find? fun length => bits == 2 ^ (32 - length) - 1)

/-- `ip_network(text, strict=True)`, when it is an IPv4 network. -/
def parse (text : String) : Option Ipv4Network := do
  let (address, length) ← match IpAddress.split '/' text with
    | [address] => some (address, 32)
    | [address, mask] => (lengthOf mask).map fun length => (address, length)
    | _ => none
  let network : Ipv4Network := { address := addressOf (← IpAddress.ipv4 address), length }
  guard (network.address % 2 ^ (32 - length) = 0)
  return network

end Ipv4Network

/-- V1 supports explicit IPv4 networks with canonical boundaries. -/
def ipv4Network (value : Json) (context : String) : Except Exn Ipv4Network := do
  let found ← text value context
  match Ipv4Network.parse found with
  | some network => return network
  | none => throw (valueError (context ++ " must be IPv4 in v1"))

/-! ## The cluster plan -/

def orJoin (allowed : List String) : String := " or ".intercalate (allowed.map fun value => "\"" ++ value ++ "\"")

def hostOption (annotations : Object) (field key default : String) (allowed : List String) :
    Except Exn (String × Json) := do
  let found ← text (valueOr annotations key (.str default)) key
  demand (allowed.contains found) (valueError (key ++ " must be " ++ orJoin allowed))
  return (field, .str found)

/-- Opt-in per-Server host settings, for nodes that must match older hosts. -/
def hostOptions (annotations : Object) : Except Exn Object := do
  let cgroup ← hostOption annotations "cgroupVersion" "homelab.io/kube-cgroup-version" "2" ["1", "2"]
  let backend ← hostOption annotations "iptablesBackend" "homelab.io/kube-iptables-backend" "nft" ["legacy", "nft"]
  return [cgroup, backend]

/-- The member that a captured Server stands for, if it is labeled as one. -/
def selectMember (node : Object) (clusterName clusterUid : String) (names : List String) :
    Except Exn (Option Object) := do
  let labels ← mapping (valueOr node "labels" (.obj [])) "Server labels"
  if value labels "homelab.io/kube-cluster" = .str clusterName then do
    let annotations ← mapping (valueOr node "annotations" (.obj [])) "Server annotations"
    -- A user may opt into a stricter binding; no copied UID is required.
    let binding := value annotations "homelab.io/kube-cluster-uid"
    demand (binding = .null || binding = .str clusterUid)
      (valueError "Server cluster UID annotation does not match the target")
    let name ← text (value node "name") "Server name"
    let nodeName ← text (valueOr annotations "homelab.io/kube-node-name" (.str name)) "Kubernetes node name"
    let role ← text (value labels "homelab.io/kube-role") "Kubernetes role"
    demand (role = "control-plane" || role = "worker")
      (valueError "Kubernetes role must be control-plane or worker")
    demand (dnsName nodeName && !names.contains nodeName)
      (valueError "Kubernetes node names must be valid and unique")
    let uid ← text (value node "uid") "Server UID"
    let options ← hostOptions annotations
    return some ([("name", .str name), ("uid", .str uid), ("nodeName", .str nodeName), ("role", .str role)] ++ options)
  else return none

def nodeNameOf (member : Object) : String :=
  match member.get? "nodeName" with
  | some (.str name) => name
  | _ => ""

def collectMembers (clusterName clusterUid : String) : List Json → List Object → Except Exn (List Object)
  | [], members => .ok members
  | raw :: rest, members => do
      let node ← mapping raw "captured Server"
      let selected ← selectMember node clusterName clusterUid (members.map nodeNameOf)
      match selected with
      | some member => collectMembers clusterName clusterUid rest (members ++ [member])
      | none => collectMembers clusterName clusterUid rest members

def nameOf (member : Object) : String :=
  match member.get? "name" with
  | some (.str name) => name
  | _ => ""

def isControlPlane (member : Object) : Bool := value member "role" == .str "control-plane"

/-- Select labeled members, not every host in the execution capture group. -/
def selectedMembers (nodes : Json) (clusterName clusterUid : String) : Except Exn (List Object) := do
  let items ← list nodes "configuration_nodes must be an array"
  let members ← collectMembers clusterName clusterUid items []
  demand (members.countP isControlPlane = 1) (valueError "V1 requires exactly one control-plane Server")
  return members.insertionSort fun left right => nameOf left ≤ nameOf right

def isRelease (version : String) : Bool :=
  match IpAddress.split '.' version with
  | [major, minor, patch] => [major, minor, patch].all (fullmatchPlus Char.isDigit)
  | _ => false

def checkRelease (fields : Object) (field context : String) : Except Exn Unit := do
  let version ← text (value fields field) context
  demand (isRelease version) (valueError (context ++ " must be an exact release"))

/-- The parts around the last colon, if there is one. -/
def rpartition (text : String) : Option (String × String) :=
  match (IpAddress.split ':' text).reverse with
  | port :: host :: rest => some (":".intercalate (host :: rest).reverse, port)
  | _ => none

def isEndpoint (endpoint : String) : Bool :=
  match rpartition endpoint with
  | some (host, port) =>
      dnsName host && fullmatchPlus Char.isDigit port && 1 ≤ IpAddress.number 10 port &&
        IpAddress.number 10 port ≤ 65535
  | none => false

/-- Keep software, endpoint and network validation separate from membership. -/
def validatedSettings (rawSpec : Json) : Except Exn Object := do
  let spec ← mapping rawSpec "cluster spec"
  checkRelease spec "kubernetesVersion" "kubernetesVersion"
  checkRelease spec "containerdVersion" "containerdVersion"
  let version ← text (value spec "kubernetesVersion") "Kubernetes version"
  demand (version.startsWith "1.") (valueError "Only Kubernetes 1.x is supported")
  let minor := ((IpAddress.split '.' version)[1]?).getD ""
  demand (31 ≤ IpAddress.number 10 minor)
    (valueError "The kubeadm v1beta4 configuration requires Kubernetes 1.31 or newer")
  let network ← mapping (value spec "network") "cluster network"
  demand (value network "provider" = .str "flannel")
    (valueError "The initial platform playbook supports Flannel only")
  let flannel ← text (value network "version") "Flannel version"
  demand (isRelease flannel) (valueError "Flannel version must be an exact release")
  let pods ← ipv4Network (value spec "podCIDR") "podCIDR"
  let services ← ipv4Network (value spec "serviceCIDR") "serviceCIDR"
  demand (!pods.overlaps services) (valueError "Pod and Service networks must not overlap")
  let endpoint ← text (value spec "controlPlaneEndpoint") "control-plane endpoint"
  demand (isEndpoint endpoint)
    (valueError "controlPlaneEndpoint must be an IPv4/DNS host and explicit valid port")
  let settings := spec.set "runcVersion" (valueOr spec "runcVersion" (.str "1.5.2"))
  checkRelease settings "runcVersion" "runcVersion"
  let settings := settings.set "cniPluginsVersion" (valueOr settings "cniPluginsVersion" (.str "1.9.1"))
  checkRelease settings "cniPluginsVersion" "cniPluginsVersion"
  return settings

/-- Validate cluster settings and return concrete role inputs for a playbook. -/
def clusterPlan (rawTarget nodes : Json) : Except Exn Object := do
  let target ← mapping rawTarget "configuration_target"
  demand (value target "kind" = .str "KubeCluster") (valueError "Kubernetes setup requires a KubeCluster target")
  let metadata ← mapping (value target "metadata") "cluster metadata"
  let name ← text (value metadata "name") "cluster name"
  let uid ← text (value metadata "uid") "cluster UID"
  let settings ← validatedSettings (value target "spec")
  let members ← selectedMembers nodes name uid
  let network ← ipv4Network (value settings "podCIDR") "podCIDR"
  demand (network.length ≤ 24 && members.length ≤ 2 ^ (24 - network.length))
    (valueError "Pod network needs one /24 subnet per selected node")
  let annotations ← mapping (valueOr metadata "annotations" (.obj [])) "cluster annotations"
  -- "service" keeps upstream in-cluster config (the kubernetes ClusterIP).
  let endpoint ← text (valueOr annotations "homelab.io/network-api-endpoint" (.str "direct"))
    "homelab.io/network-api-endpoint"
  demand (endpoint = "direct" || endpoint = "service")
    (valueError "homelab.io/network-api-endpoint must be \"direct\" or \"service\"")
  return [("name", .str name), ("uid", .str uid), ("settings", .obj settings),
    ("members", .arr (members.map .obj)), ("controlPlane", .obj ((members.find? isControlPlane).getD [])),
    ("networkApiEndpoint", .str endpoint)]

/-! ## Verification of the actual Nodes -/

/-- `any(...)` over conditions: the first Ready one ends the search. -/
def anyReady (context : String) : List Json → Except Exn Bool
  | [] => .ok false
  | raw :: rest => do
      let condition ← mapping raw context
      if value condition "type" = .str "Ready" ∧ value condition "status" = .str "True" then return true
      else anyReady context rest

def controlPlaneLabel : String := "node-role.kubernetes.io/control-plane"

def hasLabel (labels : Object) (key : String) : Bool := (labels.get? key).isSome

/-- The versions that the kubelet of a Node reports. -/
def validateVersions (status settings : Object) : Except Exn Unit := do
  let information ← mapping (value status "nodeInfo") "Node info"
  let kubernetes ← text (value settings "kubernetesVersion") "Kubernetes version"
  demand (value information "kubeletVersion" = .str ("v" ++ kubernetes))
    (valueError "Node kubelet version does not match")
  let containerd ← text (value settings "containerdVersion") "containerd version"
  demand (value information "containerRuntimeVersion" = .str ("containerd://" ++ containerd))
    (valueError "Node running runtime version does not match")

/-- Validate one Node separately so the cluster comparison stays readable. -/
def validateNode (member node settings plan : Object) : Except Exn Unit := do
  let metadata ← mapping (value node "metadata") "Node metadata"
  let labels ← mapping (value metadata "labels") "Node labels"
  let status ← mapping (value node "status") "Node status"
  demand (Json.Same (value labels "homelab.io/server-uid") (value member "uid"))
    (valueError "Node Server identity does not match")
  demand (Json.Same (value labels "homelab.io/kube-cluster-uid") (value plan "uid"))
    (valueError "Node cluster identity does not match")
  demand (isControlPlane member == hasLabel labels controlPlaneLabel)
    (valueError "Node control-plane role does not match")
  validateVersions status settings
  let conditions ← list (value status "conditions") "Node conditions must be an array"
  let ready ← anyReady "condition" conditions
  demand ready (valueError "Node is not Ready")

/-- The pod subnet of a Node: inside the cluster network and apart from the earlier ones. -/
def nodeSubnet (settings node : Object) (subnets : List Ipv4Network) : Except Exn Ipv4Network := do
  let spec ← mapping (value node "spec") "Node spec"
  let subnet ← ipv4Network (value spec "podCIDR") "Node podCIDR"
  let network ← ipv4Network (value settings "podCIDR") "podCIDR"
  demand (subnet.subnetOf network) (valueError "Node pod subnet is outside the cluster network")
  demand (!subnets.any subnet.overlaps) (valueError "Node pod subnets overlap")
  return subnet

/-- Index members by their Node names. -/
def indexMembers (memberContext nameContext : String) : List Json → Object → Except Exn Object
  | [], indexed => .ok indexed
  | raw :: rest, indexed => do
      let member ← mapping raw memberContext
      let name ← text (value member "nodeName") nameContext
      indexMembers memberContext nameContext rest (indexed.set name (.obj member))

/-- Verify the Nodes one after the other. -/
def verifyEachNode (indexed settings plan : Object) :
    List Json → List Ipv4Network → List String → Except Exn Unit
  | [], _, _ => .ok ()
  | raw :: rest, subnets, seen => do
      let node ← mapping raw "Node"
      let metadata ← mapping (value node "metadata") "Node metadata"
      let name ← text (value metadata "name") "Node name"
      demand (!seen.contains name && hasLabel indexed name)
        (valueError "Unexpected or duplicate Kubernetes Node identity")
      let member ← mapping (value indexed name) "expected Node"
      validateNode member node settings plan
      let subnet ← nodeSubnet settings node subnets
      verifyEachNode indexed settings plan rest (subnets ++ [subnet]) (name :: seen)

/-- Verify actual managed identities, roles, exact versions, Ready and pod subnets. -/
def verifyNodes (rawPlan rawResponse : Json) : Except Exn Object := do
  let plan ← mapping rawPlan "cluster plan"
  let settings ← mapping (value plan "settings") "settings"
  let response ← mapping rawResponse "Kubernetes Node response"
  let expected ← list (value plan "members") "Expected members and actual Nodes must be arrays"
  let nodes ← list (value response "items") "Expected members and actual Nodes must be arrays"
  let indexed ← indexMembers "expected member" "node name" expected []
  demand (nodes.length = indexed.length)
    (valueError "Actual Kubernetes Node membership differs from the selected Servers")
  verifyEachNode indexed settings plan nodes [] []
  return plan

/-! ## Registration -/

/-- Index only members already selected by the validated cluster plan. -/
def membersByName (rawPlan : Json) : Except Exn Object := do
  let plan ← mapping rawPlan "cluster plan"
  let members ← list (value plan "members") "Cluster members must be an array"
  indexMembers "cluster member" "Node name" members []

def roleLabel (role : String) : String := "node-role.kubernetes.io/" ++ role

def serverLabel : String := "homelab.io/server-uid"

def clusterLabel : String := "homelab.io/kube-cluster-uid"

/-- Own identity and conventional role metadata, not arbitrary user labels. -/
def desiredLabels (plan member : Object) : Except Exn Object := do
  let server ← text (value member "uid") "Server UID"
  let cluster ← text (value plan "uid") "cluster UID"
  let role ← text (value member "role") "Node role"
  return [(serverLabel, .str server), (clusterLabel, .str cluster), (roleLabel role, .str "")]

/-- Whether a managed label is absent or has another value. -/
def drifts (desired labels : Object) : Bool :=
  desired.any fun entry => !decide (Json.Same (value labels entry.1) entry.2)

def testOperation (path : String) (expected : Json) : Json :=
  .obj [("op", .str "test"), ("path", .str path), ("value", expected)]

def addOperation (path : String) (added : Json) : Json :=
  .obj [("op", .str "add"), ("path", .str path), ("value", added)]

def removeOperation (path : String) : Json := .obj [("op", .str "remove"), ("path", .str path)]

def labelsPath : String := "/metadata/labels"

/-- A completely absent map needs a test of the resource version before it is
created, so that labels added after the read are never replaced. -/
def labelGuard (metadata labels : Object) : Except Exn (List Json) :=
  match metadata.get? "labels" with
  | some _ => .ok [testOperation labelsPath (.obj labels)]
  | none => do
      let version ← text (value metadata "resourceVersion") "Node resource version"
      return [testOperation "/metadata/resourceVersion" (.str version), addOperation labelsPath (.obj [])]

def labelAdditions (desired : Object) : List Json := desired.map fun entry =>
  addOperation (labelsPath ++ "/" ++ replaceText "/" "~1" (replaceText "~" "~0" entry.1)) entry.2

def labelRemovals (labels : Object) (opposite : String) : List Json :=
  if hasLabel labels opposite then [removeOperation (labelsPath ++ "/" ++ replaceText "/" "~1" opposite)] else []

/-- Guard Node lifetime and label ownership without racing status heartbeats. -/
def managedLabelPatch (metadata desired : Object) (opposite : String) : Except Exn (List Json) := do
  let uid ← item metadata "uid"
  let labels ← mapping (valueOr metadata "labels" (.obj [])) "Node labels"
  let guarding ← labelGuard metadata labels
  return testOperation "/metadata/uid" uid :: guarding ++ labelAdditions desired ++ labelRemovals labels opposite

/-- The addresses of a type, in order. -/
def internalAddresses : List Json → Except Exn (List Json)
  | [] => .ok []
  | raw :: rest => do
      let address ← mapping raw "Node address"
      let later ← internalAddresses rest
      if value address "type" = .str "InternalIP" then return value address "address" :: later
      else return later

def oppositeLabel (member : Object) : String :=
  roleLabel (if isControlPlane member then "worker" else "control-plane")

/-- Conflicting identity values never get adopted. -/
def checkOwner (desired labels : Object) (key : String) : Except Exn Unit :=
  demand (value labels key = .null || Json.Same (value labels key) (value desired key))
    (valueError "Refusing to adopt a Node owned by another Server or cluster")

/-- Repair of the present Node of a selected member. -/
def repairNode (plan request member node : Object) : Except Exn Object := do
  let metadata ← mapping (value node "metadata") "Node metadata"
  demand (Json.Same (value metadata "name") (value request "nodeName") && holds metadata "uid")
    (valueError "Actual Node identity does not match the selected member")
  let labels ← mapping (valueOr metadata "labels" (.obj [])) "Node labels"
  let desired ← desiredLabels plan member
  checkOwner desired labels serverLabel
  checkOwner desired labels clusterLabel
  let status ← mapping (valueOr node "status" (.obj [])) "Node status"
  let addresses ← list (valueOr status "addresses" (.arr [])) "Node addresses must be an array"
  let internals ← internalAddresses addresses
  demand (Json.Same (.arr internals) (.arr [value request "address"]))
    (valueError "Node address does not match the managed Server")
  let opposite := oppositeLabel member
  let patch ← managedLabelPatch metadata desired opposite
  return [("missing", .bool false), ("labelsChanged", .bool (drifts desired labels || hasLabel labels opposite)),
    ("labelPatch", .arr patch)]

/-- Plan repair only after the play authenticates this installed kubelet identity.
A missing Node needs a registration restart, not bootstrap. -/
def registrationAction (rawPlan rawRequest : Json) : Except Exn Object := do
  let plan ← mapping rawPlan "cluster plan"
  let request ← mapping rawRequest "registration request"
  let indexed ← membersByName rawPlan
  let nodeName ← text (value request "nodeName") "Node name"
  match indexed.get? nodeName with
  | some (.obj member) =>
      demand (Json.Same (value member "uid") (value request "serverUID") &&
        Json.Same (value member "role") (value request "role"))
        (valueError "Host is not the selected cluster member")
      let node ← mapping (value request "node") "actual Node"
      if node.isEmpty then
        return [("missing", .bool true), ("labelsChanged", .bool false), ("labelPatch", .arr [])]
      else repairNode plan request member node
  | _ => throw (valueError "Host is not the selected cluster member")

/-! ## Observation -/

/-- Index the actual Nodes, none of which may be listed twice. -/
def indexNodes : List Json → Object → Except Exn Object
  | [], actual => .ok actual
  | raw :: rest, actual => do
      let node ← mapping raw "Node"
      let metadata ← mapping (value node "metadata") "Node metadata"
      let name ← text (value metadata "name") "name"
      demand (!hasLabel actual name) (valueError "Duplicate Node identity")
      indexNodes rest (actual.set name (.obj node))

def sortedNames (names : List String) : List String := names.insertionSort (· ≤ ·)

/-- Whether a Node conflicts with the desired labels, and whether it is Ready. -/
def observeNode (plan member node : Object) : Except Exn (Bool × Bool) := do
  let metadata ← mapping (value node "metadata") "Node metadata"
  let labels ← mapping (valueOr metadata "labels" (.obj [])) "Node labels"
  let desired ← desiredLabels plan member
  let status ← mapping (valueOr node "status" (.obj [])) "Node status"
  let conditions ← list (valueOr status "conditions" (.arr [])) "Node conditions must be an array"
  let ready ← anyReady "Node condition" conditions
  return (drifts desired labels, ready)

def observeEach (plan expected actual : Object) : List String → Except Exn (List (String × Bool × Bool))
  | [] => .ok []
  | name :: rest => do
      let node ← itemObject actual name
      let member ← itemObject expected name
      let observed ← observeNode plan member node
      let later ← observeEach plan expected actual rest
      return (name, observed) :: later

def nameList (names : List String) : Json := .arr (names.map .str)

/-- Report actual membership, including missing members, without asserting setup success. -/
def membershipObservation (rawPlan rawResponse : Json) : Except Exn Object := do
  let expected ← membersByName rawPlan
  let response ← mapping rawResponse "Node list"
  let items ← list (value response "items") "Actual Nodes must be an array"
  let actual ← indexNodes items []
  let plan ← mapping rawPlan "cluster plan"
  let missing := sortedNames ((expected.map Prod.fst).filter fun name => !hasLabel actual name)
  let unexpected := sortedNames ((actual.map Prod.fst).filter fun name => !hasLabel expected name)
  let present := sortedNames ((expected.map Prod.fst).filter fun name => hasLabel actual name)
  let observed ← observeEach plan expected actual present
  let notReady := (observed.filter fun entry => !entry.2.2).map Prod.fst
  let conflicts := (observed.filter fun entry => entry.2.1).map Prod.fst
  return [
    ("ready", .bool (missing.isEmpty && unexpected.isEmpty && notReady.isEmpty && conflicts.isEmpty)),
    ("missingMembers", nameList missing), ("notReadyMembers", nameList notReady),
    ("unexpectedNodes", nameList unexpected), ("identityConflicts", nameList conflicts)]

end Homelab.KubePlan
