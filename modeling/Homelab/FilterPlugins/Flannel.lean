import Homelab.FilterPlugins.KubePlan
import Homelab.Json.RoundTrip

namespace Homelab.KubePlan

open Json (Object)

/-! # The Flannel release -/

/-- `for container in containers`, as far as the first one of the release. -/
def anyImage (suffix : String) : List Json → Except Exn Bool
  | [] => .ok false
  | raw :: rest => do
      let container ← mapping raw "Flannel container"
      let image ← text (value container "image") "Flannel image"
      if suffix.toList.isSuffixOf image.toList then return true else anyImage suffix rest

/-- The template of a DaemonSet. -/
def podTemplate (document : Object) : Except Exn Object := do
  let spec ← mapping (value document "spec") "daemon spec"
  mapping (value spec "template") "pod template"

def podContainers (template : Object) : Except Exn (List Json) := do
  let pod ← mapping (value template "spec") "pod spec"
  list (value pod "containers") "Flannel containers must be an array"

/-- Require the reviewed DaemonSet's main image to use the selected release. -/
def flannelDaemonMatches (document : Object) (version : String) : Except Exn Bool := do
  let template ← podTemplate document
  let containers ← podContainers template
  anyImage (":v" ++ version) containers

/-- `json.loads` where an object is expected. -/
def loadsMapping (raw : Json) (context : String) : Except Exn Object := do
  let found ← text raw context
  match Json.loads found with
  | some document => mapping document context
  | none => .error (.error "JSONDecodeError" found)

def isFlannelPlugin (plugin : Object) : Bool := value plugin "type" = .str "flannel"

/-- The delegate's own settings and its IPAM settings stay, but for one key each. -/
def configureDelegate (plugin : Object) : Except Exn Object := do
  let delegate ← mapping (valueOr plugin "delegate" (.obj [])) "Flannel bridge delegate"
  let plugin := plugin.set "delegate" (.obj (delegate.set "forceAddress" (.bool true)))
  let ipam ← mapping (valueOr plugin "ipam" (.obj [])) "Flannel IPAM"
  return plugin.set "ipam" (.obj (ipam.set "dataDir" (.str "/run/cni/flannel-networks")))

def configurePlugin (plugin : Object) : Except Exn Json :=
  if isFlannelPlugin plugin then do
    let configured ← configureDelegate plugin
    return .obj configured
  else return .obj plugin

/-- Allow the bridge to follow a newly allocated Node subnet; return its digest. -/
def configureFlannelCni (sha256 : String → String) (data : Object) : Except Exn (Object × String) := do
  let config ← loadsMapping (value data "cni-conf.json") "Flannel CNI config"
  let listed ← list (value config "plugins") "Flannel CNI plugins must be an array"
  let plugins ← listed.mapM fun plugin => mapping plugin "CNI plugin"
  demand (plugins.countP isFlannelPlugin = 1) (valueError "Expected exactly one Flannel CNI plugin")
  let configured ← plugins.mapM configurePlugin
  let data := data.set "cni-conf.json" (.str (Json.dumps (.obj (config.set "plugins" (.arr configured)))))
  return (data, sha256 (Json.dumps (.obj data)))

def rolloutAnnotation : String := "homelab.io/cni-config-sha256"

/-- Restart the CNI installer through an ordinary DaemonSet template change. -/
def annotateCniRollout (document : Object) (configDigest : String) : Except Exn Object := do
  let spec ← mapping (value document "spec") "daemon spec"
  let template ← mapping (value spec "template") "pod template"
  let metadata ← mapping (valueOr template "metadata" (.obj [])) "pod metadata"
  let annotations ← mapping (valueOr metadata "annotations" (.obj [])) "pod annotations"
  let annotations := annotations.set rolloutAnnotation (.str configDigest)
  let metadata := metadata.set "annotations" (.obj annotations)
  return document.set "spec" (.obj (spec.set "template" (.obj (template.set "metadata" (.obj metadata)))))

def overrideNames : List Json := [.str "KUBERNETES_SERVICE_HOST", .str "KUBERNETES_SERVICE_PORT"]

/-- Whether an entry of the environment is not one of the overrides. -/
def isKept (raw : Json) : Except Exn Bool := do
  let entry ← mapping raw "Flannel env"
  demand (value entry "name").hashable (.error "TypeError" "unhashable type")
  return !overrideNames.contains (value entry "name")

def keptEntries : List Json → Except Exn (List Json)
  | [] => .ok []
  | raw :: rest => do
      let kept ← isKept raw
      let others ← keptEntries rest
      return if kept then raw :: others else others

def overrideEntry (name entry : String) : Json := .obj [("name", .str name), ("value", .str entry)]

def overrideEntries (host port : String) : List Json :=
  [overrideEntry "KUBERNETES_SERVICE_HOST" host, overrideEntry "KUBERNETES_SERVICE_PORT" port]

def overrideContainer (host port : String) (raw : Json) : Except Exn Json := do
  let container ← mapping raw "Flannel container"
  let environment ← list (valueOr container "env" (.arr [])) "Flannel container env must be an array"
  let kept ← keptEntries environment
  return .obj (container.set "env" (.arr (kept ++ overrideEntries host port)))

/-- Reach the API like kubelet and kube-proxy do, not through the kubernetes ClusterIP. -/
def useDirectApiEndpoint (document : Object) (endpoint : String) : Except Exn Object := do
  let (host, port) := (rpartition endpoint).getD ("", endpoint)
  let spec ← mapping (value document "spec") "daemon spec"
  let template ← mapping (value spec "template") "pod template"
  let pod ← mapping (value template "spec") "pod spec"
  let containers ← list (value pod "containers") "Flannel containers must be an array"
  let containers ← containers.mapM (overrideContainer host port)
  let pod := pod.set "containers" (.arr containers)
  return document.set "spec" (.obj (spec.set "template" (.obj (template.set "spec" (.obj pod)))))

def flannelKinds : List Json := [.str "Namespace", .str "ServiceAccount", .str "ClusterRole",
  .str "ClusterRoleBinding", .str "ConfigMap", .str "DaemonSet"]

def isDaemonSet (document : Object) : Bool := value document "kind" = .str "DaemonSet"

def isFlannelConfig (document metadata : Object) : Bool :=
  value document "kind" = .str "ConfigMap" && value metadata "name" = .str "kube-flannel-cfg"

/-- The checks of a document's kind, name and namespace. -/
def checkResource (document metadata : Object) : Except Exn Unit := do
  let kind := value document "kind"
  demand (!(kind = .str "Namespace" && value metadata "name" ≠ .str "kube-flannel"))
    (valueError "Flannel must use its dedicated kube-flannel namespace")
  demand (!([.str "ServiceAccount", .str "ConfigMap", .str "DaemonSet"].contains kind &&
    value metadata "namespace" ≠ .str "kube-flannel")) (valueError "Unexpected Flannel namespace")

/-- The document with the label of the cluster. -/
def labelResource (document plan : Object) : Except Exn (Object × Object) := do
  demand (flannelKinds.contains (value document "kind"))
    (valueError "Unexpected resource in Flannel release manifest")
  let metadata ← mapping (value document "metadata") "Flannel metadata"
  checkResource document metadata
  let labels ← mapping (valueOr metadata "labels" (.obj [])) "Flannel labels"
  let uid ← item plan "uid"
  let metadata := metadata.set "labels" (.obj (labels.set clusterLabel uid))
  return (document.set "metadata" (.obj metadata), metadata)

/-- The ConfigMap of the network with the pod network of the cluster, and the digest of its data. -/
def configureNetwork (sha256 : String → String) (document settings : Object) : Except Exn (Object × String) := do
  let data ← mapping (value document "data") "Flannel data"
  let config ← loadsMapping (value data "net-conf.json") "Flannel network config"
  let network ← item settings "podCIDR"
  let data := data.set "net-conf.json" (.str (Json.dumps (.obj (config.set "Network" network))))
  let (data, configDigest) ← configureFlannelCni sha256 data
  return (document.set "data" (.obj data), configDigest)

/-- What the first loop carries from document to document. -/
structure Adaptation where
  documents : List Object
  configDigest : String
  foundDaemon : Bool

def noAdaptation : Adaptation := ⟨[], "", false⟩

def configureResource (sha256 : String → String) (settings document metadata : Object) (configDigest : String) :
    Except Exn (Object × String) :=
  if isFlannelConfig document metadata then configureNetwork sha256 document settings else .ok (document, configDigest)

def checkDaemon (document : Object) (version : String) (foundDaemon : Bool) : Except Exn Bool :=
  if isDaemonSet document then flannelDaemonMatches document version else .ok foundDaemon

def adaptResource (sha256 : String → String) (plan settings : Object) (version : String) (raw : Json)
    (before : Adaptation) : Except Exn Adaptation := do
  let document ← mapping raw "Flannel resource"
  let (document, metadata) ← labelResource document plan
  let (document, configDigest) ← configureResource sha256 settings document metadata before.configDigest
  let foundDaemon ← checkDaemon document version before.foundDaemon
  return ⟨before.documents ++ [document], configDigest, foundDaemon⟩

def adaptResources (sha256 : String → String) (plan settings : Object) (version : String) :
    List Json → Adaptation → Except Exn Adaptation
  | [], before => .ok before
  | raw :: rest, before => do
      let next ← adaptResource sha256 plan settings version raw before
      adaptResources sha256 plan settings version rest next

/-- The second loop: a DaemonSet with the digest, and the endpoint where the plan asks for it. -/
def rollResource (plan settings : Object) (configDigest : String) (document : Object) : Except Exn Json :=
  if isDaemonSet document then do
    let document ← annotateCniRollout document configDigest
    if valueOr plan "networkApiEndpoint" (.str "direct") = .str "direct" then
      let endpoint ← text (value settings "controlPlaneEndpoint") "endpoint"
      let document ← useDirectApiEndpoint document endpoint
      return .obj document
    else return .obj document
  else return .obj document

/-- Adapt the verified release and roll its init containers when CNI data changes. -/
def flannelObjects (sha256 : String → String) (rawDocuments rawPlan : Json) : Except Exn Object := do
  let plan ← mapping rawPlan "cluster plan"
  let settings ← mapping (value plan "settings") "settings"
  let network ← mapping (value settings "network") "network"
  let version ← text (value network "version") "Flannel version"
  let listed ← list rawDocuments "Flannel documents must be an array"
  let adapted ← adaptResources sha256 plan settings version listed noAdaptation
  demand (adapted.configDigest ≠ "" && adapted.foundDaemon)
    (valueError "Release manifest does not contain the selected Flannel version/config")
  let items ← adapted.documents.mapM (rollResource plan settings adapted.configDigest)
  return [("apiVersion", .str "v1"), ("kind", .str "List"), ("items", .arr items)]

end Homelab.KubePlan
