import Homelab.Operators.RunnerKubernetes.StableSettings
import Homelab.Operators.RunnerTrust

namespace Homelab.RunnerKubernetes

open Json (Object)

/-! # The credentials of an explicit cluster -/

def valueError (message : String) : Exn := .error "ValueError" message

def clusterLabel : String := "homelab.io/kube-cluster"

/-- `metadata.get("labels", {}).get(key)`, and the same of annotations. -/
def entry? (entries : Option (List (String × String))) (key : String) : Option String :=
  (entries.getD []).lookup key

def isControlPlane (cluster server : Resource) : Bool :=
  entry? server.metadata.labels clusterLabel = some cluster.name &&
    entry? server.metadata.labels "homelab.io/kube-role" = some "control-plane"

/-- Select one captured control plane; group context does not define membership. -/
def controlPlane (inventory : Object) (cluster : Resource) : Task Resource := do
  let hosts ← inventoryHosts inventory
  let servers ← hosts.mapM fun host => Api.get .server host.1
  match servers.filter (isControlPlane cluster) with
  | [server] => do
      let bound := entry? server.metadata.annotations "homelab.io/kube-cluster-uid"
      demand (bound = none || bound = some cluster.uid)
        (valueError "Control plane belongs to a replaced cluster")
      return server
  | _ => throw (valueError "The capture group must contain exactly one cluster control plane")

/-- Capture a private kubeconfig over strict, UID-qualified SSH without logging it. -/
def fetchContext (env : Environment) (server cluster : Resource) : Task Object := do
  let trusted ← RunnerTrust.prepare env (fun _ => pure server)
    [("all", .obj [("hosts", .obj [(server.name, .obj [])])])]
  let known : KnownHosts :=
    { path := env.directory ++ "/runner-kubernetes/known_hosts"
      content := RunnerTrust.knownHosts trusted }
  (Host.run (.writeText known.path known.content) : Task Unit)
  match ← managementAddress server.status with
  | none => throw (valueError "Control plane has no management address")
  | some endpoint => do
      let arguments ← sshArgs env server.uid known.path "yes"
      let host ← address endpoint
      let settings ← stableSettings (.obj cluster.spec)
      let output : Option Json ← Host.run (.probe { arguments := "-T" :: arguments, host, known }
        (.obj [("clusterUID", .str cluster.uid), ("serverUID", .str server.uid),
          ("settings", .obj settings)]))
      match output with
      | none => throw (valueError "Verified control-plane credential retrieval failed")
      | some decoded => do
          let config ← jsonObject decoded "kubeconfig"
          return config

def onlyEntry (config : Object) (field : String) : Except Exn Json :=
  match value config field with
  | .arr [single] => .ok single
  | _ => .error (valueError "Expected one self-contained Kubernetes context")

/-- A mapping has exactly these keys. -/
def hasKeys (fields : Object) (keys : List String) : Bool :=
  keys.all (fun key => (fields.get? key).isSome) && fields.all fun field => keys.contains field.1

def certificateMaterial (material : Json) : Except Exn Unit := do
  let text ← jsonString material "embedded certificate material"
  demand (text ≠ "") (valueError "Empty certificate material")

/-- Accept only a self-contained TLS client-certificate context at the desired endpoint. -/
def validateContext (config : Object) (cluster : Resource) : Except Exn Object := do
  demand (value config "apiVersion" = .str "v1" && value config "kind" = .str "Config")
    (valueError "Invalid kubeconfig envelope")
  let rawCluster ← onlyEntry config "clusters"
  let rawUser ← onlyEntry config "users"
  let rawContext ← onlyEntry config "contexts"
  let clusterEntry ← jsonObject rawCluster "cluster entry"
  let userEntry ← jsonObject rawUser "user entry"
  let contextEntry ← jsonObject rawContext "context entry"
  let connection ← jsonObject (value clusterEntry "cluster") "cluster connection"
  let credentials ← jsonObject (value userEntry "user") "client credentials"
  let context ← jsonObject (value contextEntry "context") "context binding"
  let endpoint ← jsonString (value cluster.spec "controlPlaneEndpoint") "control-plane endpoint"
  demand (value connection "server" = .str ("https://" ++ endpoint))
    (valueError "Kubeconfig endpoint does not match the cluster")
  demand (hasKeys connection ["server", "certificate-authority-data"])
    (valueError "Kubeconfig must use embedded CA trust without overrides")
  demand (hasKeys credentials ["client-certificate-data", "client-key-data"])
    (valueError "Kubeconfig must use embedded client credentials without plugins")
  credentials.forM fun credential => certificateMaterial credential.2
  certificateMaterial (value connection "certificate-authority-data")
  demand (Json.Same (value context "cluster") (value clusterEntry "name") &&
      Json.Same (value context "user") (value userEntry "name") &&
      Json.Same (value config "current-context") (value contextEntry "name"))
    (valueError "Kubeconfig context binding is inconsistent")
  let named := contextEntry.set "name" (.str cluster.name)
  return (config.set "contexts" (.arr [.obj named])).set "current-context" (.str cluster.name)

/-- `metadata.get("labels")` -/
def labelsOf (resource : Resource) : Json := (resource.metadata.labels.map Metadata.strings).getD .null

/-- Retrieve the context of an explicit cluster; recheck both resource lifetimes. -/
def verifiedContext (env : Environment) (inventory : Object) (cluster : Resource) : Task Object := do
  demand (!cluster.terminating) (valueError "Cluster is terminating")
  let server ← controlPlane inventory cluster
  let fetched ← fetchContext env server cluster
  let config ← validateContext fetched cluster
  let current ← Api.get .kubeCluster cluster.name
  demand (current.uid = cluster.uid && !current.terminating &&
      Json.Same (.obj current.spec) (.obj cluster.spec))
    (valueError "Cluster changed during credential retrieval")
  let currentServer ← Api.get .server server.name
  let currentAddress ← managementAddress currentServer.status
  let serverAddress ← managementAddress server.status
  demand (currentServer.uid = server.uid &&
      Json.Same (labelsOf currentServer) (labelsOf server) &&
      !currentServer.terminating &&
      Json.Same (value currentServer.status "hostSSH") (value server.status "hostSSH") &&
      currentAddress = serverAddress)
    (valueError "Control-plane identity changed during credential retrieval")
  return config

/-! ## The cluster client -/

def dropV (version : List Char) : List Char :=
  match version with
  | 'v' :: rest => rest
  | _ => version

/-- `v?\d+\.\d+\.\d+` -/
def isExactRelease (version : String) : Bool :=
  let numbers := IpAddress.split '.' (String.ofList (dropV version.toList))
  numbers.length = 3 && numbers.all (fullmatchPlus Char.isDigit)

def clientArchitecture (machine : String) : Option String :=
  [("x86_64", "amd64"), ("aarch64", "arm64")].lookup machine

def hexDigits (byte : UInt8) : List Char :=
  [Nat.digitChar (byte.toNat / 16), Nat.digitChar (byte.toNat % 16)]

/-- The hexadecimal digest of a file, from the digest that fingerprints use. -/
def hexDigest (env : Environment) (content : String) : String :=
  String.ofList (((Base64.decode (env.sha256 (bytesOf content) ++ "=")).getD []).flatMap hexDigits)

def isChecksum (text : String) : Bool :=
  text.length = 64 && text.toList.all fun char => char.isDigit || ('a' ≤ char && char ≤ 'f')

/-- Whether the client in place is the published one already. -/
def installedAlready (env : Environment) (destination expected : String) : Task Bool := do
  match ← (Host.run (.inspectPath destination) : Task PathState) with
  | .regular _ => do
      let present : String ← (Host.run (.readText destination) : Task String)
      return hexDigest env present = expected
  | _ => return false

def maximumClient : Nat := 128 * 1024 * 1024

/-- Install the exact cluster client using its published SHA-256 checksum. -/
def installKubectl (env : Environment) (version directory : String) : Task Unit := do
  demand (isExactRelease version) (valueError "Cluster Kubernetes version must be an exact release")
  let machine ← checkOutput ["uname", "-m"]
  match clientArchitecture (strip machine) with
  | none => throw (valueError "Unsupported kubectl client architecture")
  | some architecture => do
      let url := "https://dl.k8s.io/release/v" ++ String.ofList (dropV version.toList) ++
        "/bin/linux/" ++ architecture ++ "/kubectl"
      let published : String ← Host.run (.download (url ++ ".sha256"))
      let expected := strip published
      demand (isChecksum expected) (valueError "Invalid kubectl checksum")
      let destination := directory ++ "/kubectl"
      if ← installedAlready env destination expected then pure ()
      else do
        let binary : String ← Host.run (.download url)
        demand (binary.length ≤ maximumClient && hexDigest env binary = expected)
          (valueError "kubectl checksum mismatch")
        (Host.run (.writeText destination binary) : Task Unit)

end Homelab.RunnerKubernetes
