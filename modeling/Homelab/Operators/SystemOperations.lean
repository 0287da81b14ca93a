import Homelab.Operators.Configurations.Preparation
import Homelab.Operators.ServerOperation

namespace Homelab.SystemOperations

open Json (Object)
open ServerOperation (reservation operationProgress)

/-! # Reviewed operations on a single Server -/

inductive Operation where
  | reboot
  | installHomelabd
deriving DecidableEq

def Operation.text : Operation → String
  | .reboot => "reboot"
  | .installHomelabd => "install-homelabd"

def Operation.playName : Operation → String
  | .reboot => "reboot"
  | .installHomelabd => "install_homelabd"

structure Arguments where
  operation : Operation
  server : String
  uid : String
  machineUid : String
  binaryUrl : Option String
  sha256 : Option String

/-- `parser.error(message)` -/
def usageError (message : String) : Exn := .error "SystemExit" message

/-- An agent is installed from an HTTPS URL and pinned by its checksum. -/
def checkUsage (arguments : Arguments) : Except Exn Unit :=
  if arguments.operation = .installHomelabd then do
    demand (arguments.binaryUrl.any fun url => url.startsWith "https://")
      (usageError "Agent installation requires an immutable HTTPS binary URL")
    demand (arguments.sha256.any fun sum => sum ≠ "" && sum.length = 64 &&
        sum.toList.all ("0123456789abcdef".toList.contains ·))
      (usageError "Agent installation requires a SHA-256 checksum")
  else .ok ()

/-- The literal management address of a Server. -/
def managedHost (status : Object) : Except Exn String := do
  let networking ← itemObject status "networking"
  let management ← itemObject networking "management"
  let endpoint ← itemObject management "address"
  let literal ← itemString endpoint "address"
  address literal

/-- The current identity and the lifecycle gates; discovery is not SSH trust. -/
def checkSelected (server : Resource) (uid machineUid : String) : Except Exn Unit := do
  let changed := runtimeError "Server or Machine identity changed; create a newly reviewed Command"
  demand (server.uid = uid && !server.terminating) changed
  let machine ← member server.status "machineRef"
  demand (value machine "uid" = .str machineUid) changed
  let provisioning ← member server.status "provisioning"
  demand (!holds provisioning "maintenance" && value provisioning "activeRunRef" = .null)
    (runtimeError "Provisioning owns the Server; system operation refused")
  demand (!holds server.status "operationRef") (runtimeError "Another operation owns the Server")
  let reconciliation ← member server.spec "reconciliation"
  demand (!holds reconciliation "paused") (runtimeError "Server reconciliation is paused")
  let _ ← managedHost server.status
  return ()

def selectedServer (arguments : Arguments) : Task Resource := do
  let server ← Api.get .server arguments.server
  checkSelected server arguments.uid arguments.machineUid
  return server

/-- The inventory of one host. -/
def inventory (name : String) (hostVars : Object) : Object :=
  [("all", .obj [("hosts", .obj [(name, .obj hostVars)])])]

/-- The management identity is the one that trust was prepared for. -/
def checkUnchanged (server latest : Resource) : Except Exn Unit := do
  let changed := runtimeError "Target management identity changed during operation preparation"
  demand (Json.Same (value latest.status "hostSSH") (value server.status "hostSSH")) changed
  demand (Json.Same (value latest.status "machineRef") (value server.status "machineRef")) changed
  let networking ← itemObject latest.status "networking"
  let management ← item networking "management"
  let before ← itemObject server.status "networking"
  let expected ← item before "management"
  demand (Json.Same management expected) changed

def knownHostsPath (env : Environment) : String := env.directory ++ "/known_hosts"

/-- Transport and target; nothing of them is inherited. -/
def transport (env : Environment) (arguments : Arguments) (latest : Resource) : Except Exn Object := do
  let host ← managedHost latest.status
  let options ← sshArgs env latest.uid (knownHostsPath env) "yes"
  return [("ansible_host", .str host), ("ansible_user", .str "ansible"), ("ansible_connection", .str "ssh"),
    ("ansible_become", .bool true), ("ansible_ssh_args", .str (shlexJoin options)),
    ("ansible_ssh_common_args", .str ""), ("ansible_ssh_extra_args", .str ""),
    ("system_operation_server_name", .str arguments.server),
    ("system_operation_server_uid", .str arguments.uid),
    ("system_operation_machine_uid", .str arguments.machineUid)]

/-- Resolve inherited variables, then override transport and target from fresh API
state.  The variables of the one host are returned. -/
def prepareTarget (env : Environment) (group : String) (arguments : Arguments) : Task Object := do
  let captured ← captureInventory group
  let hosts ← resolvedInventoryHosts env captured.2
  match hosts.find? fun host => host.1 == arguments.server with
  | none => throw (runtimeError "Selected Server is not in the current executor capture group")
  | some selected => do
      let server ← selectedServer arguments
      let trusted ← RunnerTrust.prepare env (Api.get .server) (inventory arguments.server selected.2)
      (Host.run (.writeText (knownHostsPath env) (RunnerTrust.knownHosts trusted)) : Task Unit)
      let latest ← selectedServer arguments
      checkUnchanged server latest
      let updates ← transport env arguments latest
      let inherited := Configurations.applyTrust [(arguments.server, .obj selected.2)] trusted
      return (value inherited arguments.server).fields.update updates

def playVariables (arguments : Arguments) : Json :=
  let given (text : Option String) : Json := (text.map Json.str).getD .null
  .obj [("homelabd_binary_url", given arguments.binaryUrl), ("homelabd_binary_sha256", given arguments.sha256)]

/-- Bounds the whole play; the reboot role waits up to 600 s for a slow-booting server. -/
def ANSIBLE_TIMEOUT_SECONDS : Nat := 660

def playArgv (env : Environment) (operation : Operation) : List String :=
  ["ansible-playbook", "-i", env.directory ++ "/inventory.json",
    env.checkout ++ "/plays/" ++ operation.playName ++ ".yml", "-e", "@" ++ env.directory ++ "/variables.json"]

/-- The documents that the play is given. -/
def playFiles (arguments : Arguments) (hostVars : Object) : List (String × Json) :=
  [("inventory.json", .obj (inventory arguments.server hostVars)), ("variables.json", playVariables arguments)]

/-- A connection that is lost leaves remote work uncertain. -/
def playFailure (returncode : Int) : Exn :=
  .operator (if returncode = 4 ∨ returncode = 6 then "RemoteWorkUncertain" else "SystemOperationFailed")
    "System operation failed; inspect Command logs"

/-- What runs while the Server is claimed. -/
def executeClaimed (env : Environment) (arguments : Arguments) (hostVars : Object) (claimed : Resource) :
    Task Unit := do
  let host ← managedHost claimed.status
  demand (value hostVars "ansible_host" = .str host)
    (.operator "InputsChanged" "Management address changed during acquisition")
  operationProgress claimed ("Execute " ++ arguments.operation.playName)
  let result ← runAnsible (playArgv env arguments.operation) (playFiles arguments hostVars)
    (env.directory ++ "/" ++ arguments.operation.playName ++ ".log") ANSIBLE_TIMEOUT_SECONDS
  demand (result.returncode = 0) (playFailure result.returncode)

/-- Execute a reviewed operation with the credentials and the inventory of this executor. -/
def main (env : Environment) (arguments : Arguments) : Task Unit := do
  checkUsage arguments
  let group ← env.lookup "INVENTORY_CAPTURE_GROUP"
  let hostVars ← prepareTarget env group arguments
  (Host.run (.writeJson (env.directory ++ "/inventory.json") (.obj (inventory arguments.server hostVars))) : Task Unit)
  (Host.run (.writeJson (env.directory ++ "/variables.json") (playVariables arguments)) : Task Unit)
  let snapshot ← selectedServer arguments
  let host ← managedHost snapshot.status
  demand (value hostVars "ansible_host" = .str host)
    (runtimeError "Management address changed before the operation claim")
  let (outcome, _) ← Interaction.Action.within () (reservation snapshot arguments.operation.text
    "system-operations" none .server fun claimed _ => executeClaimed env arguments hostVars claimed)
  match outcome with
  | .ok _ => return ()
  | .error failure => throw failure

end Homelab.SystemOperations
