import Homelab.Operators.Configurations.Plan
import Homelab.Operators.RunnerTrust

namespace Homelab.Configurations

open Json (Object)

/-! # The files of an execution

The groups of an inventory share one mapping for each host: a group holds the
names of its hosts, and `resolved.hosts` the variables that every occurrence
of a name stands for.
-/

/-- A top-level group with the names of its hosts; without `members` it has no `hosts`. -/
structure Group where
  name : String
  fields : Object
  members : Option (List String)

/-- The `hosts` mapping of a group. -/
def occurrences (hosts : Object) (members : List String) : Json :=
  .obj (members.map fun name => (name, value hosts name))

def Group.render (hosts : Object) (group : Group) : String × Json :=
  (group.name, .obj (match group.members with
    | some members => group.fields.set "hosts" (occurrences hosts members)
    | none => group.fields))

/-- The inventory that is written, with the present variables of its hosts. -/
def render (hosts : Object) (groups : List Group) : Object := groups.map (Group.render hosts)

/-- Normalize the occurrences in one group to the resolved host variables. -/
def normalizeGroup (hosts : Object) (entry : String × Json) : Except Exn Group := do
  let fields ← jsonObject entry.2 "inventory group"
  if (fields.get? "hosts").isSome then
    let listed ← mapping fields "hosts"
    let members ← listed.mapM fun host => do
      let _ ← item hosts host.1
      return host.1
    return { name := entry.1, fields, members := some members }
  else return { name := entry.1, fields, members := none }

/-- The implicit localhost is the unprivileged runner. -/
def runnerDefaults (fields : Object) : Except Exn Object := do
  let defaults ← jsonObject ((fields.get? "vars").getD (.obj [])) "all group variables"
  return fields.set "vars" (.obj ((defaults.set "ansible_connection" (.str "local")).set
    "ansible_become" (.bool false)))

/-- The group of all hosts lists every resolved host. -/
def allGroup (hosts : Object) (fields : Object) : Except Exn Group := do
  let local' ← runnerDefaults fields
  return { name := "all", fields := local', members := some (hosts.map Prod.fst) }

/-- `inventory.setdefault("all", {})`, then its hosts and variables. -/
def completeAll (hosts : Object) : List Group → Except Exn (List Group)
  | [] => do
      let group ← allGroup hosts []
      return [group]
  | group :: rest =>
      if group.name = "all" then do
        let completed ← allGroup hosts group.fields
        return completed :: rest
      else do
        let others ← completeAll hosts rest
        return group :: others

/-- Update the variables that all occurrences of a host share. -/
def updateHost (hosts : Object) (name : String) (updates : Object) : Object :=
  hosts.set name (.obj ((value hosts name).fields.update updates))

/-- What trust preparation writes to the occurrences of the hosts. -/
def applyTrust (hosts : Object) (trusted : List RunnerTrust.HostTrust) : Object :=
  trusted.foldl (fun hosts trust =>
    updateHost hosts trust.name [("ansible_ssh_common_args", .str trust.commonArgs)]) hosts

/-- The transport of one managed host; nothing of it is inherited. -/
def transport (env : Environment) (known : String) (server : Resource) : Except Exn Object := do
  let endpoint ← managementAddress server.status
  let arguments ← sshArgs env server.uid known "yes"
  let provisioning ← mapping server.status "provisioning"
  let runReference ← pinnedReference provisioning "lastSuccessfulRunRef"
  return [("ansible_host", (endpoint.map Json.str).getD .null), ("ansible_user", .str "ansible"),
    ("ansible_connection", .str "ssh"), ("ansible_become", .bool true),
    ("ansible_ssh_args", .str (shlexJoin arguments)), ("ansible_ssh_common_args", .str ""),
    ("ansible_ssh_extra_args", .str ""), ("configuration_server_uid", .str server.uid),
    ("configuration_run_uid", value runReference "uid")]

def overrideTransport (env : Environment) (known : String) : List Resource → Object → Except Exn Object
  | [], hosts => .ok hosts
  | server :: rest, hosts => do
      let _ ← itemObject hosts server.name
      let updates ← transport env known server
      overrideTransport env known rest (updateHost hosts server.name updates)

def nodeContext (server : Resource) : Json :=
  .obj [("name", .str server.name), ("uid", .str server.uid), ("labels", labels server),
    ("annotations", annotations server)]

/-- The context that the command is given. -/
def contextValues (resolved : Plan) (directory : String) : Object :=
  [("configuration_values", (resolved.configuration.spec.get? "values").getD (.obj [])),
    ("configuration_workspace", .str directory),
    ("configuration_source_revision", .str resolved.sourceRevision),
    ("configuration_ref", resolved.configuration.reference),
    ("configuration_generation", generationOr resolved.configuration),
    ("configuration_input_revision", .str resolved.inputRevision),
    ("configuration_observed", (resolved.configuration.status.get? "outputs").getD (.obj [])),
    ("configuration_target", .obj [("kind", .str resolved.target.kind.text),
      ("metadata", resolved.target.metadata.json), ("spec", .obj resolved.target.spec)]),
    ("configuration_nodes", .arr (resolved.servers.map nodeContext))]

def inventoryPath (directory : String) : String := directory ++ "/inventory.json"

def valuesPath (directory : String) : String := directory ++ "/values.json"

def knownHostsPath (directory : String) : String := directory ++ "/known_hosts"

/-- Preserve capture groups; protect host transport and provide namespaced context. -/
def prepareExecution (env : Environment) (resolved : Plan) (directory : String) : Task Unit := do
  let normalized ← (resolved.inventory.mapM (normalizeGroup resolved.hosts) : Except Exn (List Group))
  let groups ← completeAll resolved.hosts normalized
  let trusted ← RunnerTrust.prepare env (Api.get .server) (render resolved.hosts groups)
  (Host.run (.writeText (knownHostsPath directory) (RunnerTrust.knownHosts trusted)) : Task Unit)
  let hosts ← overrideTransport env (knownHostsPath directory) resolved.servers
    (applyTrust resolved.hosts trusted)
  (Host.run (.writeJson (inventoryPath directory) (.obj (render hosts groups))) : Task Unit)
  (Host.run (.writeJson (valuesPath directory) (.obj (contextValues resolved directory))) : Task Unit)

end Homelab.Configurations
