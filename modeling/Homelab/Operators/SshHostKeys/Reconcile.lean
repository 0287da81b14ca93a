import Homelab.Operators.ServerOperation
import Homelab.Operators.Provisioning.Bodies

namespace Homelab.SshHostKeys

open Json (Object)
open Provisioning (splitLines itemKey hostPrivateKey runPlay isActive)
open ServerOperation (reservation operationProgress)

/-! # One bounded SSH host identity reconciliation pass -/

def changed (description : String) : Exn := runtimeError (description ++ " changed; retry next pass")

/-- The fields of a mapping are what they were in a snapshot. -/
def sameMembers (observed expected : Object) (owner : String) : List String → Except Exn Unit
  | [] => .ok ()
  | field :: rest => do
      demand (Json.Same (value observed field) (value expected field)) (changed (owner ++ " " ++ field))
      sameMembers observed expected owner rest

def OWNERSHIP : List String := ["operationRef", "machineRef", "desiredSSHTrustBundleDigest"]

def IDENTITY : List String :=
  ["keyPairRef", "publicKey", "fingerprint", "keyReady", "bootstrapPublicKey", "installedKeyPairRef",
    "installedFingerprint"]

/-- The Server is still the one of the snapshot, with the same ownership and trust. -/
def checkCurrent (server snapshot : Resource) : Except Exn Unit := do
  demand (!server.terminating) (runtimeError "Server is terminating; retry next pass")
  let provisioning ← member server.status "provisioning"
  demand (!holds provisioning "maintenance")
    (runtimeError "Provisioning owns the Server; retry next pass")
  demand (server.uid = snapshot.uid) (changed "Server uid")
  let observed ← generation server
  let expected ← generation snapshot
  demand (observed = expected) (changed "Server generation")
  sameMembers server.status snapshot.status "Server" OWNERSHIP
  let networking ← member server.status "networking"
  let expectedNetworking ← member snapshot.status "networking"
  demand (Json.Same (value networking "management") (value expectedNetworking "management"))
    (changed "Management binding")
  let observedHost ← member server.status "hostSSH"
  let expectedHost ← member snapshot.status "hostSSH"
  sameMembers observedHost expectedHost "Host SSH" IDENTITY

/-- What a fresh read agrees with a snapshot about. -/
structure Matches (server snapshot : Resource) : Prop where
  alive : server.terminating = false
  free : holds (value server.status "provisioning").fields "maintenance" = false
  uid : server.uid = snapshot.uid
  generation : server.metadata.generation = snapshot.metadata.generation
  ownership : ∀ field ∈ OWNERSHIP, Json.Same (value server.status field) (value snapshot.status field)
  management : Json.Same (value (value server.status "networking").fields "management")
    (value (value snapshot.status "networking").fields "management")
  trust : ∀ field ∈ IDENTITY, Json.Same (value (value server.status "hostSSH").fields field)
    (value (value snapshot.status "hostSSH").fields field)

theorem sameMembers_ok {observed expected : Object} {owner : String} {fields : List String} {result : Unit}
    (same : sameMembers observed expected owner fields = .ok result) :
    ∀ field ∈ fields, Json.Same (value observed field) (value expected field) := by
  induction fields with
  | nil => simp
  | cons field rest ih =>
      obtain ⟨_, first, others⟩ := bind_ok same
      intro other member
      cases List.mem_cons.mp member with
      | inl found => simpa [found] using demand_ok first
      | inr later => exact ih others other later

theorem generation_ok {resource : Resource} {number : Int} (found : generation resource = .ok number) :
    resource.metadata.generation = some number := by
  unfold generation at found
  split at found
  · rename_i stored present
    rw [present, Except.ok.inj found]
  · simp at found

theorem checkCurrent_ok {server snapshot : Resource} {result : Unit}
    (passed : checkCurrent server snapshot = .ok result) : Matches server snapshot := by
  obtain ⟨_, alive, passed⟩ := bind_ok passed
  obtain ⟨provisioning, foundProvisioning, passed⟩ := bind_ok passed
  obtain ⟨_, free, passed⟩ := bind_ok passed
  obtain ⟨_, uid, passed⟩ := bind_ok passed
  obtain ⟨observed, foundObserved, passed⟩ := bind_ok passed
  obtain ⟨expected, foundExpected, passed⟩ := bind_ok passed
  obtain ⟨_, sameGeneration, passed⟩ := bind_ok passed
  obtain ⟨_, ownership, passed⟩ := bind_ok passed
  obtain ⟨networking, foundNetworking, passed⟩ := bind_ok passed
  obtain ⟨expectedNetworking, foundExpectedNetworking, passed⟩ := bind_ok passed
  obtain ⟨_, management, passed⟩ := bind_ok passed
  obtain ⟨host, foundHost, passed⟩ := bind_ok passed
  obtain ⟨expectedHost, foundExpectedHost, trust⟩ := bind_ok passed
  exact {
    alive := by simpa using demand_ok alive
    free := by
      rw [Provisioning.member_ok foundProvisioning]
      simpa using demand_ok free
    uid := by simpa using demand_ok uid
    generation := by
      have same : observed = expected := by simpa using demand_ok sameGeneration
      rw [generation_ok foundObserved, generation_ok foundExpected, same]
    ownership := sameMembers_ok ownership
    management := by
      rw [Provisioning.member_ok foundNetworking, Provisioning.member_ok foundExpectedNetworking]
      simpa using demand_ok management
    trust := by
      rw [Provisioning.member_ok foundHost, Provisioning.member_ok foundExpectedHost]
      exact sameMembers_ok trust }

/-- Reread identity, ownership and trust before delivering keys or reporting status. -/
def current (snapshot : Resource) : Task Resource := do
  let server ← Api.get .server snapshot.name
  checkCurrent server snapshot
  return server

/-- A transition out of an enrolment requires the pin it was computed with. -/
def checkPin (server : Resource) (expectedPin : Json) : Except Exn Unit :=
  if expectedPin = .null then .ok ()
  else do
    let host ← member server.status "hostSSH"
    demand (Json.Same (value host "bootstrapPublicKey") expectedPin)
      (runtimeError "Bootstrap enrollment changed; refusing stale transition")

def observationAttempts (snapshot : Resource) (fields : Object) (expectedPin : Json)
    (additionalStatus : Object) : Nat → Task Resource
  | 0 => throw (runtimeError "Concurrent Server status updates; retry next pass")
  | attempts + 1 => do
      let latest ← current snapshot
      checkPin latest expectedPin
      let result ← (Api.patchStatus latest
        (Object.update [("hostSSH", .obj fields)] additionalStatus)).attempt
      match result with
      | .ok updated => return updated
      | .error (.http 409) => observationAttempts snapshot fields expectedPin additionalStatus attempts
      | .error failure => throw failure

/-- Conditionally merge verified observations while preserving unrelated status writers. -/
def observation (snapshot : Resource) (fields : Object) (expectedPin : Json) (additionalStatus : Object) :
    Task Resource :=
  observationAttempts snapshot fields expectedPin additionalStatus 5

/-! ## First contact -/

/-- The keys that the entries of a known_hosts file hold for one alias. -/
def entryKeys (name : String) : List (List Char) → Except Exn (List String)
  | [] => .ok []
  | line :: rest =>
      if line = [] ∨ line.head? = some '#' then entryKeys name rest
      else
        match splitFields (String.ofList line) with
        | [first, algorithm, encoded] => do
            demand (first = name) (runtimeError "Unexpected bootstrap known_hosts entry")
            let key ← publicKey (algorithm ++ " " ++ encoded)
            let keys ← entryKeys name rest
            return key :: keys
        | _ => .error (runtimeError "Unexpected bootstrap known_hosts entry")

/-- The key that a first contact left. -/
def contactKey (server : Resource) (content : String) : Except Exn String := do
  let name ← hostAlias server.uid
  let entries ← entryKeys name (splitLines content)
  match entries with
  | [key] => return key
  | _ => throw (runtimeError "Expected exactly one first-contact host key")

/-- What is recorded about a first contact. -/
def pinFields (key : String) : Object :=
  [("hostSSH", .obj [("bootstrapPublicKey", .str key), ("phase", .str "BootstrapPinned"),
    ("reason", .str "FirstContactRecorded"),
    ("message", .str "First-contact host key recorded using TOFU")])]

/-- Persist a first-contact pin bound to the Server before delivering private host material. -/
def pinFirstContact (env : Environment) (server : Resource) (host : String) : Task Resource := do
  let empty : KnownHosts := { path := env.directory ++ "/first-contact-known-hosts", content := "" }
  (Host.run (.writeText empty.path "") : Task Unit)
  let known ← sshProbe env server.uid host empty "accept-new"
  let key ← contactKey server known.content
  let latest ← current server
  let trust ← member latest.status "hostSSH"
  demand (!(holds trust "bootstrapPublicKey" || holds trust "installedKeyPairRef"))
    (runtimeError "Another build enrolled this Server; retry using its persisted identity")
  -- A conflicting pin write stops; it never overwrites the winner.
  Api.patchStatus latest (pinFields key)

/-! ## The pass over one Server -/

/-- A known_hosts file with these keys for one Server, each once. -/
def writeKnown (server : Resource) (path : String) (keys : List String) : Task KnownHosts := do
  let name ← hostAlias server.uid
  let content := String.join (keys.eraseDups.map fun key => name ++ " " ++ key ++ "\n")
  (Host.run (.writeText path content) : Task Unit)
  return { path, content }

/-- The Server is not ready for reconciliation, or another operator has it. -/
def deferred (server : Resource) : Except Exn Bool := do
  let provisioning ← member server.status "provisioning"
  if holds provisioning "maintenance" || isActive (value provisioning "phase") then return true
  else
    let trust ← member server.status "hostSSH"
    if !holds trust "keyReady" || !holds trust "keyPairRef" then return true
    else
      if !holds server.status "desiredSSHTrustBundleDigest" then return true
      else
        let sshTrust ← member server.status "sshTrust"
        return !holds sshTrust "publicBundle"

/-- The desired identity is consistent, and replaces no other managed identity. -/
def checkIdentity (env : Environment) (trust : Object) : Except Exn Unit := do
  let key ← itemString trust "publicKey"
  let print ← fingerprint env key
  demand (value trust "fingerprint" = .str print)
    (runtimeError "Desired public host identity is inconsistent")
  if holds trust "installedKeyPairRef" then
    let desired ← item trust "keyPairRef"
    let desiredPrint ← item trust "fingerprint"
    demand (Json.Same (value trust "installedKeyPairRef") desired &&
        Json.Same (value trust "installedFingerprint") desiredPrint)
      (runtimeError "Unapproved managed host identity replacement")
  else return ()

/-- The keys an SSH connection may be authenticated with: the managed one, and
while it is not installed the pinned one. -/
def acceptedKeys (trust : Object) : Except Exn (List String) := do
  let managedKey ← itemKey trust "publicKey"
  let pin := value trust "bootstrapPublicKey"
  if !holds trust "installedKeyPairRef" && pin.truthy then
    let text ← asString pin
    let pinned ← publicKey text
    return [managedKey, pinned]
  else return [managedKey]

/-- Enrol a Server by first contact unless it is enrolled; the caller's copy of
the Server keeps the accepted pin, so a later failure report cannot overwrite
another enrolment. -/
def enrol (env : Environment) (host : String) : Pass Resource Unit := do
  let server ← Interaction.Action.load
  let trust ← member server.status "hostSSH"
  if !holds trust "bootstrapPublicKey" && !holds trust "installedKeyPairRef" then
    let pinned ← pinFirstContact env server host
    Interaction.Action.store pinned
  else pure ()

/-- What is reported once the managed identity has been verified. -/
def installedFields (server : Resource) (trust : Object) : Except Exn Object := do
  let keyPairRef ← item trust "keyPairRef"
  let print ← item trust "fingerprint"
  let observed ← generation server
  return [("bootstrapPublicKey", .null), ("installedKeyPairRef", keyPairRef),
    ("installedFingerprint", print), ("observedGeneration", .int observed), ("phase", .str "Ready"),
    ("reason", .str "ManagedHostKeyVerified"),
    ("message", .str "Fresh SSH connection verified managed host identity")]

/-- Deliver the managed host key over the accepted keys, then verify it alone. -/
def installKey (env : Environment) (server : Resource) (host : String) (trust : Object)
    (known : KnownHosts) : Task KnownHosts := do
  let privateKey ← hostPrivateKey env server
  let keyFile := env.directory ++ "/host_key"
  (Host.run (.writeText keyFile privateKey) : Task Unit)
  let derived ← checkOutput ["ssh-keygen", "-y", "-f", keyFile]
  let derivedKey ← publicKey derived
  let managedKey ← itemKey trust "publicKey"
  demand (derivedKey = managedKey)
    (runtimeError "Host private key does not match desired public identity")
  -- Reread immediately before the privileged change, after secret retrieval.
  let _ ← current server
  operationProgress server "Reconcile managed SSH host identity"
  runPlay env server host known "ssh_host_keys.yml"
    [("managed_host_private_key_file", .str keyFile), ("managed_host_public_key", .str managedKey)]
  let known ← writeKnown server known.path [managedKey]
  sshProbe env server.uid host known

/-- Reconcile the trust in user certificates over the managed identity. -/
def installTrust (env : Environment) (server : Resource) (host : String) (known : KnownHosts) :
    Task Unit := do
  operationProgress server "Reconcile SSH user certificate trust"
  let sshTrust ← itemObject server.status "sshTrust"
  let bundle ← item sshTrust "publicBundle"
  let bundleDigest ← item server.status "desiredSSHTrustBundleDigest"
  runPlay env server host known "ssh_trust.yml"
    [("ssh_ca_bundle", bundle), ("ssh_ca_bundle_digest", bundleDigest)]
  let _ ← sshProbe env server.uid host known
  return ()

/-- Verify the enrolled Server, install the managed identity and report it. -/
def installManaged (env : Environment) (server : Resource) (host : String) : Task Unit := do
  let trust ← itemObject server.status "hostSSH"
  -- Established Servers never fall back to first contact, even on drift.
  let keys ← acceptedKeys trust
  let known ← writeKnown server (env.directory ++ "/known_hosts") keys
  let known ← sshProbe env server.uid host known
  let server ← current server
  let known ← installKey env server host trust known
  installTrust env server host known
  let fields ← installedFields server trust
  let bundleDigest ← item server.status "desiredSSHTrustBundleDigest"
  let _ ← observation server fields (value trust "bootstrapPublicKey")
    [("installedSSHTrustBundleDigest", bundleDigest)]
  return ()

/-- Inspect, install and verify managed trust while this pass holds ownership. -/
def reconcileOwned (env : Environment) (host : String) : Pass Resource Unit := do
  let server ← Interaction.Action.load
  let waiting ← deferred server
  if waiting then return ()
  else
    let desired ← member server.status "hostSSH"
    checkIdentity env desired
    enrol env host
    let server ← Interaction.Action.load
    installManaged env server host

/-- Acquire short-operation ownership; defer busy Servers to the next pass. -/
def reconcile (env : Environment) (host : String) : Pass Resource Unit := do
  let snapshot ← Interaction.Action.load
  tryCatch (reservation snapshot "reconcile-ssh" "ssh-host-keys" none .server fun claimed _ => do
    Interaction.Action.store claimed
    reconcileOwned env host) fun
    | .operator reason message =>
        if reason = "OperationBusy" then pure () else throw (.operator reason message)
    | failure => throw failure

/-! ## The pass over all Servers -/

/-- Reconcile one Server whose inventory address is its management address. -/
def reconcileHost (env : Environment) (hostVars : Object) : Pass Resource Unit := do
  let server ← Interaction.Action.load
  if server.terminating then return ()
  else
    let literal ← itemString hostVars "ansible_host"
    let host ← address literal
    let actual ← managementAddress server.status
    demand (actual = some host) (runtimeError "Capture-group management address is stale")
    reconcile env host

/-- The public reason and message of a failed pass. -/
def failureFields : Exn → Object
  | .operator reason message =>
      [("phase", .str "Failed"), ("reason", .str reason), ("message", .str message)]
  | _ => [("phase", .str "Failed"), ("reason", .str "ReconciliationFailed"),
      ("message", .str ("Operator could not verify convergence; " ++
        "inspect connectivity, binding, credentials and host identity"))]

/-- Report a failure without exposing credentials; another failure is ignored. -/
def reportFailure (server : Resource) (failure : Exn) : Task Unit :=
  tryCatch (do
    let _ ← observation server (failureFields failure) .null []
    return ()) fun other => if other.isException then pure () else throw other

/-- Whether the pass over one Server failed. -/
def visit (env : Environment) (name : String) (hostVars : Object) : Task Bool := do
  let fetched ← (Api.get .server name).attempt
  match fetched with
  | .error failure => if failure.isException then return true else throw failure
  | .ok server =>
      let outcome ← Interaction.Action.within server (reconcileHost env hostVars)
      match outcome with
      | (.ok _, _) => return false
      | (.error failure, latest) =>
          if failure.isException then
            reportFailure latest failure
            return true
          else throw failure

def visitAll (env : Environment) : List (String × Object) → Bool → Task Bool
  | [], failed => return failed
  | (name, hostVars) :: rest, failed => do
      let result ← visit env name hostVars
      visitAll env rest (failed || result)

/-- The kinds a capture group of this operator selects. -/
def serversOnly : List Json :=
  [.obj [("apiVersion", .str "homelab.io/v1alpha1"), ("kind", .str "Server")]]

/-- Resources the capture group left out are listed with a reason. -/
def checkOmitted (status : Object) : Except Exn Unit := do
  let omitted ← memberArray status "omittedResources"
  let _ ← omitted.mapM fun entry => do
    let fields ← asObject entry
    let name ← itemString fields "name"
    let reason ← itemString fields "reason"
    return name ++ ": pending (" ++ reason ++ ")"
  return ()

/-- Run a bounded pass; isolate target failures without exposing credentials. -/
def main (env : Environment) : Task Nat := do
  let name ← env.lookup "INVENTORY_CAPTURE_GROUP"
  let (group, inventory) ← captureInventory name
  let selector ← itemObject group.spec "selector"
  let kinds := (selector.get? "matchKinds").getD (.arr [])
  demand (Json.Same kinds (.arr serversOnly))
    (runtimeError "Host-key operator requires a Server-only capture group")
  checkOmitted group.status
  let hosts ← inventoryHosts inventory
  let failed ← visitAll env hosts false
  return if failed then 1 else 0

end Homelab.SshHostKeys
