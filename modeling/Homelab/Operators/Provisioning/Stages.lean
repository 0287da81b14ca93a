import Homelab.Operators.Provisioning.Plan

namespace Homelab.Provisioning

open Json (Object)

/-! # Stages on the host -/

/-- Whether a line reports a fatal result. -/
def isFatalLine (line : List Char) : Bool :=
  "fatal: ".toList.isPrefixOf line &&
    (isInfix "FAILED!".toList (line.drop 7) || isInfix "UNREACHABLE!".toList (line.drop 7))

def linesOf : List Char → List Char → List (List Char)
  | [], line => [line.reverse]
  | char :: rest, line =>
      if char = '\n' then line.reverse :: linesOf rest [] else linesOf rest (char :: line)

/-- `text.splitlines()` -/
def splitLines (text : String) : List (List Char) :=
  let lines := linesOf text.toList []
  if lines.getLast? = some [] then lines.dropLast else lines

def isLineEnd (char : Char) : Bool := char == '\n' || char == '\r'

/-- The label of the task header a text starts with. -/
def taskHeader? (text : List Char) : Option (List Char) :=
  if "TASK [".toList.isPrefixOf text then
    let label := (text.drop 6).takeWhile fun char => !isLineEnd char && char != ']'
    if label ≠ [] ∧ ((text.drop 6).drop label.length).head? = some ']' then some label else none
  else none

/-- Labels of the tasks with the output that follows each one's header line. -/
def taskBlocks : List Char → List Char → Option (List Char) → List (List Char × List Char)
  | [], block, label => (label.map fun label => (label, block.reverse)).toList
  | char :: rest, block, label =>
      match taskHeader? (char :: rest) with
      | some next =>
          (label.map fun label => (label, block.reverse)).toList ++
            taskBlocks rest [] (some next)
      | none => taskBlocks rest (char :: block) label

/-- The output after the header line a block starts in. -/
def afterHeader (block : List Char) : List Char := block.dropWhile fun char => !isLineEnd char

/-- Keep the failure label even when an always cleanup task follows. -/
def failedAnsibleTask (output : String) : String :=
  let failures := (taskBlocks output.toList [] none).filter fun entry =>
    (linesOf (afterHeader entry.2) []).any isFatalLine
  match failures.getLast? with
  | some (label, _) => String.ofList label
  | none => "initialization (see playbook output)"

def replaceColons (text : String) : String :=
  String.ofList (text.toList.map fun char => if char = ':' then '-' else char)

def ansibleHost (host sshArguments : String) (extra : Object) : Object :=
  [("ansible_host", .str host), ("ansible_user", .str "ansible"), ("ansible_become", .bool true)] ++
    extra ++ [("ansible_ssh_args", .str sshArguments), ("ansible_ssh_common_args", .str ""),
      ("ansible_ssh_extra_args", .str "")]

/-- A private inventory of exactly one host. -/
def scopedInventory (name : String) (hostVars : Object) : Json :=
  .obj [("all", .obj [("hosts", .obj [(name, .obj hostVars)])])]

/-- The variables every stage is run with. -/
def stageVariables (view : View) (stage : String) : Except Exn Object := do
  let attempt := view.provisioning
  let snapshot ← itemObject attempt "snapshot"
  let attemptID ← item attempt "attemptID"
  let targetDisk ← item snapshot "targetDisk"
  let planDigest ← item snapshot "planDigest"
  let inputs ← itemObject snapshot "inputs"
  let serverSpec ← itemObject inputs "serverSpec"
  let osSpec ← item serverSpec "operatingSystem"
  let storage ← item inputs "storage"
  let users ← item inputs "users"
  let disableEEE ← item inputs "disableEEE"
  let bootMAC ← itemString snapshot "bootMAC"
  let diskIdentity ← item snapshot "diskIdentity"
  let isoBuildID ← item snapshot "isoBuildID"
  let sshTrust ← itemObject view.server.status "sshTrust"
  let bundle ← item sshTrust "publicBundle"
  let bundleDigest ← item snapshot "trustBundleDigest"
  let artifacts ← item snapshot "artifacts"
  let bootArguments ← memberArray snapshot "bootArguments"
  let arguments ← bootArguments.mapM asString
  let sourceBootID ← item attempt "sourceBootID"
  return [
    ("provision_stage", .str stage),
    ("provision_attempt_id", attemptID),
    ("provision_server_uid", .str view.server.uid),
    ("provision_target_disk", targetDisk),
    ("provision_run_uid", .str view.run.uid),
    ("provision_plan_digest", planDigest),
    ("provision_operating_system", osSpec),
    ("provision_server_spec", .obj serverSpec),
    ("storage", storage),
    ("provision_users", users),
    ("provision_disable_eee", disableEEE),
    ("provision_boot_mac", .str bootMAC),
    ("provision_disk_identity", diskIdentity),
    ("provision_live_build_id", isoBuildID),
    ("provision_live_boot_id", (attempt.get? "liveBootID").getD (.str "")),
    ("provision_destructive_authorized", .bool (stage = "install")),
    ("ssh_ca_bundle", bundle),
    ("ssh_ca_bundle_digest", bundleDigest),
    ("provision_live_artifacts", artifacts),
    ("provision_live_boot_arguments", .arr (arguments.map fun argument =>
      .str (replaceText "@BOOT_MAC@" (replaceColons bootMAC) argument))),
    ("provision_source_boot_id", sourceBootID)]

/-- The playbook invocation of a stage, with the documents it is given. -/
def stageArgv (env : Environment) (play : String) : List String :=
  ["ansible-playbook", "-i", env.directory ++ "/inventory.json",
    env.lookupOr "ANSIBLE_PLAYS_PATH" "/homelab/plays" ++ "/" ++ play, "-e",
    "@" ++ env.directory ++ "/variables.json"]

/-- Run a reviewed Ansible stage with pinned variables and live protected logs. -/
def runStage (env : Environment) (view : View) (known : KnownHosts) (stage : String) : Task Unit := do
  let host ← hostAddress view.server
  let arguments ← sshArgs env view.server.uid known.path "yes"
  let inventory := scopedInventory view.server.name (ansibleHost host (shlexJoin arguments) [])
  let stageVars ← stageVariables view stage
  let attemptID ← itemString view.provisioning "attemptID"
  (Host.run (.writeJson (env.directory ++ "/inventory.json") inventory) : Task Unit)
  (Host.run (.writeJson (env.directory ++ "/variables.json") (.obj stageVars)) : Task Unit)
  let result ← runAnsible (stageArgv env "provision_stage.yml")
    [("inventory.json", inventory), ("variables.json", .obj stageVars)]
    ("/tmp/provision-operator-diagnostics/" ++ attemptID ++ "-" ++ stage ++ ".log")
    (if stage = "install" ∨ stage = "repair" then 7200 else 600)
  demand (result.returncode = 0) (provisioningBlocked
    ("Ansible stage failed at " ++ failedAnsibleTask result.stdout ++
      "; see playbook output (credential tasks remain redacted)"))

/-- Request reboot through Ansible; later boot attestation establishes success. -/
def reboot (env : Environment) (view : View) (known : KnownHosts) : Task Unit :=
  runStage env view known "reboot"

/-! ## The managed host key -/

def fetchObject (url method token : String) (body : Json) : Task Object := do
  let response : Json ← Host.run (.fetch url method token body)
  match response with
  | .obj fields => return fields
  | _ => throw (.error "ValueError" "API response must be a JSON mapping")

def annotation (resource : Resource) (key : String) : Option String :=
  ((resource.metadata.annotations.getD []).find? (fun entry => entry.1 == key)).map Prod.snd

/-- `public_key(mapping[key])` -/
def itemKey (fields : Object) (key : String) : Except Exn String :=
  itemString fields key >>= publicKey

def readHostKey (base uid token : String) (reference host : Object) : Task String := do
  let response ← fetchObject (base ++ "/v1/kv2/data/secrets/ssh/hosts/" ++ uid) "GET" token .null
  let version ← jsonObject (value response "data") "OpenBao version"
  let data ← jsonObject (value version "data") "OpenBao key data"
  let mismatch := runtimeError "OpenBao host identity does not match the owned SSHKeyPair"
  let expected ← item reference "uid"
  demand (Json.Same (value data "sshKeyPairUID") expected) mismatch
  let stored ← jsonString (value data "publicKey") "OpenBao publicKey"
  let storedKey ← publicKey stored
  let hostKey ← itemKey host "publicKey"
  demand (storedKey = hostKey) mismatch
  jsonString (value data "privateKey") "OpenBao privateKey"

def revokeToken (base token : String) : Task Unit := do
  let _ ← fetchObject (base ++ "/v1/auth/token/revoke-self") "POST" token (.obj [])
  pure ()

/-- Run a computation and then another one, whatever the first one's outcome. -/
def withCleanup {α : Type} (body : Task α) (cleanup : Task Unit) : Task α := do
  let outcome ← body.attempt
  cleanup
  match outcome with
  | .ok value => return value
  | .error failure => throw failure

/-- Validate ownership before reading one host key with a short-lived token. -/
def hostPrivateKey (env : Environment) (server : Resource) : Task String := do
  let host ← itemObject server.status "hostSSH"
  let reference ← itemObject host "keyPairRef"
  let name ← itemString reference "name"
  let key ← Api.get .sshKeyPair name
  let foreign := runtimeError "Host key ownership does not match the Server"
  let uid ← item reference "uid"
  let path ← item key.spec "path"
  demand (uid = .str key.uid && !key.terminating &&
      annotation key "homelab.io/server-uid" = some server.uid &&
      path = .str ("ssh/hosts/" ++ server.uid)) foreign
  let stale := runtimeError "Owned host key is not current and Ready"
  let ready ← readyStatus key
  demand ready stale
  let ownedKey ← itemKey key.status "publicKey"
  let hostKey ← itemKey host "publicKey"
  demand (ownedKey = hostKey) stale
  let store ← itemObject key.spec "secretStoreRef"
  let storeName ← item store "name"
  demand (storeName = .str (env.lookupOr "HOST_KEY_SECRET_STORE" "openbao"))
    (runtimeError "Host key belongs to a different SecretStore")
  let url ← env.lookup "BAO_ADDR"
  let base := trimSlashes url
  let role ← env.lookup "HOST_KEY_BAO_ROLE_ID"
  let secret ← env.lookup "HOST_KEY_BAO_SECRET_ID"
  let login ← fetchObject (base ++ "/v1/auth/approle/login") "POST" ""
    (.obj [("role_id", .str role), ("secret_id", .str secret)])
  let auth ← jsonObject (value login "auth") "OpenBao auth"
  let token ← jsonString (value auth "client_token") "OpenBao client_token"
  withCleanup (readHostKey base server.uid token reference host) (revokeToken base token)

/-- The labels of all task headers in an output. -/
def taskLabels (output : String) : List String :=
  (taskBlocks output.toList [] none).map fun entry => String.ofList entry.1

/-- Execute the reviewed host-key or trust play with a private scoped inventory. -/
def runPlay (env : Environment) (server : Resource) (host : String) (known : KnownHosts)
    (play : String) (playVars : Object) : Task Unit := do
  let literal ← address host
  let hostKeyAlias ← hostAlias server.uid
  let arguments ← sshArgs env server.uid known.path "yes"
  let inventory := scopedInventory server.name
    (ansibleHost literal (shlexJoin arguments) [("host_key_alias", .str hostKeyAlias)])
  (Host.run (.writeJson (env.directory ++ "/inventory.json") inventory) : Task Unit)
  (Host.run (.writeJson (env.directory ++ "/variables.json") (.obj playVars)) : Task Unit)
  let result ← runAnsible (stageArgv env play)
    [("inventory.json", inventory), ("variables.json", .obj playVars)]
    ("/tmp/ssh-host-operator-diagnostics/" ++ server.uid ++ "-" ++ play ++ ".log") 300
  demand (result.returncode ≠ 4 ∧ result.returncode ≠ 6)
    (.operator "RemoteWorkUncertain" "SSH transport failed; inspect remote work")
  demand (result.returncode = 0) (.operator "SSHReconciliationFailed"
    ("Ansible reconciliation failed at " ++
      (taskLabels result.stdout).getLastD "initialization" ++
      " (secret-bearing output kept in private diagnostics)"))

/-! ## Boot sessions -/

/-- The pinned key of a first contact that left exactly one entry. -/
def firstContactKey (view : View) (content : String) : Except Exn String := do
  let invalid := provisioningBlocked "Invalid attempt-scoped TOFU pin"
  let name ← hostAlias view.server.uid
  match splitLines content with
  | [line] =>
      match splitFields (String.ofList line) with
      | first :: rest =>
          demand (first = name) invalid
          publicKey (" ".intercalate rest)
      | [] => throw (.error "IndexError" "list index out of range")
  | _ => throw invalid

def isIntendedLive (attempt facts : Object) : Except Exn Bool := do
  let live ← item facts "live"
  let build ← item facts "liveBuildID"
  let snapshot ← itemObject attempt "snapshot"
  let pinned ← item snapshot "isoBuildID"
  let bootID ← item facts "bootID"
  return live.truthy && Json.Same build pinned && !decide (Json.Same bootID (value attempt "sourceBootID"))

/-- Scoped first contact, before reading any host private key. -/
def firstContact (env : Environment) : Pass View (Object × KnownHosts × Json) := do
  let view ← Interaction.Action.load
  let empty : KnownHosts := { path := env.directory ++ "/live-first-contact", content := "" }
  (Host.run (.writeText empty.path "") : Task Unit)
  let host ← hostAddress view.server
  let known ← sshProbe env view.server.uid host empty "accept-new"
  let pin ← firstContactKey view known.content
  let facts ← inspect env view known
  let intended ← isIntendedLive view.provisioning facts
  demand intended (provisioningBlocked "Fresh contact is not the intended live session")
  checkpoint Phase.awaitingLive.json [("bootstrapPublicKey", .str pin)]
  return (facts, known, .str pin)

/-- Inspect the host, falling back on first contact while no key is pinned.
Nothing is returned when another round is needed. -/
def contact (env : Environment) (live : Bool) : Pass View (Option (Object × KnownHosts)) := do
  let view ← Interaction.Action.load
  let pin := if live then value view.provisioning "bootstrapPublicKey" else .null
  let known ← knownFile env view pin
  let inspected ← (inspect env view known).attempt
  match inspected with
  | .ok facts => return some (facts, known)
  | .error failure =>
      if failure.isException then
        if live && !pin.truthy then
          tryCatch (do
            let (facts, known, _) ← firstContact env
            return some (facts, known)) fun failure =>
              if failure.isException then return none else throw failure
        else return none
      else throw failure

/-- What a changed boot session must look like. -/
def acceptSession (attempt facts : Object) (live : Bool) : Except Exn Bool := do
  let source := value attempt (if live then "sourceBootID" else "liveBootID")
  let observed ← item facts "live"
  let bootID ← item facts "bootID"
  if observed = .bool live ∧ ¬ Json.Same bootID source then
    if live then
      let build ← item facts "liveBuildID"
      let snapshot ← itemObject attempt "snapshot"
      let pinned ← item snapshot "isoBuildID"
      demand (Json.Same build pinned) (provisioningBlocked "Booted the wrong immutable live image")
      return true
    else return true
  else return false

def awaitRounds (env : Environment) (live : Bool) : Nat → Pass View (Object × KnownHosts)
  | 0 => throw (provisioningBlocked "Timed out waiting for the intended changed boot session")
  | rounds + 1 => do
      let view ← Interaction.Action.load
      let latest ← current view (!live) true
      Interaction.Action.store latest
      match hostAddress latest.server with
      | .error (.operator "ManagementNetworkPending" _) => awaitRounds env live rounds
      | .error failure => throw failure
      | .ok _ =>
          let reached ← contact env live
          match reached with
          | none => awaitRounds env live rounds
          | some (facts, known) =>
              let accepted ← acceptSession latest.provisioning facts live
              if accepted then return (facts, known) else awaitRounds env live rounds

/-- Wait for a changed boot; first contact is limited to this run's live handoff. -/
def awaitSession (env : Environment) (live : Bool) : Pass View (Object × KnownHosts) := do
  let rounds : Nat ← (Host.run .rounds : Task Nat)
  awaitRounds env live rounds

/-- `text.splitlines(keepends=True)` contains `line`, which ends the last line. -/
def hasLine (line content : String) : Bool :=
  (linesOf content.toList []).dropLast.any fun known => String.ofList known ++ "\n" == line

/-- Accept either the recorded live key or the verified managed key. -/
def extendTrust (known : KnownHosts) (trusted managedEntry : String) : Task KnownHosts := do
  if hasLine managedEntry trusted then return { known with content := trusted }
  else
    let content := trusted ++ managedEntry
    (Host.run (.writeText known.path content) : Task Unit)
    return { known with content }

/-- Attest live boot and disk before private-key delivery, then verify the managed key. -/
def enrollLive (env : Environment) (facts : Object) (known : KnownHosts) : Pass View KnownHosts := do
  let view ← Interaction.Action.load
  let snapshot ← itemObject view.provisioning "snapshot"
  validateDisk facts true
  let disk ← item facts "disk"
  let pinnedDisk ← item snapshot "diskIdentity"
  demand (Json.Same disk pinnedDisk)
    (provisioningBlocked "Live disk identity differs from the approved plan")
  let _ ← current view false false
  let privateKey ← hostPrivateKey env view.server
  let keyFile := env.directory ++ "/host_key"
  (Host.run (.writeText keyFile privateKey) : Task Unit)
  let derived ← checkOutput ["ssh-keygen", "-y", "-f", keyFile]
  let derivedKey ← publicKey derived
  let host ← itemObject view.server.status "hostSSH"
  let managedKey ← itemKey host "publicKey"
  demand (derivedKey = managedKey)
    (provisioningBlocked "Managed host private/public identity mismatch")
  let _ ← current view false false
  let name ← hostAlias view.server.uid
  let managedEntry := name ++ " " ++ derivedKey ++ "\n"
  -- The play reloads the SSH server before it has finished its own connection.
  let trusted : String ← (Host.run (.readText known.path) : Task String)
  let known ← extendTrust known trusted managedEntry
  let literal ← hostAddress view.server
  runPlay env view.server literal known "ssh_host_keys.yml"
    [("managed_host_private_key_file", .str keyFile), ("managed_host_public_key", .str derivedKey)]
  let known ← knownFile env view
  let known ← sshProbe env view.server.uid literal known
  let bootID ← item facts "bootID"
  checkpoint Phase.awaitingLive.json
    [("liveBootID", bootID), ("bootstrapPublicKey", .null), ("netbootArmed", .bool false)]
  return known

/-! ## The installed system -/

def observedPartition? (number : Json) (observed : List (Json × Object)) : Object :=
  ((observed.reverse.find? fun entry => decide (Json.Same entry.1 number)).map Prod.snd).getD []

/-- Partitions by number; a later entry replaces an earlier one. -/
def indexPartitions (partitions : List Json) : Except Exn (List (Json × Object)) :=
  partitions.mapM fun partition => do
    let fields ← asObject partition
    let number ← item fields "number"
    demand number.hashable (.error "TypeError" "unhashable type")
    return (number, fields)

def distinctNumbers (observed : List (Json × Object)) : Nat :=
  (observed.map fun entry => entry.1.canonical).dedup.length

def numberText : Json → String
  | .int number => toString number
  | .str number => number
  | _ => ""

def megabytes (value : Int) : Json := .int (value * 1048576)

/-- One planned partition is there as planned. -/
def verifyPartition (observed : List (Json × Object)) (planned : Json) : Except Exn Unit := do
  let partition ← asObject planned
  let number ← item partition "number"
  let actual := observedPartition? number observed
  let startMiB ← item partition "startMiB" >>= asInt
  let endMiB ← item partition "endMiB" >>= asInt
  let filesystem ← item partition "filesystem"
  let role ← item partition "role"
  let mounted ← if role = .str "swap" then pure (holds actual "activeSwap") else do
    let mountPoint ← item partition "mountPoint"
    let mountPoints ← memberArray actual "mountPoints"
    pure (mountPoints.contains mountPoint)
  demand (value actual "startBytes" = megabytes startMiB &&
      value actual "size" = megabytes (endMiB - startMiB) &&
      Json.Same (value actual "filesystem") filesystem && holds actual "uuid" &&
      holds actual "partUUID" && mounted)
    (provisioningBlocked ("Installed partition " ++ numberText number ++ " differs from the plan"))

def verifyPartitions (observed : List (Json × Object)) : List Json → Except Exn Unit
  | [] => .ok ()
  | partition :: rest => do
      verifyPartition observed partition
      verifyPartitions observed rest

/-- Attest exact geometry, filesystems and mounts, not just root availability. -/
def verifyInstalledStorage (storage facts : Object) : Except Exn Unit := do
  let partitions ← memberArray facts "partitions"
  let observed ← indexPartitions partitions
  let planned ← memberArray storage "partitions"
  demand (distinctNumbers observed = planned.length && distinctNumbers observed = partitions.length)
    (provisioningBlocked "Installed partition set differs from the plan")
  verifyPartitions observed planned

/-- What the marker of an installed system must say. -/
def expectedMarker (view : View) : Except Exn Object := do
  let attemptID ← item view.provisioning "attemptID"
  let snapshot ← itemObject view.provisioning "snapshot"
  let planDigest ← item snapshot "planDigest"
  return [("serverUID", .str view.server.uid), ("attemptID", attemptID),
    ("runUID", .str view.run.uid), ("planDigest", planDigest)]

def matchesMarker (marker expected : Object) : Bool :=
  expected.all fun entry => decide (Json.Same (value marker entry.1) entry.2)

/-- `facts.get(key) or {}` -/
def memberOr (fields : Object) (key : String) : Except Exn Object :=
  if holds fields key then itemObject fields key else .ok []

def stripQuotes (text : String) : String :=
  String.ofList (((text.toList.dropWhile (· == '"')).reverse.dropWhile (· == '"')).reverse)

/-- Attest fresh boot, marker, root disk, OS and restored GRUB before completion. -/
def verifyInstalled (view : View) (facts : Object) : Except Exn Unit := do
  let attempt := view.provisioning
  let marker ← memberOr facts "marker"
  let live ← item facts "live"
  let rootType ← item facts "rootType"
  let bootID ← item facts "bootID"
  let disk ← item facts "disk"
  let snapshot ← itemObject attempt "snapshot"
  let pinnedDisk ← item snapshot "diskIdentity"
  demand (!live.truthy && rootType = .str "ext4" &&
      !decide (Json.Same bootID (value attempt "liveBootID")) && Json.Same disk pinnedDisk)
    (provisioningBlocked "Not a fresh installed boot")
  let expected ← expectedMarker view
  let rootUUID ← item facts "rootUUID"
  demand (matchesMarker marker expected && rootUUID.truthy &&
      Json.Same (value marker "rootUUID") rootUUID && holds facts "rootOnTarget")
    (provisioningBlocked "Installed marker/root/disk does not match this attempt")
  let inputs ← itemObject snapshot "inputs"
  let serverSpec ← itemObject inputs "serverSpec"
  let target ← itemObject serverSpec "operatingSystem"
  let os ← itemObject facts "os"
  let observed ← stringOr os "ID" ""
  let codename ← stringOr os "VERSION_CODENAME" ""
  let distribution ← item target "distribution"
  let version := value target "version"
  demand (.str (stripQuotes observed) = distribution &&
      (distribution ≠ .str "debian" || .str (stripQuotes codename) = version))
    (provisioningBlocked "Installed OS differs from requested target")
  let grubReady ← item facts "grubReady"
  let grubEnvironment ← itemString facts "grubEnvironment"
  demand (grubReady.truthy && !occursIn "next_entry=" grubEnvironment)
    (provisioningBlocked "Installed GRUB contract is not restored")
  let storage ← itemObject inputs "storage"
  verifyInstalledStorage storage facts

end Homelab.Provisioning
