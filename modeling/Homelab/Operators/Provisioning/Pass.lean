import Homelab.Operators.Provisioning.Stages

namespace Homelab.Provisioning

open Json (Object)

/-! # One bounded, checkpointed provisioning pass -/

/-- No other Server may have a claimed run that retains maintenance. -/
def checkOthers (view : View) : List Resource → Task Unit
  | [] => pure ()
  | other :: rest => do
      let reserved ← eligible other
      if other.uid ≠ view.server.uid ∧ reserved then
        let bound ← bindRun other
        demand (value bound.provisioning "phase" = Phase.pending.json ||
            !holds bound.provisioning "maintenance")
          (provisioningBlocked "Another run retains lifecycle maintenance; inspect it first")
      else pure ()
      checkOthers view rest

/-- What claiming a run writes. -/
def claimFields (run : Resource) (snapshot : Json) (startedAt build : String) (generation : Int)
    (bootID : Json) : Object :=
  [("phase", Phase.preparingBoot.json),
    ("currentStage", Phase.preparingBoot.json),
    ("maintenance", .bool true),
    ("attemptID", .str run.uid),
    ("snapshot", snapshot),
    ("startedAt", .str startedAt),
    ("completedAt", .null),
    ("backendRunID", .str build),
    ("observedServerGeneration", .int generation),
    ("sourceBootID", bootID),
    ("liveBootID", .null),
    ("bootstrapPublicKey", .null),
    ("netbootArmed", .bool false),
    ("bootTarget", .str "live"),
    ("message", .str "Attempt claimed")]

/-- Creation already reserved this Server atomically; claim the immutable run. -/
def claimRun (env : Environment) (view : View) (facts : Object) (snapshot : Json) : Task Resource := do
  let startedAt : String ← Host.run .now
  let observed ← generation view.server
  let bootID ← item facts "bootID"
  Api.patchStatus view.run (claimFields view.run snapshot startedAt
    (env.lookupOr "BUILD_ID" "manual") observed bootID)

/-- Whether desired state lets an attempt start. -/
def mayStart (server : Resource) : Except Exn Bool := do
  let desired ← member server.spec "provisioning"
  if holds desired "enabled" then
    let reconciliation ← member server.spec "reconciliation"
    return !holds reconciliation "paused"
  else return false

/-- The plan of an attempt that passes every check before the claim. -/
def examine (env : Environment) (view : View) (hostVars : Object) (revision : String) :
    Task (Object × Json) := do
  identity env view
  let known ← knownFile env view
  let facts ← inspect env view known
  -- Existing staging mounts and swap are irrelevant until the new live boot.
  validateDisk facts false
  let live ← item facts "live"
  if live.truthy then
    let rootOnTarget ← item facts "rootOnTarget"
    demand (!rootOnTarget.truthy) (provisioningBlocked "Live root depends on the approved disk")
  else
    let grubReady ← item facts "grubReady"
    demand grubReady.truthy (provisioningBlocked
      "Installed host has no validated GRUB/iPXE path; manual setup required")
  let snapshot ← plan env view hostVars facts revision
  return (facts, snapshot)

/-- Validate before claiming; preflight must not write status or mutate the node. -/
def prepareAttempt (env : Environment) (hostVars : Object) (revision : String) (preflight : Bool) :
    Pass View Bool := do
  let view ← Interaction.Action.load
  let allowed ← mayStart view.server
  if allowed then
    let (facts, snapshot) ← examine env view hostVars revision
    if preflight then return false
    else
      let others ← Api.list .server
      checkOthers view others
      let result ← claimRun env view facts snapshot
      Interaction.Action.store { view with run := result, provisioning := result.status }
      return true
  else return false

/-- Prepare a fresh handoff from the pinned source session; never reuse live boot. -/
def prepareBoot (env : Environment) (known : KnownHosts) : Pass View Unit := do
  let view ← Interaction.Action.load
  let facts ← inspect env view known
  let unexpected := provisioningBlocked "Unexpected session/disk before boot preparation"
  let disk ← item facts "disk"
  let snapshot ← itemObject view.provisioning "snapshot"
  let pinnedDisk ← item snapshot "diskIdentity"
  demand (Json.Same disk pinnedDisk) unexpected
  let bootID ← item facts "bootID"
  let sourceBootID ← item view.provisioning "sourceBootID"
  demand (Json.Same bootID sourceBootID) unexpected
  artifactPreflight env view
  let live ← item facts "live"
  if live.truthy then
    runStage env view known "prime"
    checkpoint Phase.preparingBoot.json [("netbootArmed", .bool true)]
    let armed ← Interaction.Action.load
    runStage env armed known "refresh-prepare"
    let _ ← current armed false false
    checkpoint Phase.awaitingLive.json [("liveBootID", .null), ("netbootArmed", .bool true)]
    let awaiting ← Interaction.Action.load
    let _ ← current awaiting false false
    runStage env awaiting known "refresh-boot"
  else
    let grubEnvironment ← itemString facts "grubEnvironment"
    demand (!occursIn "next_entry=" grubEnvironment)
      (provisioningBlocked "Unaccounted pending GRUB entry")
    runStage env view known "prime"
    checkpoint Phase.awaitingLive.json [("netbootArmed", .bool true)]
    let awaiting ← Interaction.Action.load
    let _ ← current awaiting false false
    runStage env awaiting known "arm"
    let _ ← current awaiting false false
    reboot env awaiting known

/-- The recorded live session must still be the one that answers. -/
def confirmLive (attempt facts : Object) : Except Exn Unit := do
  let bootID ← item facts "bootID"
  let sourceBootID ← item attempt "sourceBootID"
  let liveBootID ← item attempt "liveBootID"
  let live ← item facts "live"
  let build ← item facts "liveBuildID"
  let snapshot ← itemObject attempt "snapshot"
  let pinned ← item snapshot "isoBuildID"
  demand (!decide (Json.Same bootID sourceBootID) && Json.Same bootID liveBootID && live.truthy &&
    Json.Same build pinned) (provisioningBlocked "Recorded live session changed")

def reachLive (env : Environment) (known : KnownHosts) : Pass View (Object × KnownHosts) := do
  let view ← Interaction.Action.load
  if holds view.provisioning "liveBootID" then
    let facts ← inspect env view known
    confirmLive view.provisioning facts
    return (facts, known)
  else awaitSession env true

/-- Attest and enroll fresh live media before entering the one-shot destructive stage. -/
def installLive (env : Environment) (known : KnownHosts) : Pass View KnownHosts := do
  let (facts, session) ← reachLive env known
  let known ← enrollLive env facts session
  let view ← Interaction.Action.load
  verifyDependencies view
  let _ ← current view false false
  checkpoint Phase.installing.json
    [("message", .str "Destructive stage entered; interrupted runs require manual inspection")]
  let installing ← Interaction.Action.load
  runStage env installing known "install"
  checkpoint Phase.awaitingInstalled.json
    [("bootTarget", .str "installed"), ("netbootArmed", .bool false)]
  return known

/-- A final reboot is safe only from the exact completed live session. -/
def confirmStaged (view : View) (facts : Object) : Except Exn Unit := do
  let expected ← expectedMarker view
  let bootID ← item facts "bootID"
  let ready ← item facts "stagedBootReady"
  let marker ← memberOr facts "stagedMarker"
  demand (Json.Same bootID (value view.provisioning "liveBootID") && ready.truthy &&
    matchesMarker marker expected)
    (provisioningBlocked "Cannot verify a completed staged installation for final boot")

/-- Recover only the final reboot boundary; never replay installation. -/
def finishBoot (env : Environment) (known : KnownHosts) : Pass View KnownHosts := do
  let view ← Interaction.Action.load
  let inspected ← (inspect env view known).attempt
  match inspected with
  | .ok before =>
      let live ← item before "live"
      if live.truthy then
        confirmStaged view before
        let _ ← current view true false
        reboot env view known
      else pure ()
  -- The reboot may already be in progress.
  | .error failure => if failure.isException then pure () else throw failure
  let (facts, session) ← awaitSession env false
  let reached ← Interaction.Action.load
  verifyInstalled reached facts
  checkpoint Phase.verifying.json []
  return session

def managementServices (facts : Object) : Except Exn String := do
  let os ← itemObject facts "os"
  let name ← itemString os "ID"
  return "sudo -n systemctl is-active homelabd ansible-account.timer lldpd NetworkManager " ++
    if stripQuotes name = "debian" then "ssh" else "sshd"

/-- Verify disk, OS and services before completing and releasing the run. -/
def verifyCompletion (env : Environment) (known : KnownHosts) : Pass View Unit := do
  let view ← Interaction.Action.load
  let facts ← inspect env view known
  verifyInstalled view facts
  let _ ← current view false false
  runStage env view known "post"
  -- Only attested installed state and healthy services may complete a run.
  let host ← hostAddress view.server
  let session ← sshSession env view.server.uid host known "yes"
  let command ← managementServices facts
  let returncode : Int ← (Host.run (.services session command) : Task Int)
  demand (returncode = 0) (provisioningBlocked "Installed management services are not healthy")
  let final ← inspect env view known
  verifyInstalled view final
  let completedAt : String ← (Host.run .now : Task String)
  checkpoint Phase.succeeded.json [("maintenance", .bool false), ("completedAt", .str completedAt),
    ("message", .str "Fresh installed boot, marker and management services verified")]
  let completed ← Interaction.Action.load
  releaseRun completed

/-- Run `body` when the attempt has reached `phase`. -/
def atPhase (phase : Phase) (known : KnownHosts) (body : KnownHosts → Pass View KnownHosts) :
    Pass View KnownHosts := do
  let view ← Interaction.Action.load
  let reached ← item view.provisioning "phase"
  if reached = phase.json then body known else return known

/-- Advance a claimed run through its named stages. -/
def advance (env : Environment) (revision : String) : Pass View Unit := do
  let view ← Interaction.Action.load
  let snapshot ← itemObject view.provisioning "snapshot"
  let pinned ← item snapshot "codeRevision"
  demand (pinned = .str revision)
    (provisioningBlocked "Resume requires the pinned operator-code revision")
  let phase ← item view.provisioning "phase"
  let installed : Bool := phase = Phase.awaitingInstalled.json
  let latest ← current view installed (installed || phase = Phase.awaitingLive.json)
  Interaction.Action.store latest
  verifyDependencies latest
  drainCommands
  let known ← knownFile env latest
  -- Intentionally sequential: a successful stage advances this same pass.
  -- Never dispatch Installing on resume; interrupted erasure requires inspection.
  let known ← atPhase .preparingBoot known fun known => do
    prepareBoot env known
    return known
  let known ← atPhase .awaitingLive known (installLive env)
  let known ← atPhase .awaitingInstalled known (finishBoot env)
  let _ ← atPhase .verifying known fun known => do
    verifyCompletion env known
    return known

/-- Advance one reserved run; never replay interrupted erasure. -/
def reconcile (env : Environment) (hostVars : Object) (revision : String) (preflight : Bool) :
    Pass View Unit := do
  let view ← Interaction.Action.load
  let phase := value view.provisioning "phase"
  if phase = Phase.succeeded.json ∨ phase = Phase.blocked.json then
    demand (!(phase = Phase.blocked.json && holds view.provisioning "maintenance"))
      (provisioningBlocked
        "Blocked run retains maintenance; inspect its failed build before recovery")
    if preflight then pure () else releaseRun view
  else if preflight && isActive phase then pure ()
  else if phase = Phase.installing.json then
    checkpoint Phase.blocked.json [("message", .str
      "Interrupted Installing: inspect the disk/checkpoint manually; never automatically rewipe"),
      ("maintenance", .bool true)]
  else
    let claimed ← (if !holds view.provisioning "attemptID" || !isActive phase then
      prepareAttempt env hostVars revision preflight
    else return true)
    if claimed then advance env revision else pure ()

/-! ## Failures -/

/-- Undo the boot selection of an armed attempt. True when ownership must be
kept because nothing proves that the selection is gone. -/
def clearSelection (env : Environment) (view : View) : Task Bool := do
  let latest ← current view true false
  let known ← knownFile env latest
  let facts ← inspect env latest known
  let bootID ← item facts "bootID"
  if ¬ Json.Same bootID (value view.provisioning "sourceBootID") then return true
  else
    let live ← item facts "live"
    if live.truthy then
      runStage env latest known "refresh-clear"
      return false
    else
      runStage env latest known "clear"
      let cleared ← inspect env latest known
      let grubEnvironment ← itemString cleared "grubEnvironment"
      return occursIn "next_entry=" grubEnvironment

/-- Whether ownership is kept by a failed attempt. -/
def keepOwnership (env : Environment) (view : View) : Task Bool := do
  let entered : Bool := value view.provisioning "phase" = Phase.installing.json
  if holds view.provisioning "netbootArmed" then
    let outcome ← (clearSelection env view).attempt
    match outcome with
    | .ok keep => return entered || keep
    | .error failure => if failure.isException then return true else throw failure
  else return entered

def blockedFields (keep armed : Bool) (message : String) : Object :=
  [("maintenance", .bool keep), ("netbootArmed", .bool (keep && armed)),
    ("message", .str (if message = "" then
      "Attempt blocked; inspect boot selection/disk before explicitly requesting another attempt"
    else message))]

/-- Retain ownership unless safe cleanup is verified; never erase on retry. -/
def handleFailure (env : Environment) (message : String) (reason : Option String) :
    Pass View Unit := do
  let view ← Interaction.Action.load
  let phase := value view.provisioning "phase"
  if phase = Phase.pending.json then
    let result ← Api.patchStatus view.run [("message", .str
      "Preflight pending: inspect dependencies, disk identity and management connectivity")]
    Interaction.Action.store { view with run := result }
  else if ¬ isActive phase then pure ()
  else if reason = some "ManagementNetworkPending" then checkpoint phase [("message", .str message)]
  else if phase = Phase.awaitingInstalled.json ∨ phase = Phase.verifying.json then
    checkpoint phase [("message", .str
      "Verification pending; later passes may verify, never rewipe")]
  else
    let keep ← keepOwnership env view
    checkpoint Phase.blocked.json
      (blockedFields keep (holds view.provisioning "netbootArmed") message)
    let blocked ← Interaction.Action.load
    releaseRun blocked

/-! ## Passes -/

def failureMessage : Exn → String
  | .operator _ message => message
  | _ => "Provisioning preflight/attempt blocked; inspect dependencies and checkpoints"

def failureReason : Exn → Option String
  | .operator reason _ => some reason
  | _ => none

/-- Advance one reserved Server; afterwards its failure has been recorded. -/
def attemptServer (env : Environment) (name : String) (hostVars : Object) (revision : String)
    (preflight : Bool) : Pass View (Option Exn) := do
  let view ← Interaction.Action.load
  tryCatch (do
    let observed ← hostAddress view.server
    let captured ← itemString hostVars "ansible_host"
    let expected ← address captured
    demand (observed = expected)
      (provisioningBlocked "Capture-group management address is stale")
    reconcile env hostVars revision preflight
    return none) fun failure => do
      if failure.isException then
        -- Never print raw exception bodies containing credentials.
        (Host.run (.warn (name ++ ": " ++ failureMessage failure)) : Task Unit)
        if preflight then pure ()
        else handleFailure env (failureMessage failure) (failureReason failure)
        return some failure
      else throw failure

/-- Serve the reserved Servers of a group in order; at most one destructive
attempt advances per pass. The result is the exit status. -/
def serveHosts (env : Environment) (revision : String) (preflight : Bool) :
    List (String × Object) → Bool → Task Nat
  | [], failed => return if failed then 1 else 0
  | (name, hostVars) :: rest, failed => do
      let server ← Api.get .server name
      let reserved ← eligible server
      if reserved then
        let view ← bindRun server
        let (outcome, final) ← Interaction.Action.within view
          (attemptServer env name hostVars revision preflight)
        match outcome with
        | .error failure => throw failure
        | .ok none =>
            if preflight then serveHosts env revision preflight rest failed
            else return if failed then 1 else 0
        | .ok (some _) =>
            if isActive (value final.provisioning "phase") || holds final.provisioning "maintenance" then
              return 1
            else serveHosts env revision preflight rest true
      else serveHosts env revision preflight rest failed

def omittedServers : List Json → Task Bool
  | [] => return false
  | omitted :: rest => do
      let entry ← jsonObject omitted "omitted inventory resource"
      let waiting ← (if value entry "kind" = .str "Server" then do
        let name ← jsonString (value entry "name") "omitted Server name"
        let server ← Api.get .server name
        eligible server
      else return false : Task Bool)
      let later ← omittedServers rest
      return waiting || later

/-- Do not report idle success when a reserved Server has no usable inventory. -/
def omittedActiveRuns (group : Resource) : Task Bool :=
  match group.status.get? "omittedResources" with
  | some (.arr omitted) => omittedServers omitted
  | _ => return false

def serverOnly : Json :=
  .arr [.obj [("apiVersion", .str "homelab.io/v1alpha1"), ("kind", .str "Server")]]

/-- Serve the selected group once. -/
def main (env : Environment) (preflight : Bool) : Task Nat := do
  let groupName ← env.lookup "INVENTORY_CAPTURE_GROUP"
  let (group, inventory) ← captureInventory groupName
  let selector ← itemObject group.spec "selector"
  demand (Json.Same (value selector "matchKinds") serverOnly)
    (provisioningBlocked "Provisioning requires a Server-only capture group")
  let waiting ← omittedActiveRuns group
  if waiting then return 1
  else
    let revision ← checkOutput ["git", "-c", "safe.directory=" ++ env.checkout, "-C", env.checkout,
      "rev-parse", "HEAD"]
    let hosts ← resolvedInventoryHosts env inventory
    serveHosts env (strip revision) preflight hosts false

end Homelab.Provisioning
