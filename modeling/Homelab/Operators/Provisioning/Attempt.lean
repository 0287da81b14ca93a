import Homelab.Operators.Common

namespace Homelab.Provisioning

open Json (Object)

/-! # The checkpointed provisioning attempt of one Server -/

/-- Phases an attempt goes through. -/
inductive Phase where
  | pending
  | preparingBoot
  | awaitingLive
  | installing
  | awaitingInstalled
  | verifying
  | succeeded
  | blocked
deriving DecidableEq

namespace Phase

def text : Phase → String
  | .pending => "Pending"
  | .preparingBoot => "PreparingBoot"
  | .awaitingLive => "AwaitingLive"
  | .installing => "Installing"
  | .awaitingInstalled => "AwaitingInstalled"
  | .verifying => "Verifying"
  | .succeeded => "Succeeded"
  | .blocked => "Blocked"

def json (phase : Phase) : Json := .str phase.text

theorem text_injective : Function.Injective text := by
  intro left right same
  cases left <;> cases right <;> simp_all [text]

@[simp] theorem json_inj {left right : Phase} : left.json = right.json ↔ left = right :=
  ⟨fun same => text_injective (Json.str.inj same), congrArg json⟩

end Phase

/-- Phases of an attempt that is under way. -/
def ACTIVE : List Phase := [.preparingBoot, .awaitingLive, .installing, .awaitingInstalled, .verifying]

def isActive (phase : Json) : Bool := ACTIVE.any fun candidate => phase == candidate.json

def SPEC_INPUTS : List String :=
  ["machineSelector", "boot", "operatingSystem", "sshCertificateAuthorityRef", "users", "groups",
    "packages", "sysctls", "featureFlags", "networking", "hostName", "domainName"]

def provisioningBlocked (message : String) : Exn := .operator "ProvisioningBlocked" message

def managementNetworkPending : Exn :=
  .operator "ManagementNetworkPending" "Waiting for an unambiguous management interface and address"

/-- Local execution view of a Server: its stored status holds only a
reservation, so the status of the reserved run stands in for its provisioning. -/
structure View where
  server : Resource
  run : Resource
  provisioning : Object

/-- Select only Servers already reserved by an explicitly created run. -/
def eligible (server : Resource) : Except Exn Bool := do
  let provisioning ← member server.status "provisioning"
  return holds provisioning "activeRunRef"

def bindRun (server : Resource) : Task View := do
  let provisioning ← itemObject server.status "provisioning"
  let ref ← itemObject provisioning "activeRunRef"
  let name ← itemString ref "name"
  let run ← Api.get .provisioningRun name
  let changed := provisioningBlocked "Run or machine binding changed"
  let uid ← item ref "uid"
  demand (uid = .str run.uid) changed
  demand (!run.terminating) changed
  let serverRef ← item run.spec "serverRef"
  demand (Json.Same serverRef server.reference) changed
  let machineRef ← item run.spec "machineRef"
  demand (Json.Same machineRef (value server.status "machineRef")) changed
  return { server, run, provisioning := run.status }

/-- The fields that give a reservation back. -/
def releaseFields (run : Resource) (phase : Json) : Object :=
  [("activeRunRef", .null), ("maintenance", .bool false)] ++
    if phase = Phase.succeeded.json then
      [("provisioned", .bool true), ("lastSuccessfulRunRef", run.reference)]
    else []

def releaseReservation (view : View) (run : Resource) (phase : Json) : Nat → Task Unit
  | 0 => throw (provisioningBlocked "Concurrent reservation release")
  | attempts + 1 => do
      let latest ← Api.get .server view.server.name
      let lost := provisioningBlocked "Run lost its Server reservation"
      demand (latest.uid = view.server.uid) lost
      let reserved ← member latest.status "provisioning"
      demand (Json.Same (value reserved "activeRunRef") run.reference) lost
      let result ← (Api.patchStatus latest
        [("provisioning", .obj (releaseFields run phase))]).attempt
      match result with
      | .ok _ => pure ()
      | .error (.http 409) => releaseReservation view run phase attempts
      | .error failure => throw failure

/-- Recover a lost completion or release boundary without installing again. -/
def releaseRun (view : View) : Task Unit := do
  let run ← Api.get .provisioningRun view.run.name
  if run.uid ≠ view.run.uid ∨ holds run.status "maintenance" ∨ holds run.status "netbootArmed" then
    pure ()
  else
    let phase ← item run.status "phase"
    if phase = Phase.succeeded.json ∨ phase = Phase.blocked.json then
      releaseReservation view run phase 5
    else pure ()

/-- Require verified host identity and a supported installation target. -/
def identity (env : Environment) (view : View) : Except Exn Unit := do
  let status := view.server.status
  let host ← member status "hostSSH"
  let unverified := provisioningBlocked
    "Managed host identity and binding must be verified before provisioning"
  demand (holds status "machineRef") unverified
  demand (holds host "keyReady") unverified
  demand (value host "phase" = .str "Ready") unverified
  demand (Json.Same (value host "installedKeyPairRef") (value host "keyPairRef")) unverified
  let key ← itemString host "publicKey"
  let print ← fingerprint env key
  demand (value host "installedFingerprint" = .str print) unverified
  let osSpec ← member view.server.spec "operatingSystem"
  demand (value osSpec "architecture" = .str "amd64" ∧ value osSpec "bootMode" = .str "uefi" ∧
      (value osSpec "distribution" = .str "arch" ∧ value osSpec "version" = .str "rolling" ∨
        value osSpec "distribution" = .str "debian" ∧ value osSpec "version" = .str "trixie"))
    (provisioningBlocked "Supported targets are Arch rolling and Debian trixie on amd64 UEFI")

/-- Fail closed on drift; the description identifies the violated safety boundary. -/
def requireUnchanged (actual expected : Json) (description : String) : Except Exn Unit :=
  demand (Json.Same actual expected) (provisioningBlocked (description ++ " changed"))

/-- A fresh read must still represent the same immutable run and checkpoint. -/
def validateAttemptCheckpoint (current expected : View) : Except Exn Unit := do
  requireUnchanged (.str current.run.uid) (.str expected.run.uid) "ProvisioningRun identity"
  requireUnchanged (.obj current.run.spec) (.obj expected.run.spec) "ProvisioningRun request"
  let attemptID ← item expected.provisioning "attemptID"
  requireUnchanged (value current.provisioning "attemptID") attemptID "Attempt ID"
  let snapshot ← item expected.provisioning "snapshot"
  requireUnchanged (value current.provisioning "snapshot") snapshot "Pinned plan"
  requireUnchanged (value current.provisioning "phase") (value expected.provisioning "phase")
    "Checkpoint phase"

/-- `(status.get('networking') or {}).get('management', {})` -/
def managementOf (status : Object) : Except Exn Object := do
  if holds status "networking" then
    let networking ← itemObject status "networking"
    member networking "management"
  else return []

def validateSpecInputs (spec pinned : Object) : List String → Except Exn Unit
  | [] => .ok ()
  | field :: rest => do
      requireUnchanged (value spec field) (value pinned field) ("Server spec." ++ field)
      validateSpecInputs spec pinned rest

/-- Keep desired inputs and physical and key bindings fixed before every stage. -/
def validatePinnedServer (server : Resource) (snapshot : Object) (allowNetworkPending : Bool) :
    Except Exn Unit := do
  let inputs ← itemObject snapshot "inputs"
  let pinned ← itemObject inputs "serverSpec"
  validateSpecInputs server.spec pinned SPEC_INPUTS
  let machineRef ← item snapshot "machineRef"
  requireUnchanged (value server.status "machineRef") machineRef "Machine binding"
  let management ← managementOf server.status
  let interface ← member management "interface"
  let bootMac ← (match interface.get? "mac" with
    | none => pure ""
    | some mac => asString mac : Except Exn String)
  if bootMac ≠ "" then
    let pinnedMac ← item snapshot "bootMAC"
    requireUnchanged (.str bootMac.toLower) pinnedMac "Boot interface MAC"
  else pure ()
  let host ← member server.status "hostSSH"
  let keyPairRef ← item snapshot "keyPairRef"
  requireUnchanged (value host "keyPairRef") keyPairRef "Managed host key reference"
  demand (bootMac ≠ "" || allowNetworkPending) managementNetworkPending

/-- Revalidate ownership and pinned inputs, not just a resource version. -/
def current (view : View) (allowPaused allowNetworkPending : Bool) : Task View := do
  let server ← Api.get .server view.server.name
  let current ← bindRun server
  requireUnchanged (.str current.server.uid) (.str view.server.uid) "Server identity"
  demand (!current.server.terminating) (provisioningBlocked "Server is terminating")
  validateAttemptCheckpoint current view
  let snapshot ← itemObject view.provisioning "snapshot"
  validatePinnedServer current.server snapshot allowNetworkPending
  let desired ← itemObject current.server.spec "provisioning"
  let enabled ← item desired "enabled"
  let reconciliation ← member current.server.spec "reconciliation"
  demand (allowPaused || enabled.truthy && !holds reconciliation "paused")
    (provisioningBlocked "Provisioning was disabled or paused")
  return current

/-- What a checkpoint writes. -/
def checkpointFields (phase : Json) (fields : Object) : Object :=
  [("phase", phase), ("currentStage", phase)] ++ fields

def checkpointAttempts (phase : Json) (fields : Object) : Nat → Pass View Unit
  | 0 => throw (provisioningBlocked "Concurrent provisioning status update")
  | attempts + 1 => do
      let view ← Interaction.Action.load
      -- Status-only writes may record a missing observation; physical stages may not.
      let latest ← current view true true
      let result ← (Api.patchStatus latest.run (checkpointFields phase fields)).attempt
      match result with
      | .ok updated =>
          Interaction.Action.store { latest with run := updated, provisioning := updated.status }
      | .error (.http 409) => checkpointAttempts phase fields attempts
      | .error failure => throw failure

/-- Conditionally merge a checkpoint after revalidation; never overwrite another run. -/
def checkpoint (phase : Json) (fields : Object) : Pass View Unit := checkpointAttempts phase fields 5

/-- Create a private trust file accepting only this Server's pinned identity. -/
def knownFile (env : Environment) (view : View) (key : Json := .null) : Task KnownHosts := do
  let name ← hostAlias view.server.uid
  let text ← (if key.truthy then asString key
    else do
      let host ← itemObject view.server.status "hostSSH"
      itemString host "publicKey" : Except Exn String)
  let pinned ← publicKey text
  let known : KnownHosts :=
    { path := env.directory ++ "/known_hosts", content := name ++ " " ++ pinned ++ "\n" }
  Host.run (.writeText known.path known.content)
  return known

/-- Read and validate the current management address from the bound Server. -/
def hostAddress (server : Resource) : Except Exn String := do
  let management ← managementOf server.status
  let endpoint ← member management "address"
  let reported := value endpoint "address"
  demand reported.truthy managementNetworkPending
  let text ← asString reported
  address text

/-- Read physical and boot state over strict SSH; this probe must never mutate disks. -/
def inspect (env : Environment) (view : View) (known : KnownHosts) : Task Object := do
  let host ← hostAddress view.server
  let session ← sshSession env view.server.uid host known "yes"
  let disk ← item view.provisioning "selectedDisk"
  let output : Option Json ← Host.run (.probe session disk)
  match output with
  | some facts => asObject facts
  | none => throw (provisioningBlocked "Read-only SSH provisioning probe failed")

end Homelab.Provisioning
