import Homelab.Operators.Provisioning.Attempt

namespace Homelab.Provisioning

open Json (Object)

/-! # Validation and the pinned plan -/

/-- Reject unsafe firmware or live and disk state before the next lifecycle stage. -/
def validateDisk (facts : Object) (liveRequired : Bool) : Except Exn Unit := do
  let uefi ← item facts "uefi"
  let secureBoot ← item facts "secureBoot"
  demand (uefi.truthy && secureBoot = .bool false) (provisioningBlocked
    "Unsigned v1 GRUB/iPXE path requires UEFI with Secure Boot off; do not change firmware automatically")
  if liveRequired then
    let live ← item facts "live"
    let mounted ← item facts "mounted"
    let rootOnTarget ← item facts "rootOnTarget"
    demand (live.truthy && !mounted.truthy && !rootOnTarget.truthy) (provisioningBlocked
      "Installation requires live execution independent of the unmounted target disk")
  else pure ()
  demand (!holds facts "firmwareBootNext" && !holds facts "competingBootServices")
    (provisioningBlocked "Clear/reconcile competing firmware BootNext services before provisioning")

/-- What the geometry check of the pinned partitions remembers. -/
structure Geometry where
  previousEnd : Int
  numbers : List Json
  mounts : List Json
  partitions : List Json

def invalidGeometry : Exn := provisioningBlocked "Invalid pinned partition geometry"

/-- `start` must continue the layout, and `end` leave room for the backup table. -/
def checkGeometry (facts : Object) (previousEnd : Int) (startMiB endMiB : Json) : Except Exn Int := do
  demand (startMiB = .int previousEnd) invalidGeometry
  let finish ← asInt endMiB
  demand (previousEnd < finish) invalidGeometry
  let disk ← itemObject facts "disk"
  let size ← item disk "size" >>= asInt
  demand (finish ≤ size / (1024 * 1024) - 1) invalidGeometry
  return finish

/-- `value in known`: only values that can be hashed are members of sets. -/
def isMember (value : Json) (known : List Json) : Except Exn Bool :=
  if value.hashable then .ok (known.contains value) else .error (.error "TypeError" "unhashable type")

def validatePartitions (facts : Object) : List Json → Geometry → Except Exn Geometry
  | [], seen => .ok seen
  | part :: rest, seen => do
      let entry ← asObject part
      let spec ← itemObject entry "spec"
      let startMiB ← item entry "startMiB"
      let endMiB ← item entry "endMiB"
      let finish ← checkGeometry facts seen.previousEnd startMiB endMiB
      let number ← item spec "number"
      let known ← isMember number seen.numbers
      demand (!known) invalidGeometry
      let mountPoint := value spec "mountPoint"
      let mounted ← isMember mountPoint seen.mounts
      demand (!mounted) invalidGeometry
      let role ← item spec "role"
      let filesystem ← item spec "filesystem"
      validatePartitions facts rest {
        previousEnd := finish
        numbers := number :: seen.numbers
        mounts := if mountPoint.truthy then mountPoint :: seen.mounts else seen.mounts
        partitions := seen.partitions ++ [.obj [("number", number), ("role", role),
          ("filesystem", filesystem), ("mountPoint", (spec.get? "mountPoint").getD (.str "")),
          ("startMiB", startMiB), ("endMiB", endMiB)]] }

def countRole (role : String) (partitions : List Json) : Nat :=
  partitions.countP fun part => part.fields.get? "role" == some (.str role)

/-- Normalize the pinned layout; never consult mutable group variables. -/
def validateStorage (runStatus facts : Object) : Except Exn Json := do
  let storagePlan ← member runStatus "storagePlan"
  let entries ← memberArray storagePlan "partitions"
  let seen ← validatePartitions facts entries
    { previousEnd := 1, numbers := [], mounts := [], partitions := [] }
  demand (countRole "root" seen.partitions = 1 && countRole "efi" seen.partitions = 1)
    (provisioningBlocked "A pinned root and EFI partition are required")
  return .obj [("partitions", .arr seen.partitions)]

/-! ## Settings of the desired system -/

def isLowerName (text : String) : Bool :=
  match text.toList with
  | [] => false
  | first :: rest =>
      (('a' ≤ first && first ≤ 'z') || first == '_') && rest.length ≤ 31 &&
        rest.all fun char => ('a' ≤ char && char ≤ 'z') || char.isDigit || "_-".toList.contains char

def isTimezone (text : String) : Bool :=
  (IpAddress.split '/' text).all fullmatchPlusZone
where
  fullmatchPlusZone (part : String) : Bool :=
    fullmatchPlus (fun char => isAlphanumeric char || "_+-".toList.contains char) part

def isKernelArgument (text : String) : Bool :=
  fullmatchPlus (fun char => isAlphanumeric char || "_.,=:/+-".toList.contains char) text

def isHostLabel (text : String) : Bool :=
  match text.toList with
  | [] => false
  | first :: rest =>
      isAlphanumeric first && rest.all fun char => isAlphanumeric char || ".-".toList.contains char

def isPackage (text : String) : Bool :=
  fullmatchPlus (fun char => isAlphanumeric char || "_.+-".toList.contains char) text

def isSysctl (entry : String × String) : Bool :=
  fullmatchPlus (fun char => isAlphanumeric char || "_.".toList.contains char) entry.1 &&
    !entry.2.toList.contains '\n' && !entry.2.toList.contains '\r'

def isShell (text : String) : Bool :=
  match text.toList with
  | '/' :: first :: rest =>
      (first :: rest).all fun char => isAlphanumeric char || "_/-".toList.contains char
  | _ => false

/-- `mapping.get(key, [])`, used as a list of strings. -/
def stringList (fields : Object) (key : String) : Except Exn (List String) :=
  match fields.get? key with
  | none => .ok []
  | some items => asArray items >>= fun items => items.mapM asString

def stringOr (fields : Object) (key default : String) : Except Exn String :=
  match fields.get? key with
  | none => .ok default
  | some text => asString text

def validateHostLabel (desired : Object) (field : String) : Except Exn Bool :=
  match desired.get? field with
  | none => .ok true
  | some text => isHostLabel <$> asString text

def isSupportedFeature (entry : String × Json) : Except Exn Bool := do
  let settings ← asObject entry.2
  return holds settings "enabled" == (entry.1 == "daemon")

/-- Reject unsupported recipes and unsafe values before pinning the plan. -/
def validateServerSettings (desired : Object) : Except Exn Unit := do
  let osSpec ← itemObject desired "operatingSystem"
  let locale := (osSpec.get? "locale").getD (.str "en_US.UTF-8")
  demand (!holds osSpec "installationSource" && locale = .str "en_US.UTF-8") (provisioningBlocked
    "Custom installation sources/locales are not supported by the current recipes")
  let timezone ← stringOr osSpec "timezone" "UTC"
  demand (isTimezone timezone) (provisioningBlocked "Invalid timezone")
  let arguments ← stringList osSpec "kernelArguments"
  demand (arguments.all isKernelArgument) (provisioningBlocked "Invalid kernel arguments")
  let hostName ← validateHostLabel desired "hostName"
  let domainName ← validateHostLabel desired "domainName"
  demand (hostName && domainName) (provisioningBlocked "Invalid installed hostname/domain")
  let packages ← stringList desired "packages"
  demand (packages.all isPackage) (provisioningBlocked "Invalid package name")
  let groups ← stringList desired "groups"
  demand (groups.all isLowerName) (provisioningBlocked "Invalid group name")
  let sysctls ← member desired "sysctls"
  let settings ← sysctls.mapM fun entry => return (entry.1, ← asString entry.2)
  demand (settings.all isSysctl) (provisioningBlocked "Invalid sysctl configuration")
  let features ← member desired "featureFlags"
  let supported ← features.mapM isSupportedFeature
  demand (supported.all id) (provisioningBlocked
    "Requested feature requires an installation recipe not yet supported here")

/-! ## Users -/

def readyStatus (resource : Resource) : Except Exn Bool :=
  if value resource.status "phase" = .str "Ready" then do
    let expected ← generation resource
    return value resource.status "observedGeneration" = .int expected
  else .ok false

/-- Resolve one authorized key to the public key it stands for. -/
def resolveKey (reference : Json) : Task Json := do
  let ref ← asObject reference
  let name ← itemString ref "name"
  let key ← Api.get .sshKeyPair name
  let ready ← readyStatus key
  demand ready (provisioningBlocked "User public key is not Ready")
  let text ← itemString key.status "publicKey"
  let normal ← publicKey text
  return .str normal

def resolveUser (entry : Json) : Task Json := do
  let user ← asObject entry
  let name ← itemString user "name"
  demand (isLowerName name && !(["root", "ansible", "homelabd"].contains name))
    (provisioningBlocked "Invalid/reserved ordinary user")
  let groups ← stringList user "groups"
  let shell ← stringOr user "shell" "/bin/bash"
  demand (groups.all isLowerName && isShell shell) (provisioningBlocked "Invalid user groups/shell")
  let ssh ← member user "ssh"
  let refs ← memberArray ssh "authorizedKeyRefs"
  let keys ← refs.mapM resolveKey
  return .obj (user.set "publicKeys" (.arr keys))

/-- Resolve public user keys once; private material is never part of a plan. -/
def resolveUsers (desired : Object) : Task Json := do
  let users ← memberArray desired "users"
  let resolved ← users.mapM resolveUser
  return .arr resolved

/-! ## The plan -/

def isBootArgument (argument : Json) : Bool :=
  match argument with
  | .str text => text.toList.all fun char => !isWhitespace char && char != '$'
  | _ => false

/-- Resolve immutable inputs after validation, without claiming or changing the node. -/
def plan (env : Environment) (view : View) (hostVars facts : Object) (revision : String) :
    Task Json := do
  identity env view
  let disk ← item facts "disk"
  let selectedDisk ← item view.provisioning "selectedDisk"
  demand (Json.Same disk selectedDisk)
    (provisioningBlocked "Selected disk identity changed since request")
  let desired := view.server.spec
  let status := view.server.status
  let boot ← itemObject desired "boot"
  let isoRef ← itemObject boot "isoRef"
  let isoName ← itemString isoRef "name"
  let image ← Api.get .iso isoName
  let imageReady ← readyStatus image
  demand (!image.terminating && imageReady && Json.Same (value status "bootISORef") image.reference)
    (provisioningBlocked "Selected ISO identity is not current and Ready")
  let caRef ← itemObject desired "sshCertificateAuthorityRef"
  let caName ← itemString caRef "name"
  let authority ← Api.get .sshCertificateAuthority caName
  let authorityReady ← readyStatus authority
  demand (!authority.terminating && authorityReady)
    (provisioningBlocked "Selected CA is not current and Ready")
  let sshTrust ← member status "sshTrust"
  let imageAuthority ← member image.status "authorityRef"
  let completed ← member image.status "completedBuild"
  let trustDigest := value authority.status "trustBundleDigest"
  demand (Json.Same (value sshTrust "authorityRef") (value image.status "authorityRef") &&
      value imageAuthority "uid" = .str authority.uid &&
      Json.Same trustDigest (value completed "trustBundleDigest") &&
      Json.Same (value status "desiredSSHTrustBundleDigest") trustDigest)
    (provisioningBlocked "Live-image and Server CA trust must agree")
  let machineRef ← itemObject status "machineRef"
  let machineName ← itemString machineRef "name"
  let machine ← Api.get .machine machineName
  let machineUid ← item machineRef "uid"
  demand (machineUid = .str machine.uid &&
      Json.Same (value machine.status "serverRef") view.server.reference)
    (provisioningBlocked "Machine binding is stale")
  let invalidBoot := provisioningBlocked "Selected ISO has no valid shared boot recipe"
  demand (holds image.status "bootArguments") invalidBoot
  let bootArguments ← itemArray image.status "bootArguments"
  demand (bootArguments.all isBootArgument) invalidBoot
  let osSpec ← itemObject desired "operatingSystem"
  let distribution ← item osSpec "distribution"
  let imageDistribution ← item image.spec "distribution"
  demand (distribution ≠ .str "arch" || imageDistribution = .str "arch")
    (provisioningBlocked "Arch targets currently require the Arch live installation tools")
  let storage ← validateStorage view.run.status facts
  validateServerSettings desired
  let host ← itemObject status "hostSSH"
  let keyPairRef ← item host "keyPairRef"
  let bootISORef ← item status "bootISORef"
  let authorityRef ← item image.status "authorityRef"
  let bundleDigest ← item authority.status "trustBundleDigest"
  let buildID ← item completed "id"
  let artifacts ← item image.status "artifacts"
  let targetDisk ← item facts "targetDisk"
  let networking ← itemObject status "networking"
  let management ← itemObject networking "management"
  let interface ← itemObject management "interface"
  let mac ← itemString interface "mac"
  let storagePlan ← item view.run.status "storagePlan"
  let users ← resolveUsers desired
  let result : Object := [
    ("serverUID", .str view.server.uid),
    ("machineRef", .obj machineRef),
    ("keyPairRef", keyPairRef),
    ("isoRef", bootISORef),
    ("authorityRef", authorityRef),
    ("trustBundleDigest", bundleDigest),
    ("isoBuildID", buildID),
    ("distribution", imageDistribution),
    ("bootArguments", .arr bootArguments),
    ("artifacts", artifacts),
    ("targetDisk", targetDisk),
    ("diskIdentity", disk),
    ("bootMAC", .str mac.toLower),
    ("codeRevision", .str revision),
    ("inputs", .obj [
      ("serverSpec", .obj (SPEC_INPUTS.filterMap fun field =>
        (desired.get? field).map fun value => (field, value))),
      ("storage", storage),
      ("storagePlan", storagePlan),
      ("users", users),
      ("disableEEE", .bool (holds hostVars "provision_disable_eee"))])]
  return .obj (result.set "planDigest" (.str (env.digest (.obj result))))

/-! ## Dependencies, builds in flight and boot artifacts -/

def pinnedDependencies : List (Kind × String) :=
  [(.machine, "machineRef"), (.iso, "isoRef"), (.sshKeyPair, "keyPairRef"),
    (.sshCertificateAuthority, "authorityRef")]

def verifyDependency (snapshot : Object) (entry : Kind × String) : Task Unit := do
  let ref ← itemObject snapshot entry.2
  let name ← itemString ref "name"
  let dependency ← Api.get entry.1 name
  let uid ← item ref "uid"
  demand (!dependency.terminating && uid = .str dependency.uid)
    (provisioningBlocked "Pinned dependency was deleted/replaced")

def verifyEach (snapshot : Object) : List (Kind × String) → Task Unit
  | [] => pure ()
  | entry :: rest => do
      verifyDependency snapshot entry
      verifyEach snapshot rest

/-- Reject replaced dependencies or trust drift during a pinned attempt. -/
def verifyDependencies (view : View) : Task Unit := do
  let snapshot ← itemObject view.provisioning "snapshot"
  verifyEach snapshot pinnedDependencies
  let pinned ← item snapshot "trustBundleDigest"
  demand (Json.Same (value view.server.status "desiredSSHTrustBundleDigest") pinned)
    (provisioningBlocked "CA trust changed during this attempt; do not install a mixed plan")

def isBusy (command : Resource) : Bool :=
  value command.status "phase" = .str "Dispatching" || value command.status "phase" = .str "Running"

/-- The rounds that fit before a deadline are up to the clock; the last one is
past the deadline. -/
def drainRounds : Nat → Task Unit
  | 0 => do
      let commands ← Api.list .command
      demand (!commands.any isBusy)
        (provisioningBlocked "In-flight administrative builds did not drain")
  | rounds + 1 => do
      let commands ← Api.list .command
      if commands.any isBusy then drainRounds rounds else pure ()

/-- Wait for already-dispatched administrative builds before reboot or erasure. -/
def drainCommands : Task Unit := do
  let rounds : Nat ← Host.run .rounds
  drainRounds rounds

def checkArtifacts : List Json → Task Unit
  | [] => pure ()
  | entry :: rest => do
      let artifact ← asObject entry
      let url ← itemString artifact "url"
      demand (url.startsWith "https://") (provisioningBlocked "Live artifacts require HTTPS")
      let status : Nat ← Host.run (.head url)
      demand (status = 200) (provisioningBlocked "Pinned artifact is not reachable")
      checkArtifacts rest

/-- The URLs the boot script must name. -/
def bootUrls : List Json → Except Exn (List String)
  | [] => .ok []
  | entry :: rest => do
      let artifact ← asObject entry
      let type ← item artifact "type"
      let urls ← bootUrls rest
      if type = .str "kernel" ∨ type = .str "initrd" then
        return (← itemString artifact "url") :: urls
      else return urls

def trimSlashes (text : String) : String :=
  String.ofList (text.toList.reverse.dropWhile (· == '/')).reverse

/-- Check pinned artifacts and the API's boot recipe before handoff. -/
def artifactPreflight (env : Environment) (view : View) : Task Unit := do
  let snapshot ← itemObject view.provisioning "snapshot"
  let artifacts ← itemArray snapshot "artifacts"
  checkArtifacts artifacts
  let networking ← itemObject view.server.status "networking"
  let management ← itemObject networking "management"
  let interface ← itemObject management "interface"
  let mac ← itemString interface "mac"
  let base ← env.lookup "STIGMERGY_API_URL"
  let script : String ← Host.run (.download (trimSlashes base ++ "/ipxe/" ++ mac.toLower))
  let urls ← bootUrls artifacts
  demand (!occursIn "exit 1" script && urls.all fun url => occursIn url script)
    (provisioningBlocked "Boot endpoint did not select the pinned live image")

end Homelab.Provisioning
