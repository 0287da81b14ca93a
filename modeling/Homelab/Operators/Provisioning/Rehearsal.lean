import Homelab.Api.Script
import Homelab.Operators.Provisioning.Runs

namespace Homelab.Provisioning

open Json (Object)
open Api (Turn Play)
open Interaction (Program)

/-! # Rehearsals

Scripted executions of passes over a small deployment in which nobody else
writes: two Servers, each reserved by its own run and captured by a group of
its own.
-/

/-- Nobody but the passes changes the store. -/
def alone (_ _ : Store) : Prop := False

theorem runsKept_alone : RunsKept alone :=
  ⟨fun _ _ _ changed => changed.elim, fun _ _ changed => changed.elim⟩

theorem begins_alone {initial : Store} {uid : String} {first : Record → Prop}
    (stored : ∀ run ∈ initial.objects, run.kind = .provisioningRun → run.uid = uid →
      first (record run.status)) : Begins alone initial uid first :=
  ⟨stored, fun _ _ changed => changed.elim⟩

namespace Rehearsal

/-- The executor of a capture group. -/
def executor (group : String) : Homelab.Environment where
  environ := [("INVENTORY_CAPTURE_GROUP", group), ("STIGMERGY_API_URL", "https://api"),
    ("ANSIBLE_CERTIFICATE_FILE", "/run/ansible-cert.pub"), ("ANSIBLE_PRIVATE_KEY_FILE", "/run/ansible"),
    ("BAO_ADDR", "https://bao"), ("HOST_KEY_BAO_ROLE_ID", "role"), ("HOST_KEY_BAO_SECRET_ID", "secret")]
  directory := "/tmp/provision-operator"
  checkout := "/homelab"
  recursionLimit := 1000
  sha256 _ := "digest"
  digest _ := "sha256:plan"

def uidOf (name : String) : String := name ++ "-uid"

def reference (name : String) : Json := .obj [("name", .str name), ("uid", .str (uidOf name))]

def metadata (name : String) : Metadata :=
  { name, uid := uidOf name, resourceVersion := 0, generation := some 1 }

def hostKey : String :=
  "ssh-ed25519 AAAAC3NzaC1lZDI1NTE5AAAAIAAAAAAAAAAAAAAAAAAAAAAAAAAAAAAAAAAAAAAAAAAA"

def disk : Json := .obj [("size", .int 10737418240)]

def partition (number startMiB endMiB : Int) (role filesystem mountPoint : String) : Json :=
  .obj [("spec", .obj [("number", .int number), ("role", .str role), ("filesystem", .str filesystem),
    ("mountPoint", .str mountPoint)]), ("startMiB", .int startMiB), ("endMiB", .int endMiB)]

def address : String := "10.0.0.1"

def machineName (serverName : String) : String := serverName ++ "-machine"

def keyName (serverName : String) : String := serverName ++ "-key"

/-- A Server that is reserved by a run. -/
def server (name run : String) : Resource where
  kind := .server
  metadata := metadata name
  spec := [("provisioning", .obj [("enabled", .bool true)]),
    ("operatingSystem", .obj [("architecture", .str "amd64"), ("bootMode", .str "uefi"),
      ("distribution", .str "debian"), ("version", .str "trixie")]),
    ("boot", .obj [("isoRef", .obj [("name", .str "live")])]),
    ("sshCertificateAuthorityRef", .obj [("name", .str "ca")])]
  status := [("provisioning", .obj [("activeRunRef", reference run)]),
    ("machineRef", reference (machineName name)),
    ("hostSSH", .obj [("keyReady", .bool true), ("phase", .str "Ready"),
      ("keyPairRef", reference (keyName name)), ("installedKeyPairRef", reference (keyName name)),
      ("publicKey", .str hostKey),
      ("installedFingerprint", .str "SHA256:digest")]),
    ("bootISORef", reference "live"),
    ("sshTrust", .obj [("authorityRef", reference "ca"), ("publicBundle", .str "bundle")]),
    ("desiredSSHTrustBundleDigest", .str "trust"),
    ("networking", .obj [("management", .obj [("interface", .obj [("mac", .str "02:00:00:00:00:01")]),
      ("address", .obj [("address", .str address)])])])]

/-- A run that waits to be claimed. -/
def pending (name serverName : String) : Resource where
  kind := .provisioningRun
  metadata := metadata name
  spec := [("serverRef", reference serverName), ("machineRef", reference (machineName serverName))]
  status := [("phase", .str "Pending"), ("selectedDisk", disk),
    ("storagePlan", .obj [("partitions", .arr [partition 1 1 513 "efi" "vfat" "/boot",
      partition 2 513 8192 "root" "ext4" "/"])])]

def iso : Resource where
  kind := .iso
  metadata := metadata "live"
  spec := [("distribution", .str "debian")]
  status := [("phase", .str "Ready"), ("observedGeneration", .int 1), ("authorityRef", reference "ca"),
    ("completedBuild", .obj [("trustBundleDigest", .str "trust"), ("id", .str "build")]),
    ("bootArguments", .arr [.str "quiet"]), ("artifacts", .arr [])]

def authority : Resource where
  kind := .sshCertificateAuthority
  metadata := metadata "ca"
  spec := []
  status := [("phase", .str "Ready"), ("observedGeneration", .int 1), ("trustBundleDigest", .str "trust")]

def machine (serverName : String) : Resource where
  kind := .machine
  metadata := metadata (machineName serverName)
  spec := []
  status := [("serverRef", reference serverName)]

def keyPair (serverName : String) : Resource where
  kind := .sshKeyPair
  metadata := { metadata (keyName serverName) with
    annotations := some [("homelab.io/server-uid", uidOf serverName)] }
  spec := [("path", .str ("ssh/hosts/" ++ uidOf serverName)),
    ("secretStoreRef", .obj [("name", .str "openbao")])]
  status := [("phase", .str "Ready"), ("observedGeneration", .int 1), ("publicKey", .str hostKey)]

def captureGroup (name serverName : String) : Resource where
  kind := .inventoryCaptureGroup
  metadata := metadata name
  spec := [("selector", .obj [("matchKinds", serverOnly)])]
  status := [("observedGeneration", .int 1),
    ("inventory", .obj [("all", .obj [("hosts", .obj [(serverName, .obj [])])])])]

/-- A store of resources that have not been written since their creation. -/
def stored (objects : List Resource) : Store where
  objects := objects
  revision := 0
  issued := objects.map Resource.uid

def deployment : Store :=
  stored [server "first" "run", pending "run" "first", captureGroup "group" "first", iso, authority,
    machine "first", keyPair "first"]

/-- Two Servers with a group each. -/
def pair : Store :=
  stored [server "first" "run", pending "run" "first", captureGroup "group" "first", machine "first",
    keyPair "first", server "second" "other", pending "other" "second", captureGroup "pool" "second",
    machine "second", keyPair "second", iso, authority]

/-- What an inspection finds on the installed system. -/
def sourceFacts : Json :=
  .obj [("uefi", .bool true), ("secureBoot", .bool false), ("live", .bool false), ("grubReady", .bool true),
    ("disk", disk), ("targetDisk", .str "/dev/sda"), ("bootID", .str "source"), ("grubEnvironment", .str "")]

def marker : Object :=
  [("serverUID", .str (uidOf "first")), ("attemptID", .str (uidOf "run")), ("runUID", .str (uidOf "run")),
    ("planDigest", .str "sha256:plan")]

/-- What an inspection finds on the live image. -/
def liveFacts : Json :=
  .obj [("uefi", .bool true), ("secureBoot", .bool false), ("live", .bool true), ("mounted", .bool false),
    ("rootOnTarget", .bool false), ("disk", disk), ("bootID", .str "live"), ("liveBuildID", .str "build"),
    ("stagedBootReady", .bool true), ("stagedMarker", .obj marker)]

def installedPartition (number startMiB endMiB : Int) (filesystem mountPoint : String) : Json :=
  .obj [("number", .int number), ("startBytes", megabytes startMiB), ("size", megabytes (endMiB - startMiB)),
    ("filesystem", .str filesystem), ("uuid", .str "uuid"), ("partUUID", .str "partuuid"),
    ("mountPoints", .arr [.str mountPoint])]

/-- What an inspection finds on the freshly installed system. -/
def installedFacts : Json :=
  .obj [("live", .bool false), ("rootType", .str "ext4"), ("rootUUID", .str "root"), ("rootOnTarget", .bool true),
    ("bootID", .str "installed"), ("disk", disk),
    ("marker", .obj (marker ++ [("rootUUID", .str "root")])),
    ("os", .obj [("ID", .str "debian"), ("VERSION_CODENAME", .str "trixie")]),
    ("grubReady", .bool true), ("grubEnvironment", .str ""),
    ("partitions", .arr [installedPartition 1 1 513 "vfat" "/boot",
      installedPartition 2 513 8192 "ext4" "/"])]

def secrets : Json :=
  .obj [("auth", .obj [("client_token", .str "token")]),
    ("data", .obj [("data", .obj [("sshKeyPairUID", .str (uidOf (keyName "first"))), ("publicKey", .str hostKey),
      ("privateKey", .str "private")])])]

def hostVars (serverName : String) : Json :=
  .obj [("_meta", .obj [("hostvars",
    .obj [(serverName, .obj [("ansible_host", .str address)])])])]

/-- A host on which every call succeeds, in the session that these facts describe. -/
def host (serverName : String) (facts : Json) : (call : Host) → call.Value
  | .writeText .. => ()
  | .writeJson .. => ()
  | .readText .. => ""
  | .readJson .. => .null
  | .inspectPath .. => .missing
  | .spawn .. => ()
  | .startReader => ()
  | .wait .. => (0 : Int)
  | .killGroup => ()
  | .reap => ()
  | .probe .. => some facts
  | .login session => { returncode := 0, stderr := "", known := session.known.content }
  | .services .. => (0 : Int)
  | .subprocess argv => { returncode := 0, stdout := if argv.head? = some "git" then "revision" else hostKey }
  | .ansibleInventory .. => hostVars serverName
  | .fetch .. => secrets
  | .head .. => (200 : Nat)
  | .download .. => ""
  | .rounds => (1 : Nat)
  | .now => "2026-01-01T00:00:00+00:00"
  | .uuid => ""
  | .warn .. => ()
  | .work => ()

/-- Several turns of one pass in a row. -/
def steps (count actor : Nat) (answer : Turn) : List (Nat × Turn) := List.replicate count (actor, answer)

def source (serverName : String) : Turn := .answer (host serverName sourceFacts)

def live (serverName : String) : Turn := .answer (host serverName liveFacts)

def installed (serverName : String) : Turn := .answer (host serverName installedFacts)

/-- One pass for each group, over this store, by this script. -/
def rehearse (store : Store) (groups : List String) (script : List (Nat × Turn)) :
    Option (Play (Except Exn Nat)) :=
  Play.turns script (Play.begin store (groups.map fun group => main (executor group) false))

theorem passes {store : Store} {groups : List String} {script : List (Nat × Turn)}
    {play : Play (Except Exn Nat)} (found : rehearse store groups script = some play) :
    Passes alone store play.history play.world play.running := by
  refine Play.Plays.turns (Play.plays_begin fun program member => ?_) found
  obtain ⟨group, _, rfl⟩ := List.mem_map.mp member
  exact ⟨executor group, false, rfl⟩

/-- Whoever names its resources apart has a well-formed store. -/
theorem stored_formed {objects : List Resource}
    (keys : (objects.map Resource.schema.key).Nodup) (uids : (objects.map Resource.uid).Nodup)
    (versions : ∀ object ∈ objects, object.metadata.resourceVersion = 0)
    (named : "" ∉ objects.map Resource.uid) : (stored objects).WellFormed Resource.schema :=
  ⟨keys, uids, fun object member => Nat.le_of_eq (versions object member),
    fun _ member => List.mem_map_of_mem member, named⟩

theorem deployment_formed : deployment.WellFormed Resource.schema :=
  stored_formed (by decide +kernel) (by decide +kernel) (by decide +kernel) (by decide +kernel)

theorem pair_formed : pair.WellFormed Resource.schema :=
  stored_formed (by decide +kernel) (by decide +kernel) (by decide +kernel) (by decide +kernel)

theorem deployment_pending : ∀ run ∈ deployment.objects, run.kind = .provisioningRun →
    phaseOf run.status = some .pending := by
  decide +kernel

theorem pair_pending : ∀ run ∈ pair.objects, run.kind = .provisioningRun →
    phaseOf run.status = some .pending := by
  decide +kernel

theorem begins_pending (uid : String) :
    Begins alone deployment uid fun record => record.phase = some .pending :=
  begins_alone fun run stored kind _ => deployment_pending run stored kind

/-- Up to the request to claim the run. -/
def claiming (serverName : String) (actor : Nat) : List (Nat × Turn) := steps 13 actor (source serverName)

/-- From the claim on, up to the checkpoint of the disarmed live session. -/
def enrolling : List (Nat × Turn) :=
  claiming "first" 0 ++ steps 40 0 (source "first") ++ steps 29 0 (live "first")

/-- The pass fails right after that checkpoint, and is about to block the run. -/
def unenrolling : List (Nat × Turn) :=
  enrolling ++ [(0, .refuse (.http 500))] ++ steps 3 0 (live "first")

/-- The first stage of the pass does not end, and the run is blocked. -/
def unprimed : List (Nat × Turn) :=
  steps 30 0 (source "first") ++ [(0, .refuse .timeoutExpired)] ++ steps 9 0 (source "first")

/-- On to the start of the destructive stage. -/
def installing : List (Nat × Turn) := enrolling ++ steps 13 0 (live "first")

/-- On to the release of the Server. -/
def completing : List (Nat × Turn) :=
  installing ++ steps 16 0 (live "first") ++ steps 27 0 (installed "first")

/-- Whether the run is stored in this phase. -/
def standsIn (name : String) (phase : Phase) (play : Play (Except Exn Nat)) : Bool :=
  play.world.objects.any fun run =>
    run.kind == .provisioningRun && run.uid == uidOf name && phaseOf run.status == some phase

end Rehearsal

end Homelab.Provisioning
