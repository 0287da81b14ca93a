import Homelab.Operators.Configurations.Execution
import Homelab.Operators.Provisioning.Rehearsal

namespace Homelab.Configurations

open Json (Object)
open Api (Turn Play)
open Interaction (Program Execution)

/-! # Rehearsed executions

Executions on a small deployment in which nobody else writes: one Server with
a verified installation, and one Configuration that targets it.
-/

namespace Rehearsal

open Provisioning.Rehearsal (executor uidOf metadata hostKey)

variable {α : Type}

/-- The first program performs its pending request; a creation is carried out
under an identity that its name determines. -/
def act (manner : Request → Turn) (play : Play α) : Option (Play α) :=
  match play.running[(0 : Nat)]? with
  | some (.call (.create kind name spec) resume) =>
      (Api.creation play.world kind name (uidOf name) spec).map fun (created, after) => {
        world := after
        history := play.history ++ [⟨.act 0 ⟨.create kind name spec, .ok created⟩, after⟩]
        running := play.running.set 0 (resume (.ok created)) }
  | some (.call request _) => play.turn 0 (manner request)
  | _ => none

/-- It goes on until a request of this kind is pending. -/
def proceed (manner : Request → Turn) (stop : Request → Bool) : Nat → Play α → Option (Play α)
  | 0, _ => none
  | steps + 1, play =>
      match play.running[(0 : Nat)]? with
      | some (.call request _) =>
          if stop request then some play else (act manner play).bind (proceed manner stop steps)
      | _ => none

variable {starts : Program interface α → Prop} {outside : Store → Store → Prop} {initial : Store}

theorem plays_act {manner : Request → Turn} {play next : Play α} (plays : play.Plays starts outside initial)
    (found : act manner play = some next) : next.Plays starts outside initial := by
  unfold act at found
  split at found
  · rename_i kind name spec resume pending
    obtain ⟨⟨created, after⟩, written, same⟩ := Option.map_eq_some_iff.mp found
    subst same
    exact Execution.act plays pending (.created written)
  · exact plays.turn found
  · cases found

theorem plays_proceed {manner : Request → Turn} {stop : Request → Bool} {steps : Nat} {play final : Play α}
    (plays : play.Plays starts outside initial) (found : proceed manner stop steps play = some final) :
    final.Plays starts outside initial := by
  induction steps generalizing play with
  | zero => cases found
  | succ steps ih =>
      unfold proceed at found
      split at found
      · split at found
        · cases found
          exact plays
        · obtain ⟨next, acted, rest⟩ := Option.bind_eq_some_iff.mp found
          exact ih (plays_act plays acted) rest
      · cases found

theorem stops_proceed {manner : Request → Turn} {stop : Request → Bool} {steps : Nat} {play final : Play α}
    (found : proceed manner stop steps play = some final) :
    ∃ request resume, final.running[(0 : Nat)]? = some (.call request resume) ∧ stop request = true := by
  induction steps generalizing play with
  | zero => cases found
  | succ steps ih =>
      unfold proceed at found
      split at found
      · rename_i request resume pending
        split at found
        · rename_i stopped
          cases found
          exact ⟨request, resume, pending, stopped⟩
        · obtain ⟨next, _, rest⟩ := Option.bind_eq_some_iff.mp found
          exact ih rest
      · cases found

/-! ## A deployment -/

def identity (name : String) : Json := .obj [("name", .str name), ("uid", .str (uidOf name))]

def managed : String := "10.0.0.1"

def url : String := "https://example.test/code.git"

def commit : String := "aaaaaaaaaaaaaaaaaaaaaaaaaaaaaaaaaaaaaaaa"

def server : Resource where
  kind := .server
  metadata := metadata "node"
  spec := []
  status := [("machineRef", identity "machine"),
    ("provisioning", .obj [("provisioned", .bool true), ("lastSuccessfulRunRef", identity "install")]),
    ("hostSSH", .obj [("keyReady", .bool true), ("phase", .str "Ready"), ("keyPairRef", identity "key"),
      ("installedKeyPairRef", identity "key"), ("publicKey", .str hostKey),
      ("fingerprint", .str "SHA256:digest"), ("installedFingerprint", .str "SHA256:digest")]),
    ("networking", .obj [("management", .obj [("address", .obj [("address", .str managed)])])])]

def installation : Resource where
  kind := .provisioningRun
  metadata := metadata "install"
  spec := [("serverRef", identity "node")]
  status := [("phase", .str "Succeeded")]

def machine : Resource where
  kind := .machine
  metadata := metadata "machine"
  spec := []
  status := [("serverRef", identity "node")]

def inventory : Object := [("all", .obj [("hosts", .obj [("node", .obj [])])])]

def group : Resource where
  kind := .inventoryCaptureGroup
  metadata := metadata "group"
  spec := [("selector", .obj [("matchKinds", serverSelector)])]
  status := [("observedGeneration", .int 1), ("inventory", .obj inventory)]

def repository : Resource where
  kind := .gitRepository
  metadata := metadata "code"
  spec := [("url", .str url)]
  status := []

def specification : Object :=
  [("targetRef", .obj [("kind", .str "Server"), ("name", .str "node")]),
    ("inventoryCaptureGroupRef", .obj [("name", .str "group")]),
    ("source", .obj [("repositoryRef", .obj [("name", .str "code")]), ("revision", .str commit)]),
    ("command", .obj [("argv", .arr [.str "ansible-playbook", .str "plays/base.yml"])])]

/-- The Configuration, with the outputs that an earlier execution published. -/
def configuration (outputs : Object) : Resource where
  kind := .configuration
  metadata := metadata "base"
  spec := specification
  status := [("outputs", .obj outputs)]

def deployment (outputs : Object) : Store :=
  Provisioning.Rehearsal.stored [server, installation, machine, group, repository, configuration outputs]

def hostVars : Object := [("ansible_host", .str managed)]

def resolved (outputs : Object) : Plan where
  configuration := configuration outputs
  target := server
  servers := [server]
  hosts := [("node", .obj hostVars)]
  inputRevision := "sha256:sha256:plan"
  sourceRevision := commit
  resolvedReferences := [server, group, repository, server].map observedReference
  inventory := inventory

/-- A host on which every call succeeds; the command leaves this public result. -/
def host (result : Json) : (call : Host) → call.Value
  | .inspectPath path => if path = "/tmp/configuration/result.json" then .regular 2 else .missing
  | .readJson _ => result
  | .subprocess argv => { returncode := 0, stdout := if argv.contains "get-url" then url else commit }
  | .ansibleInventory .. => .obj [("_meta", .obj [("hostvars", .obj [("node", .obj hostVars)])])]
  | call => Provisioning.Rehearsal.host "node" .null call

def smoothly (result : Json) (_ : Request) : Turn := .answer (host result)

/-- One execution over the deployment. -/
def execution (outputs : Object) : Program interface (Except Exn Unit) :=
  execute (executor "group") (resolved outputs) "/homelab" "/tmp/configuration"

def executing (outputs : Object) : Play (Except Exn Unit) :=
  Play.begin (deployment outputs) [execution outputs]

theorem plays_executing {outputs : Object} {manner : Request → Turn} {stop : Request → Bool} {steps : Nat}
    {final : Play (Except Exn Unit)} (found : proceed manner stop steps (executing outputs) = some final) :
    final.Plays (· = execution outputs) outside (deployment outputs) :=
  plays_proceed (Play.plays_begin fun _ member => List.mem_singleton.mp member) found

/-- Up to the last report. -/
def reportsReady : Request → Bool
  | .patchStatus resource status => resource.kind = .configuration && status.get? "phase" = some (.str "Ready")
  | _ => false

def reporting (outputs : Object) (result : Json) : Option (Play (Except Exn Unit)) :=
  proceed (smoothly result) reportsReady 100 (executing outputs)

end Rehearsal

end Homelab.Configurations
