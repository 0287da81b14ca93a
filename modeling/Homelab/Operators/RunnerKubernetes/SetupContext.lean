import Homelab.Interaction.Embedding
import Homelab.Operators.RunnerKubernetes.Context

namespace Homelab.RunnerKubernetes

open Interaction (Op Program)

/-! # The disposable context of an interactive runner

The shell of a runner has a `.kube` directory, which a run of `setup_context`
shares with the user of that shell.  Nothing in a kubeconfig tells who wrote
it; here every file carries its writer, which no step of the code looks at.
-/

inductive Writer where
  | setup (run : Nat)
  | user
deriving DecidableEq

/-- A file that was opened and not yet written has no content. -/
structure File where
  writer : Writer
  content : Option Json

inductive Entry where
  | absent
  | file (file : File)
  | link (target : Option File)

namespace Entry

/-- The file that the path leads to. -/
def file? : Entry → Option File
  | .absent => none
  | .file found => some found
  | .link target => target

def isLink : Entry → Bool
  | .link _ => true
  | _ => false

def isRegular : Entry → Bool
  | .file _ => true
  | _ => false

end Entry

/-- `.kube/homelab-context.json` and `.kube/config` -/
inductive KubeFile where
  | ownership
  | config
deriving DecidableEq

structure Disk where
  directoryLinked : Bool
  ownership : Entry
  config : Entry

namespace Disk

def entry (disk : Disk) : KubeFile → Entry
  | .ownership => disk.ownership
  | .config => disk.config

def put (disk : Disk) (entry : Entry) : KubeFile → Disk
  | .ownership => { disk with ownership := entry }
  | .config => { disk with config := entry }

end Disk

/-! ## File system calls -/

inductive FileCall where
  | directoryIsSymlink
  | isSymlink (file : KubeFile)
  | isFile (file : KubeFile)
  | present (file : KubeFile)
  | unlink (file : KubeFile) (missingOk : Bool)
  | makeDirectory
  | protectDirectory
  | openTruncated (file : KubeFile)
  | write (file : KubeFile) (content : Json)
  | protect (file : KubeFile)

@[reducible] def FileCall.Value : FileCall → Type
  | .directoryIsSymlink => Bool
  | .isSymlink _ => Bool
  | .isFile _ => Bool
  | .present _ => Bool
  | _ => Unit

/-- What opening a path for writing leaves there, through a link if it is one. -/
def Entry.opened (writer : Writer) : Entry → Entry
  | .link _ => .link (some ⟨writer, none⟩)
  | _ => .file ⟨writer, none⟩

/-- A write goes to the file that was opened, which may no longer be at the path. -/
def Entry.written (writer : Writer) (content : Json) : Entry → Entry
  | .file found => .file (if found.writer = writer then ⟨writer, some content⟩ else found)
  | .link (some found) => .link (some (if found.writer = writer then ⟨writer, some content⟩ else found))
  | other => other

/-- The value and the effect of a call that succeeds, in this run. -/
def FileCall.perform (run : Nat) (disk : Disk) : (call : FileCall) → Option (call.Value × Disk)
  | .directoryIsSymlink => some (disk.directoryLinked, disk)
  | .isSymlink file => some ((disk.entry file).isLink, disk)
  | .isFile file => some ((disk.entry file).file?.isSome, disk)
  | .present file => some ((disk.entry file).file?.isSome, disk)
  | .unlink file missingOk =>
      match disk.entry file with
      | .absent => if missingOk then some ((), disk) else none
      | _ => some ((), disk.put .absent file)
  | .makeDirectory => some ((), disk)
  | .protectDirectory => some ((), disk)
  | .openTruncated file => some ((), disk.put ((disk.entry file).opened (.setup run)) file)
  | .write file content => some ((), disk.put ((disk.entry file).written (.setup run) content) file)
  | .protect file => if (disk.entry file).file?.isSome then some ((), disk) else none

/-- The requests of a run: file system calls, and those of every operator. -/
abbrev shell : Interaction.Interface := interface.extend FileCall FileCall.Value

def FileCall.run (call : FileCall) : Op shell call.Value := @Op.perform shell (.inl call)

/-- A part that touches no file of `.kube`. -/
abbrev elsewhere {α : Type} (body : Task α) : Op shell α := body.embed

/-! ## The run -/

/-- Write secret-bearing data; an existing file is truncated. -/
def writePrivate (file : KubeFile) (content : Json) : Op shell Unit := do
  (FileCall.makeDirectory.run : Op shell Unit)
  ((FileCall.openTruncated file).run : Op shell Unit)
  ((FileCall.write file content).run : Op shell Unit)
  ((FileCall.protect file).run : Op shell Unit)

/-- `directory.is_symlink() or ownership.is_symlink() or config_path.is_symlink()` -/
def anySymlink : Op shell Bool := do
  if ← (FileCall.directoryIsSymlink.run : Op shell Bool) then return true
  if ← ((FileCall.isSymlink .ownership).run : Op shell Bool) then return true
  (FileCall.isSymlink .config).run

/-- Remove our old credentials. -/
def removeOwned : Op shell Unit := do
  if ← ((FileCall.isFile .ownership).run : Op shell Bool) then
    ((FileCall.unlink .config true).run : Op shell Unit)
    ((FileCall.unlink .ownership false).run : Op shell Unit)

/-- `[a-z0-9][a-z0-9.-]*` -/
def isClusterLabel (name : String) : Bool :=
  let alphanumeric (char : Char) := char.isDigit || ('a' ≤ char && char ≤ 'z')
  match name.toList with
  | [] => false
  | first :: rest => alphanumeric first && rest.all fun char => alphanumeric char || char = '.' || char = '-'

/-- Write the context of a labeled group's cluster, which nothing has replaced. -/
def installContext (env : Environment) (groupName home name : String) (group : Resource)
    (inventory : Json.Object) : Op shell Bool := do
  let present ← ((FileCall.present .config).run : Op shell Bool)
  demand (!present) (valueError "Refusing to overwrite an unmanaged kubeconfig")
  demand (isClusterLabel name) (valueError "Invalid cluster label")
  let cluster ← elsewhere (Api.get .kubeCluster name)
  demand (!cluster.terminating) (valueError "Cluster is terminating")
  let config ← elsewhere (verifiedContext env inventory cluster)
  let (currentGroup, _) ← elsewhere (captureInventory groupName)
  demand (currentGroup.uid = group.uid &&
      currentGroup.metadata.generation = group.metadata.generation &&
      Json.Same (labelsOf currentGroup) (labelsOf group))
    (valueError "Inventory context changed during credential retrieval")
  let version ← jsonString (value cluster.spec "kubernetesVersion") "Kubernetes version"
  elsewhere (installKubectl env version (home ++ "/.local/bin"))
  (FileCall.makeDirectory.run : Op shell Unit)
  (FileCall.protectDirectory.run : Op shell Unit)
  writePrivate .ownership (.obj [("clusterUID", .str cluster.uid)])
  writePrivate .config (.obj config)
  return true

/-- Refresh only our disposable context; never overwrite user-supplied kubeconfig. -/
def setupContext (env : Environment) (groupName home : String) : Op shell Bool := do
  let linked ← anySymlink
  demand (!linked) (valueError "Refusing symlinked Kubernetes context files")
  removeOwned
  let (group, inventory) ← elsewhere (captureInventory groupName)
  match entry? group.metadata.labels clusterLabel with
  | none => return false
  | some name => installContext env groupName home name group inventory

/-! ## A session of the shell -/

structure World where
  store : Store
  disk : Disk

/-- Any call can fail without effect. -/
inductive Serve (run : Nat) (world : World) : (request : shell.Request) → shell.Reply request → World → Prop
  | api {request : Request} {reply : interface.Reply request} {after : Store}
      (served : Api.Serve world.store request reply after) :
      Serve run world (.inr request) reply { world with store := after }
  | failed {call : FileCall} {failure : Exn} : Serve run world (.inl call) (.error failure) world
  | performed {call : FileCall} {result : call.Value} {disk : Disk}
      (done : call.perform run world.disk = some (result, disk)) :
      Serve run world (.inl call) (.ok result) { world with disk }

/-- A run in progress, with its own events so far. -/
structure Running where
  trace : Interaction.Trace shell
  rest : Program shell (Except Exn Bool)

structure Session where
  world : World
  runs : Nat
  current : Option Running

/-- A stop without an outcome is one from outside, at any point of the run. -/
inductive Move where
  | begin
  | act (event : Interaction.Event shell)
  | stop (outcome : Option (Except Exn Bool))
  | edit (entry : Entry)
  | api

/-- A path as its user may leave it. -/
def Entry.Supplied (entry : Entry) : Prop := ∀ file, entry.file? = some file → file.writer = .user

inductive Step (env : Environment) (groupName home : String) (session : Session) : Move → Session → Prop
  | begin (idle : session.current = none) :
      Step env groupName home session .begin
        { session with runs := session.runs + 1, current := some ⟨[], setupContext env groupName home⟩ }
  | act {trace : Interaction.Trace shell} {request : shell.Request} {reply : shell.Reply request}
      {resume : shell.Reply request → Program shell (Except Exn Bool)} {world : World}
      (pending : session.current = some ⟨trace, .call request resume⟩)
      (served : Serve session.runs session.world request reply world) :
      Step env groupName home session (.act ⟨request, reply⟩)
        { session with world, current := some ⟨trace ++ [⟨request, reply⟩], resume reply⟩ }
  | finish {trace : Interaction.Trace shell} {outcome : Except Exn Bool}
      (ended : session.current = some ⟨trace, .done outcome⟩) :
      Step env groupName home session (.stop (some outcome)) { session with current := none }
  | kill {running : Running} (active : session.current = some running) :
      Step env groupName home session (.stop none) { session with current := none }
  | edit {entry : Entry} (own : entry.Supplied) :
      Step env groupName home session (.edit entry)
        { session with world.disk.config := entry }
  | api {store : Store} :
      Step env groupName home session .api { session with world.store := store }

/-- The sessions that steps of an allowed kind lead to. -/
inductive Reaches (env : Environment) (groupName home : String) (allowed : Session → Move → Prop)
    (initial : World) : Session → Prop
  | init : Reaches env groupName home allowed initial ⟨initial, 0, none⟩
  | step {session after : Session} {move : Move} (earlier : Reaches env groupName home allowed initial session)
      (permitted : allowed session move) (taken : Step env groupName home session move after) :
      Reaches env groupName home allowed initial after

end Homelab.RunnerKubernetes
