import Homelab.Operators.Configurations.Preparation
import Homelab.Operators.Configurations.Publication
import Homelab.Operators.RunnerKubernetes.Context

namespace Homelab.Configurations

open Json (Object)
open Interaction (Action)
open ServerOperation (operationProgress reservation)

/-! # One execution of a Configuration -/

def inputsChanged (message : String) : Exn := .operator "InputsChanged" message

/-! ## Reports -/

def readyCondition (phase reason : String) (generation : Json) : Json :=
  .arr [.obj [("type", .str "Ready"), ("status", .str (if phase = "Ready" then "True" else "False")),
    ("reason", .str reason), ("observedGeneration", generation)]]

/-- A member that is reported only when there is something to report. -/
def whenPresent (key : String) (text : String) : Object :=
  if text = "" then [] else [(key, .str text)]

/-- The status that a report patches. -/
def reportedStatus (configuration : Resource) (phase reason revision : String) (resolved : Option Plan)
    (verified : Object) (buildURL : String) : Object :=
  let generation := generationOr configuration
  [("phase", .str phase), ("reason", .str reason), ("observedGeneration", generation),
    ("conditions", readyCondition phase reason generation)] ++
    whenPresent "inputRevision" revision ++
    (match resolved with
      | some resolved => [("sourceRevision", .str resolved.sourceRevision),
          ("resolvedReferences", .arr resolved.resolvedReferences)]
      | none => []) ++
    verified ++ whenPresent "buildURL" buildURL

/-- When a verified execution ended, and its public outputs. -/
def verification (phase : String) (outputs : Object) : Task Object :=
  if phase = "Ready" then do
    let now : String ← Host.run .now
    return [("lastVerifiedAt", .str now), ("outputs", .obj outputs)]
  else return []

/-- Report only for the same desired generation, preserving other writers. -/
def report (env : Environment) (configuration : Resource) (phase reason : String)
    (revision : String := "") (resolved : Option Plan := none) (outputs : Object := []) : Task Unit := do
  let latest ← Api.get .configuration configuration.name
  demand (latest.uid = configuration.uid &&
      latest.metadata.generation = configuration.metadata.generation && !latest.terminating)
    (inputsChanged "Configuration changed before reporting")
  let verified ← verification phase outputs
  let status := reportedStatus configuration phase reason revision resolved verified
    (env.lookupOr "BUILD_URL" "")
  let _ ← Api.patchStatus latest status
  return ()

/-! ## Commands -/

/-- Extract an exact reviewed commit from the trusted pipeline Git input. -/
def checkout (configuration : Resource) (source destination expectedCommit : String) : Task String := do
  let sourceSpec ← mapping configuration.spec "source"
  let repositoryReference ← reference sourceSpec "repositoryRef"
  let repository ← fetchReference .gitRepository repositoryReference
  let revision ← sourceCommit repository sourceSpec source
  demand (revision = expectedCommit) (inputsChanged "Configuration source changed before checkout")
  let archive ← checkOutput (git source ++ ["archive", "--format=tar", revision])
  (Host.run (.writeText destination archive) : Task Unit)
  return destination

def uncertainWork : Exn :=
  .operator "RemoteWorkUncertain"
    "SSH became unreachable or command was interrupted; inspect remote work before releasing claims"

def commandFailed (message : String) : Exn := .operator "CommandFailed" message

/-- Separate known completed failure from transport loss or signal interruption. -/
def requireCompletedCommand (result : Completed) : Except Exn Unit := do
  demand (result.returncode ≠ 4 && result.returncode ≠ 6 && 0 ≤ result.returncode) uncertainWork
  demand (result.returncode = 0)
    (commandFailed "Configuration command or installed-host verification failed")

/-- Prepare opt-in private cluster credentials only inside this execution workspace. -/
def kubernetesEnvironment (env : Environment) (resolved : Plan) (directory : String) :
    Task (List (String × String)) :=
  match resolved.kubeCluster with
  | none => return []
  | some cluster =>
      tryCatch (do
        let context ← RunnerKubernetes.verifiedContext env resolved.inventory cluster
        let path := directory ++ "/kubeconfig"
        (Host.run (.writeJson path (.obj context)) : Task Unit)
        let version ← jsonString (value cluster.spec "kubernetesVersion") "Kubernetes version"
        let binaries := directory ++ "/bin"
        RunnerKubernetes.installKubectl env version binaries
        return [("KUBECONFIG", path), ("PATH", binaries ++ ":" ++ env.lookupOr "PATH" "")])
      fun failure =>
        if failure.isException then
          throw (.operator "ContextUnavailable" "Verified Kubernetes context could not be prepared")
        else throw failure

inductive Stage where
  | guardBefore
  | command
  | guardAfter
deriving DecidableEq

def Stage.text : Stage → String
  | .guardBefore => "Verify installed hosts"
  | .command => "Execute command"
  | .guardAfter => "Verify installed hosts after command"

def stages : List Stage := [.guardBefore, .command, .guardAfter]

def commandTimeout : Nat := 3600

def guardArgv (source directory : String) : List String :=
  ["ansible-playbook", source ++ "/plays/configuration_guard.yml", "-e", "@" ++ valuesPath directory]

/-- `plan(api, configuration)`, at the call depth of a fresh call. -/
abbrev replan (env : Environment) (configuration : Resource) : Task Plan :=
  plan env env.recursionLimit configuration []

/-- The work of one stage, after its claims were verified. -/
def runStage (env : Environment) (resolved : Plan) (servers : List Resource) (source directory : String) :
    Stage → Task Completed
  | .command => do
      let _ ← kubernetesEnvironment env resolved directory
      -- Preparation can outlive desired edits; recheck before execution.
      verifyClaims servers
      let current ← replan env resolved.configuration
      demand (current.inputRevision = resolved.inputRevision)
        (inputsChanged "Configuration changed during context preparation")
      let argv ← commandArgv resolved.configuration
      runCommand argv [] (directory ++ "/command.log") commandTimeout
  | _ => runAnsible (guardArgv source directory) [] (directory ++ "/guard.log") commandTimeout

def announceStage (servers : List Resource) (stage : Stage) : Task Unit :=
  match servers with
  | [] => pure ()
  | server :: rest => do
      operationProgress server stage.text
      announceStage rest stage

def runStages (env : Environment) (resolved : Plan) (servers : List Resource) (source directory : String) :
    List Stage → Task Unit
  | [] => pure ()
  | stage :: rest => do
      verifyClaims servers
      announceStage servers stage
      let result ← runStage env resolved servers source directory stage
      requireCompletedCommand result
      runStages env resolved servers source directory rest

/-- How a failure between and inside the guards is classified. -/
def classify : Exn → Exn
  -- Killing local SSH or Ansible cannot prove all remote work has stopped.
  | .timeoutExpired => .operator "RemoteWorkUncertain"
      "Timed out; inspect remote work before releasing host claims"
  -- Missing or unexecutable local tooling is a completed start failure.
  | .http _ => commandFailed "Configuration command could not be executed"
  | .os _ => commandFailed "Configuration command could not be executed"
  | failure => failure

/-- Guard installed hosts around direct argv execution; preserve uncertain ownership. -/
def runCommands (env : Environment) (resolved : Plan) (servers : List Resource)
    (source directory : String) : Task Unit :=
  tryCatch (runStages env resolved servers source directory stages) fun failure => throw (classify failure)

/-- Whether a Server still has the inputs that were planned. -/
def unchangedInputs (server latest : Resource) : Except Exn Bool :=
  if latest.terminating then .ok false
  else do
    let current ← memberInputs latest
    let planned ← memberInputs server
    return Json.Same (.obj current) (.obj planned) &&
      Json.Same (value latest.status "hostSSH") (value server.status "hostSSH")

/-- Refresh heartbeat-only revisions without accepting changed execution inputs. -/
def refreshClaimTarget (server : Resource) : Task Resource := do
  let latest ← Api.get .server server.name
  let unchanged ← unchangedInputs server latest
  demand unchanged (inputsChanged "Server inputs changed before operation acquisition")
  return latest

/-! ## Public results -/

def maximumResult : Nat := 65536

def invalidResult (message : String) : Exn := .operator "InvalidResult" message

/-- What `except (ValueError, UnicodeError)` catches. -/
def valueErrors : List String := ["ValueError", "JSONDecodeError", "UnicodeDecodeError"]

/-- How a failure to read a result is reported. -/
def unreadable : Exn → Exn
  | .error kind message =>
      if valueErrors.contains kind then invalidResult "Command result must be a public JSON object"
      else .error kind message
  | failure => failure

/-- Read one optional bounded public object, refusing links and special files. -/
def readPublicResult (path : String) : Task (Option Object) := do
  match ← (Host.run (.inspectPath path) : Task PathState) with
  | .missing => return none
  | .regular size => do
      demand (size ≤ maximumResult) (invalidResult "Command result must be a small regular JSON file")
      tryCatch (do
        let decoded : Json ← (Host.run (.readJson path) : Task Json)
        let fields ← jsonObject decoded "public playbook result"
        return some fields) fun failure => throw (unreadable failure)
  | _ => throw (invalidResult "Command result must be a small regular JSON file")

/-- Publish optional observation-only output without claiming a successful setup. -/
def publishObservations (env : Environment) (resolved : Plan) (servers : List Resource)
    (directory : String) : Task Unit := do
  match ← readPublicResult (directory ++ "/target-observation.json") with
  | none => pure ()
  | some observations => do
      verifyClaims servers
      let current ← replan env resolved.configuration
      demand (current.inputRevision = resolved.inputRevision)
        (inputsChanged "Inputs changed before reporting observations")
      publishTargetStatus resolved.target observations

/-- A completed failed play may still have useful public observations. -/
def observeFailure (env : Environment) (resolved : Plan) (servers : List Resource) (directory : String) :
    Exn → Task Unit
  | .operator "CommandFailed" _ => publishObservations env resolved servers directory
  | _ => pure ()

/-! ## Claims around the execution -/

def requestedBy (configuration : Resource) : Json :=
  .obj [("kind", .str "Configuration"), ("name", .str configuration.name), ("uid", .str configuration.uid)]

/-- Claim the servers one after another, and run a body that is given the
claimed servers; the claims are settled in reverse order. -/
def withClaims {α : Type} (configuration : Resource) : List Resource → (List Resource → Task α) → Task α
  | [], body => body []
  | server :: rest, body => do
      let latest ← refreshClaimTarget server
      let (outcome, _) ← Action.within () (reservation latest "configure" "configurations"
        (some (requestedBy configuration)) .server fun claimed _ =>
          withClaims configuration rest fun others => body (claimed :: others))
      match outcome with
      | .ok result => return result
      | .error failure => throw failure

/-- What runs while all claims are held. -/
def executeClaimed (env : Environment) (resolved : Plan) (source directory : String)
    (servers : List Resource) : Task Object := do
  let configuration := resolved.configuration
  let refreshed ← replan env configuration
  demand (refreshed.inputRevision = resolved.inputRevision)
    (inputsChanged "Configuration inputs changed before execution")
  report env configuration "Reconciling" "ExecutingCommand" resolved.inputRevision (some resolved)
  tryCatch (runCommands env resolved servers source directory) fun failure => do
    observeFailure env resolved servers directory failure
    throw failure
  verifyClaims servers
  let current ← replan env configuration
  demand (current.inputRevision = resolved.inputRevision)
    (inputsChanged "Configuration inputs changed during execution")
  let result ← readPublicResult (directory ++ "/result.json")
  publishObservations env resolved servers directory
  match ← readPublicResult (directory ++ "/target-status.json") with
  | some targetStatus => publishTargetStatus resolved.target targetStatus
  | none => pure ()
  return result.getD []

/-- Claim all selected hosts, verify installed sessions, execute and recheck inputs. -/
def execute (env : Environment) (resolved : Plan) (source directory : String) : Task Unit := do
  let configuration := resolved.configuration
  let _ ← checkout configuration source (directory ++ "/code") resolved.sourceRevision
  prepareExecution env resolved directory
  let outputs ← withClaims configuration resolved.servers (executeClaimed env resolved source directory)
  report env configuration "Ready" "CommandVerified" resolved.inputRevision (some resolved) outputs

/-! ## A pass -/

/-- The reasons that leave a Configuration pending. -/
def pendingReasons : List String :=
  ["ReferenceMissing", "TargetPending", "InventoryPending", "DependencyPending", "OperationBusy",
    "InputsChanged"]

def failureReason : Exn → String
  | .operator reason _ => reason
  | _ => "ExecutionFailed"

def failurePhase (reason : String) : String :=
  if reason = "Suspended" then "Suspended"
  else if pendingReasons.contains reason then "Pending"
  else "Failed"

/-- Resolve and execute one Configuration; report how it failed. -/
def reconcile (env : Environment) (configuration : Resource) : Task Bool := do
  let outcome ← (do
    let resolved ← replan env configuration
    execute env resolved env.checkout env.directory : Task Unit).attempt
  match outcome with
  | .ok _ => return false
  | .error failure =>
      if failure.isException then do
        let reason := failureReason failure
        let reported ← (report env configuration (failurePhase reason) reason).attempt
        match reported with
        | .error abandoned =>
            if abandoned.isException then return failurePhase reason = "Failed" else throw abandoned
        | .ok _ => return failurePhase reason = "Failed"
      else throw failure

def reconcileAll (env : Environment) : List Resource → Bool → Task Int
  | [], failed => return if failed then 1 else 0
  | configuration :: rest, failed => do
      let failedNow ← reconcile env configuration
      reconcileAll env rest (failed || failedNow)

/-- Whether a Configuration executes on the capture group of this pass. -/
def captured (env : Environment) (configuration : Resource) : Except Exn Bool := do
  let groupReference ← mapping configuration.spec "inventoryCaptureGroupRef"
  let group ← env.lookup "INVENTORY_CAPTURE_GROUP"
  return value groupReference "name" = .str group

/-- A bounded scheduled or manual pass; unrelated configurations still get examined. -/
def main (env : Environment) : Task Int := do
  let listed ← Api.list .configuration
  let configurations ← (listed.filterM (captured env) : Except Exn (List Resource))
  let ordered ← (match dependencyOrder env.recursionLimit configurations with
    | .ok ordered => .ok ordered
    | .error (.operator _ _) =>
        .ok (configurations.insertionSort fun left right => left.name ≤ right.name)
    | .error failure => .error failure : Except Exn (List Resource))
  reconcileAll env ordered false

end Homelab.Configurations
