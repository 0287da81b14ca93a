import Homelab.Api.History
import Homelab.Operators.Provisioning.Lifecycle

namespace Homelab.Provisioning

open Json (Object)
open Api (Seen)

/-! # What a pass owes to the others

Every write a pass makes to a run is one move of the run's life, made on a copy
of the run the pass has read, and backed by what the pass itself has done and
seen before.  No assumption about other passes enters here.
-/

namespace Phase

def all : List Phase :=
  [.pending, .preparingBoot, .awaitingLive, .installing, .awaitingInstalled, .verifying, .succeeded,
    .blocked]

def ofJson? (value : Json) : Option Phase := all.find? fun phase => value == phase.json

theorem ofJson?_eq_some {value : Json} {phase : Phase} :
    ofJson? value = some phase ↔ value = phase.json := by
  constructor
  · intro found
    simpa using List.find?_some found
  · rintro rfl
    cases phase <;> decide

end Phase

def phaseOf (status : Object) : Option Phase := Phase.ofJson? (value status "phase")

theorem phaseOf_eq_some {status : Object} {phase : Phase} :
    phaseOf status = some phase ↔ value status "phase" = phase.json := Phase.ofJson?_eq_some

/-- The record a stored status stands for. -/
def record (status : Object) : Record where
  phase := phaseOf status
  maintenance := status.get? "maintenance"
  armed := holds status "netbootArmed"
  attemptID := status.get? "attemptID"
  snapshot := status.get? "snapshot"
  sourceBootID := status.get? "sourceBootID"

theorem isActive_iff {status : Object} :
    isActive (value status "phase") = true ↔ (record status).active := by
  simp only [isActive, List.any_eq_true, beq_iff_eq, Record.active, record, phaseOf_eq_some]

/-- A write of a pass to its run: the fields, given what the run said before. -/
inductive Writes (run : Resource) : Move → Object → Prop
  | note {text : String} (found : phaseOf run.status = some .pending) :
      Writes run .note [("message", .str text)]
  | claim {snapshot : Json} {startedAt build : String} {generation : Int} {bootID : Json}
      (free : (record run.status).claimable) :
      Writes run .claim (claimFields run snapshot startedAt build generation bootID)
  | arm (found : phaseOf run.status = some .preparingBoot) :
      Writes run .arm (checkpointFields Phase.preparingBoot.json [("netbootArmed", .bool true)])
  | await (found : phaseOf run.status = some .preparingBoot) :
      Writes run .await (checkpointFields Phase.awaitingLive.json [("netbootArmed", .bool true)])
  | refresh (found : phaseOf run.status = some .preparingBoot) :
      Writes run .await (checkpointFields Phase.awaitingLive.json
        [("liveBootID", .null), ("netbootArmed", .bool true)])
  | pin {key : String} (found : phaseOf run.status = some .awaitingLive) :
      Writes run .pin (checkpointFields Phase.awaitingLive.json [("bootstrapPublicKey", .str key)])
  | enroll {bootID : Json} (found : phaseOf run.status = some .awaitingLive) :
      Writes run .enroll (checkpointFields Phase.awaitingLive.json
        [("liveBootID", bootID), ("bootstrapPublicKey", .null), ("netbootArmed", .bool false)])
  | install {text : String} (found : phaseOf run.status = some .awaitingLive) :
      Writes run .install (checkpointFields Phase.installing.json [("message", .str text)])
  | finish (found : phaseOf run.status = some .installing) :
      Writes run .finish (checkpointFields Phase.awaitingInstalled.json
        [("bootTarget", .str "installed"), ("netbootArmed", .bool false)])
  | verify (found : phaseOf run.status = some .awaitingInstalled) :
      Writes run .verify (checkpointFields Phase.verifying.json [])
  | succeed {completedAt text : String} (found : phaseOf run.status = some .verifying) :
      Writes run .succeed (checkpointFields Phase.succeeded.json [("maintenance", .bool false),
        ("completedAt", .str completedAt), ("message", .str text)])
  | interrupt {text : String} (found : phaseOf run.status = some .installing) :
      Writes run .interrupt (checkpointFields Phase.blocked.json
        [("message", .str text), ("maintenance", .bool true)])
  | remark {phase : Phase} {text : String} (found : phaseOf run.status = some phase)
      (member : phase ∈ ACTIVE) :
      Writes run .remark (checkpointFields phase.json [("message", .str text)])
  | block {keep armed : Bool} {text : String}
      (found : phaseOf run.status = some .preparingBoot ∨ phaseOf run.status = some .awaitingLive ∨
        phaseOf run.status = some .installing)
      (entered : phaseOf run.status = some .installing → keep = true) :
      Writes run (.block keep) (checkpointFields Phase.blocked.json (blockedFields keep armed text))

/-- The record after a patch whose members are named once each. -/
theorem record_merge (status fields : Object) (distinct : (fields.map Prod.fst).Nodup) :
    record (Json.mergeFields status fields) =
      { phase := Phase.ofJson? ((Json.mergeMember (status.get? "phase") (fields.get? "phase")).getD .null)
        maintenance := Json.mergeMember (status.get? "maintenance") (fields.get? "maintenance")
        armed := (Json.mergeMember (status.get? "netbootArmed") (fields.get? "netbootArmed")).any Json.truthy
        attemptID := Json.mergeMember (status.get? "attemptID") (fields.get? "attemptID")
        snapshot := Json.mergeMember (status.get? "snapshot") (fields.get? "snapshot")
        sourceBootID := Json.mergeMember (status.get? "sourceBootID") (fields.get? "sourceBootID") } := by
  simp only [record, phaseOf, value, holds, Json.get?_mergeFields _ _ distinct]

@[simp] theorem ofJson?_text (phase : Phase) : Phase.ofJson? (.str phase.text) = some phase :=
  Phase.ofJson?_eq_some.mpr rfl

/-- A checkpoint sets the phase; the rest is up to its further fields. -/
theorem record_checkpoint (status fields : Object) (phase : Phase)
    (distinct : ("phase" :: "currentStage" :: fields.map Prod.fst).Nodup) :
    record (Json.mergeFields status (checkpointFields phase.json fields)) =
      { record (Json.mergeFields status fields) with phase := some phase } := by
  have whole : ((checkpointFields phase.json fields).map Prod.fst).Nodup := by
    simpa [checkpointFields] using distinct
  have rest : (fields.map Prod.fst).Nodup := (List.nodup_cons.mp (List.nodup_cons.mp distinct).2).2
  rw [record_merge _ _ whole, record_merge _ _ rest]
  simp [checkpointFields, Phase.json]

/-- Every write of a pass is one step in the life of its run. -/
theorem Writes.refines {run : Resource} {move : Move} {fields : Object}
    (writes : Writes run move fields) (named : run.uid ≠ "") :
    Record.Step move (record run.status) (record (Json.mergeFields run.status fields)) := by
  cases writes with
  | note found =>
      rw [record_merge _ _ (by simp)]
      exact .note found
  | claim free =>
      rw [record_merge _ _ (by simp [claimFields])]
      simpa [claimFields, Phase.json, Json.truthy] using Record.Step.claim free named
  | arm found =>
      rw [record_checkpoint _ _ _ (by simp), record_merge _ _ (by simp)]
      simpa [record, Json.truthy, found] using @Record.Step.arm (record run.status) found
  | await found =>
      rw [record_checkpoint _ _ _ (by simp), record_merge _ _ (by simp)]
      exact .await found
  | refresh found =>
      rw [record_checkpoint _ _ _ (by simp), record_merge _ _ (by simp)]
      exact .await found
  | pin found =>
      rw [record_checkpoint _ _ _ (by simp), record_merge _ _ (by simp)]
      simpa [record, holds, found] using @Record.Step.pin (record run.status) found
  | enroll found =>
      rw [record_checkpoint _ _ _ (by simp), record_merge _ _ (by simp)]
      simpa [record, Json.truthy, found] using @Record.Step.enroll (record run.status) found
  | install found =>
      rw [record_checkpoint _ _ _ (by simp), record_merge _ _ (by simp)]
      exact .install found
  | finish found =>
      rw [record_checkpoint _ _ _ (by simp), record_merge _ _ (by simp)]
      exact .finish found
  | verify found =>
      rw [record_checkpoint _ _ _ (by simp), record_merge _ _ (by simp)]
      exact .verify found
  | succeed found =>
      rw [record_checkpoint _ _ _ (by simp), record_merge _ _ (by simp)]
      exact .succeed found
  | interrupt found =>
      rw [record_checkpoint _ _ _ (by simp), record_merge _ _ (by simp)]
      exact .interrupt found
  | @remark phase text found member =>
      rw [record_checkpoint _ _ _ (by simp), record_merge _ _ (by simp)]
      simpa [record, holds, found] using
        @Record.Step.remark (record run.status) ⟨phase, member, found⟩
  | block found entered =>
      rw [record_checkpoint _ _ _ (by simp [blockedFields]), record_merge _ _ (by simp [blockedFields])]
      exact .block found entered

/-! ## Stages in a trace -/

/-- The stage and the run a process is started for. -/
def stageOf (files : List (String × Json)) : Option (String × String) := do
  let stageVars ← (files.find? fun file => file.1 == "variables.json").map Prod.snd
  match stageVars.fields.get? "provision_stage", stageVars.fields.get? "provision_run_uid" with
  | some (.str stage), some (.str uid) => some (stage, uid)
  | _, _ => none

/-- A process was started, ended with status 0 and its output was read. -/
def completion (argv : List String) (files : List (String × Json)) (diagnostic output : String)
    (timeout : Nat) : Trace :=
  [⟨.host (.spawn argv files), .ok ()⟩, ⟨.host .startReader, .ok ()⟩,
    ⟨.host (.wait timeout), .ok (0 : Int)⟩, ⟨.host (.readText diagnostic), .ok output⟩]

/-- The stage of this run was started and returned success. -/
def StageDone (trace : Trace) (uid stage : String) : Prop :=
  ∃ argv files diagnostic output timeout, stageOf files = some (stage, uid) ∧
    completion argv files diagnostic output timeout <:+: trace

theorem StageDone.mono {trace later : Trace} {uid stage : String} (done : StageDone trace uid stage)
    (extended : trace <:+: later) : StageDone later uid stage := by
  obtain ⟨argv, files, diagnostic, output, timeout, found, inside⟩ := done
  exact ⟨argv, files, diagnostic, output, timeout, found, inside.trans extended⟩

/-- Traces of the destructive stage of one run. -/
inductive Mark where
  | entered
  | started
deriving DecidableEq

/-- An acknowledged move from AwaitingLive to Installing, or a start of the stage. -/
def installMark (uid : String) : Event → Option Mark
  | ⟨.patchStatus run status, .ok _⟩ =>
      if run.kind = .provisioningRun ∧ run.uid = uid ∧ phaseOf run.status = some .awaitingLive ∧
          status.get? "phase" = some Phase.installing.json then some .entered
      else none
  | ⟨.host (.spawn _ files), _⟩ => if stageOf files = some ("install", uid) then some .started else none
  | _ => none

def installLog (uid : String) (trace : Trace) : List Mark := trace.filterMap (installMark uid)

/-- Stages that select or enter the live boot. -/
def liveStages : List String := ["refresh-prepare", "refresh-boot", "arm", "reboot"]

/-- Stages that clear a selection of the live boot. -/
def clearingStages : List String := ["refresh-clear", "clear"]

/-! ## Evidence -/

def activeRef (server : Resource) : Object :=
  (value (value server.status "provisioning").fields "activeRunRef").fields

/-- The Server is reserved by this run. -/
def Names (server run : Resource) : Prop :=
  (activeRef server).get? "name" = some (.str run.name) ∧ (activeRef server).get? "uid" = some (.str run.uid)

/-- One check of the claim's exclusion: the other Server's run was read, and
found unclaimed or without maintenance. -/
def Checked (events : Trace) (other : Resource) : Prop :=
  ∃ (run : Resource) (name : String), ⟨.get .provisioningRun name, .ok run⟩ ∈ events ∧
    run.kind = .provisioningRun ∧ Names other run ∧
    (phaseOf run.status = some .pending ∨ holds run.status "maintenance" = false)

def isListing : Request → Bool
  | .list .server => true
  | _ => false

/-- What a pass has checked of every other Server before it claims a run: those
it listed last. -/
def OthersChecked (trace : Trace) (server : Resource) : Prop :=
  ∃ (earlier : Trace) (servers : List Resource) (later : Trace),
    trace = earlier ++ ⟨.list .server, .ok servers⟩ :: later ∧
    (∀ event ∈ later, isListing event.request = false) ∧
    ∀ other ∈ servers, other.uid ≠ server.uid → eligible other = .ok true → Checked later other

/-- The Server a run is claimed for is the one that it reserves. -/
def ClaimBacked (trace : Trace) (run : Resource) : Prop :=
  ∃ server, Seen trace server ∧ server.kind = .server ∧ Names server run ∧
    (∃ serverRef, run.spec.get? "serverRef" = some serverRef ∧ Json.Same serverRef server.reference) ∧
    OthersChecked trace server

/-- A session with the host returned these facts. -/
def Probed (facts : Object) (event : Event) : Prop :=
  ∃ session disk, event = ⟨.host (.probe session disk), .ok (some (.obj facts))⟩

/-- After reading the run in Verifying, an inspection was accepted for it. -/
def Verified (trace : Trace) (uid : String) : Prop :=
  ∃ earlier event later facts view, trace = earlier ++ event :: later ∧ Probed facts event ∧
    Seen earlier view.run ∧ view.run.kind = .provisioningRun ∧ view.run.uid = uid ∧
    phaseOf view.run.status = some .verifying ∧ view.provisioning = view.run.status ∧
    verifyInstalled view facts = .ok ()

def isWarning : Request → Bool
  | .host (.warn _) => true
  | _ => false

/-- What a pass has done since it last reported a failure. -/
def Since (trace rest : Trace) : Prop :=
  ∃ earlier warning, trace = earlier ++ warning :: rest ∧ isWarning warning.request = true ∧
    ∀ event ∈ rest, isWarning event.request = false

/-- The host was found in its source session and the matching stage removed the
boot selection. -/
def Cleared (rest : Trace) (uid : String) (source : Json) : Prop :=
  ∃ earlier event later facts bootID live, rest = earlier ++ event :: later ∧ Probed facts event ∧
    facts.get? "bootID" = some bootID ∧ Json.Same bootID source ∧ facts.get? "live" = some live ∧
    (live.truthy = true ∧ StageDone later uid "refresh-clear" ∨
      live.truthy = false ∧ ∃ cleaning check last cleared environment,
        later = cleaning ++ check :: last ∧ StageDone cleaning uid "clear" ∧ Probed cleared check ∧
          cleared.get? "grubEnvironment" = some (.str environment) ∧
          occursIn "next_entry=" environment = false)

def startsClearing (uid : String) : Request → Bool
  | .host (.spawn _ files) => clearingStages.any fun stage => stageOf files == some (stage, uid)
  | _ => false

/-- A failed attempt gives its Server up after a cleanup, or without having
started one. -/
def BlockBacked (trace : Trace) (run : Resource) (keep : Bool) : Prop :=
  ∃ rest read, Since trace rest ∧ Seen trace read ∧ read.kind = .provisioningRun ∧
    read.uid = run.uid ∧ phaseOf read.status = phaseOf run.status ∧
    (keep = false → Cleared rest run.uid (value read.status "sourceBootID") ∨
      ∀ event ∈ rest, startsClearing run.uid event.request = false)

def Evidence (trace : Trace) (run : Resource) : Move → Prop
  | .claim => ClaimBacked trace run
  | .finish => StageDone trace run.uid "install"
  | .succeed => Verified trace run.uid
  | .block keep => BlockBacked trace run keep
  | _ => True

/-- A reservation is given back for a run that was read as ended. -/
def ReleaseBacked (trace : Trace) (latest : Resource) (status : Object) : Prop :=
  ∃ run phase, Seen trace run ∧ run.kind = .provisioningRun ∧ phaseOf run.status = some phase ∧
    (phase = .succeeded ∨ phase = .blocked) ∧ holds run.status "maintenance" = false ∧
    Json.Same (.obj (activeRef latest)) run.reference ∧
    status = [("provisioning", .obj (releaseFields run phase.json))]

/-- When a stage may be started. -/
def StageBacked (trace : Trace) (stage uid : String) : Prop :=
  (stage = "install" → (installLog uid trace).getLast? = some .entered) ∧
    (stage ∈ liveStages → ∃ run, Seen trace run ∧ run.kind = .provisioningRun ∧ run.uid = uid ∧
      (record run.status).selected)

/-- What every pass keeps to, whatever the others do. -/
def Permitted (trace : Trace) : Request → Prop
  | .get .. => True
  | .list .. => True
  | .create .. => False
  | .patchStatus resource status =>
      Seen trace resource ∧
        match resource.kind with
        | .provisioningRun => ∃ move, Writes resource move status ∧ Evidence trace resource move
        | .server => ReleaseBacked trace resource status
        | _ => False
  | .host (.spawn _ files) => ∀ stage uid, stageOf files = some (stage, uid) → StageBacked trace stage uid
  | .host _ => True

def discipline : Interaction.Contract interface where
  guard := Permitted
  rely := Api.Honest

end Homelab.Provisioning
