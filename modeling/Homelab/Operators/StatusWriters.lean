import Homelab.Api.Updates
import Homelab.Operators.Configurations.Publication
import Homelab.Operators.SshHostKeys.Reconcile

namespace Homelab

open Json (Object)
open Api (Seen AllRefused patches appliedTo updates)
open Interaction (Execution Moment Op Action Program localTrace Extends)
open Provisioning (View Lenient Trusting Plainly)

/-! # The retried status writers

Five loops read an object, check it and patch its status, and try again when
somebody else has written in between.  Each one is a single conditional update.
-/

/-- One call of a status writer. -/
inductive Writer where
  | checkpoint (view : View) (phase : Json) (fields : Object)
  | releaseRun (view : View)
  | observation (snapshot : Resource) (fields : Object) (expectedPin : Json) (additionalStatus : Object)
  | completeOperation (operation : Resource) (phase message : String)
  | publishTargetStatus (target : Resource) (status : Object)

namespace Writer

def call : Writer → Program interface (Except Exn Unit)
  | checkpoint view phase fields =>
      (Provisioning.checkpoint phase fields view).bind fun outcome => .done outcome.1
  | releaseRun view => Provisioning.releaseRun view
  | observation snapshot fields expectedPin additionalStatus =>
      (do let _ ← SshHostKeys.observation snapshot fields expectedPin additionalStatus : Task Unit)
  | completeOperation operation phase message => ServerOperation.completeOperation operation phase message
  | publishTargetStatus target status => Configurations.publishTargetStatus target status

/-- What the writer requires of the version it writes to. -/
def Guard : Writer → Resource → Prop
  | checkpoint view _ _, run =>
      run.uid = view.run.uid ∧ Json.Same (.obj run.spec) (.obj view.run.spec) ∧
        Json.Same (value run.status "attemptID") (value view.provisioning "attemptID") ∧
        Json.Same (value run.status "snapshot") (value view.provisioning "snapshot") ∧
        Json.Same (value run.status "phase") (value view.provisioning "phase")
  | releaseRun view, server =>
      server.uid = view.server.uid ∧
        Json.Same (value (value server.status "provisioning").fields "activeRunRef") view.run.reference
  | observation snapshot _ expectedPin _, server =>
      SshHostKeys.Matches server snapshot ∧
        (expectedPin ≠ .null →
          Json.Same (value (value server.status "hostSSH").fields "bootstrapPublicKey") expectedPin)
  | completeOperation operation _ _, latest =>
      latest.uid = operation.uid ∧ Json.Same (.obj latest.spec) (.obj operation.spec) ∧
        (value latest.status "phase" = .str "Running" ∨ value latest.status "phase" = .str "Uncertain")
  | publishTargetStatus target _, latest =>
      latest.uid = target.uid ∧ latest.metadata.generation = target.metadata.generation ∧
        latest.terminating = false

/-- The run that was read is not one whose reservation can be given back. -/
def Unreleasable (view : View) (run : Resource) : Prop :=
  run.uid ≠ view.run.uid ∨ holds run.status "maintenance" = true ∨
    holds run.status "netbootArmed" = true ∨
    (value run.status "phase" ≠ .str "Succeeded" ∧ value run.status "phase" ≠ .str "Blocked")

/-- The writer found that there is nothing to write. -/
def Declined : Writer → Trace → Prop
  | releaseRun view, trace =>
      ∃ name run, ⟨.get .provisioningRun name, .ok run⟩ ∈ trace ∧ Unreleasable view run
  | _, _ => False

end Writer

/-! ## One attempt -/

/-- The last thing done was a patch that the API acknowledged. -/
def Acknowledged (trace : Trace) : Prop :=
  ∃ earlier resource status updated, trace = earlier ++ [⟨.patchStatus resource status, .ok updated⟩]

/-- The last thing done was a patch that raised `failure`, or all patches were refused. -/
def Abandoned (trace : Trace) (failure : Exn) : Prop :=
  AllRefused trace ∨
    ∃ earlier resource status, trace = earlier ++ [⟨.patchStatus resource status, .error failure⟩]

variable {guard : Resource → Prop} {trace later : Trace}

theorem allRefused_nil : AllRefused [] := by
  simp [AllRefused]

theorem still_refused (refused : AllRefused trace) (plainly : Plainly trace later) :
    AllRefused later := by
  obtain ⟨events, rfl, plain⟩ := plainly
  intro patch member
  rw [Api.patches_append] at member
  cases List.mem_append.mp member with
  | inl earlier => exact refused patch earlier
  | inr found =>
      obtain ⟨event, present, isPatch⟩ := List.mem_filterMap.mp found
      have shape := plain event present
      split at isPatch
      · simp [isPlain] at shape
      · simp at isPatch

theorem updates_lenient : Lenient (updates guard) where
  plain trace request plain := by
    cases request <;> simp_all [updates, isPlain]
  follows trace request follows := by
    cases request <;> simp_all [updates, followsProcess]

theorem updates_trusting : Trusting (updates guard) := fun _ _ honest => honest

/-- The answer to a patch, as the loops tell them apart. -/
def Answered (trace : Trace) (resource : Resource) (status : Object) (later : Trace) :
    Except Exn Resource → Prop
  | .ok updated => later = trace ++ [⟨.patchStatus resource status, .ok updated⟩]
  | .error failure => Abandoned later failure ∧ (failure = .http 409 → AllRefused later)

theorem patch_attempted {resource : Resource} {status : Object} (met : guard resource)
    (seen : Seen trace resource) (refused : AllRefused trace) :
    (Api.patchStatus resource status).attempt.Meets (updates guard) trace
      (fun later answer => Answered trace resource status later answer) (fun _ _ => False) := by
  apply Op.meets_attempt.mpr
  refine Op.Meets.check (fun _ _ => ?_) fun failure => ⟨.inl refused, fun _ => refused⟩
  apply Op.meets_perform.mpr
  refine ⟨⟨met, seen, refused⟩, fun updated _ => rfl, fun failure _ => ?_⟩
  constructor
  · exact .inr ⟨trace, resource, status, rfl⟩
  · intro conflict
    subst conflict
    intro patch member
    rw [Api.patches_append, Api.patches_patch] at member
    cases List.mem_append.mp member with
    | inl earlier => exact refused patch earlier
    | inr last => rw [List.mem_singleton.mp last]

/-- Reading one object leaves everything as it was. -/
theorem read_object {kind : Kind} {name : String} :
    (Api.get kind name).Meets (updates guard) trace
      (fun later resource => Plainly trace later ∧ Seen later resource ∧ resource.name = name ∧
        ⟨.get kind name, .ok resource⟩ ∈ later)
      (fun later _ => Plainly trace later) := by
  apply Op.meets_perform.mpr
  refine ⟨True.intro, fun resource honest => ?_, fun failure _ => .event trace rfl⟩
  obtain ⟨_, named⟩ : resource.kind = kind ∧ resource.name = name := honest
  exact ⟨.event trace rfl, Api.seen_get trace kind name resource, named, by simp⟩

/-! ## The loops -/

/-- A loop ends with an acknowledged patch, or gives up. -/
abbrev Retries {α : Type} (guard : Resource → Prop) (trace : Trace) (body : Task α) : Prop :=
  body.Meets (updates guard) trace (fun later _ => Acknowledged later) Abandoned

/-- An attempt patches the version it has read; after a conflict the loop goes on. -/
theorem patch_retried {α : Type} {resource : Resource} {status : Object}
    {next : Except Exn Resource → Task α} (met : guard resource) (seen : Seen trace resource)
    (refused : AllRefused trace)
    (done : ∀ updated later, Acknowledged later → Retries guard later (next (.ok updated)))
    (again : ∀ later, AllRefused later → Retries guard later (next (.error (.http 409))))
    (fails : ∀ failure, failure ≠ .http 409 → next (.error failure) = throw failure) :
    Retries guard trace ((Api.patchStatus resource status).attempt >>= next) := by
  refine Op.Meets.bind (patch_attempted met seen refused) (fun later answer _ answered => ?_)
    fun _ _ _ impossible => impossible.elim
  cases answer with
  | ok updated => exact done updated later ⟨trace, resource, status, updated, answered⟩
  | error failure =>
      by_cases conflict : failure = .http 409
      · subst conflict
        exact again later (answered.2 rfl)
      · rw [fails failure conflict]
        exact answered.1

theorem completeAttempts_retries (operation : Resource) (phase message : String) (attempts : Nat) :
    ∀ trace, AllRefused trace →
      Retries (Writer.completeOperation operation phase message).Guard trace
        (ServerOperation.completeAttempts operation phase message attempts) := by
  induction attempts with
  | zero => exact fun trace refused => .inl refused
  | succ attempts ih =>
      intro trace refused
      refine Op.Meets.bind read_object (fun later latest _ found => ?_)
        fun _ _ _ plain => .inl (still_refused refused plain)
      obtain ⟨plain, seen, _⟩ := found
      have unwritten := still_refused refused plain
      refine Op.Meets.check (fun _ same => ?_) fun _ => .inl unwritten
      refine Op.Meets.check (fun _ open_ => ?_) fun _ => .inl unwritten
      have owned : latest.uid = operation.uid ∧ Json.Same (.obj latest.spec) (.obj operation.spec) := by
        simpa using demand_ok same
      have pending : value latest.status "phase" = .str "Running" ∨
          value latest.status "phase" = .str "Uncertain" := by
        simpa using demand_ok open_
      apply patch_retried ⟨owned.1, owned.2, pending⟩ seen unwritten
      · exact fun _ _ acknowledged => acknowledged
      · exact ih
      · intro failure different
        dsimp only
        split <;> simp_all

theorem publishAttempts_retries (target : Resource) (status : Object) (collection : Kind) (attempts : Nat) :
    ∀ trace, AllRefused trace →
      Retries (Writer.publishTargetStatus target status).Guard trace
        (Configurations.publishAttempts target status collection attempts) := by
  induction attempts with
  | zero => exact fun trace refused => .inl refused
  | succ attempts ih =>
      intro trace refused
      refine Op.Meets.bind read_object (fun later latest _ found => ?_)
        fun _ _ _ plain => .inl (still_refused refused plain)
      obtain ⟨plain, seen, _⟩ := found
      have unwritten := still_refused refused plain
      refine Op.Meets.check (fun _ same => ?_) fun _ => .inl unwritten
      have unchanged : (latest.uid = target.uid ∧
          latest.metadata.generation = target.metadata.generation) ∧ latest.terminating = false := by
        simpa using demand_ok same
      apply patch_retried ⟨unchanged.1.1, unchanged.1.2, unchanged.2⟩ seen unwritten
      · exact fun _ _ acknowledged => acknowledged
      · exact ih
      · intro failure different
        dsimp only
        split <;> simp_all

theorem current_retries (snapshot : Resource) :
    (SshHostKeys.current snapshot).Meets (updates guard) trace
      (fun later server => Plainly trace later ∧ Seen later server ∧ SshHostKeys.Matches server snapshot)
      (fun later _ => Plainly trace later) := by
  refine Op.Meets.bind read_object (fun later server _ found => ?_) fun _ _ _ plain => plain
  obtain ⟨plain, seen, _⟩ := found
  refine Op.Meets.check (fun _ passed => ?_) fun _ => plain
  exact ⟨plain, seen, SshHostKeys.checkCurrent_ok passed⟩

theorem observationAttempts_retries (snapshot : Resource) (fields : Object) (expectedPin : Json)
    (additionalStatus : Object) (attempts : Nat) :
    ∀ trace, AllRefused trace →
      Retries (Writer.observation snapshot fields expectedPin additionalStatus).Guard trace
        (SshHostKeys.observationAttempts snapshot fields expectedPin additionalStatus attempts) := by
  induction attempts with
  | zero => exact fun trace refused => .inl refused
  | succ attempts ih =>
      intro trace refused
      refine Op.Meets.bind (current_retries snapshot) (fun later latest _ found => ?_)
        fun _ _ _ plain => .inl (still_refused refused plain)
      obtain ⟨plain, seen, same⟩ := found
      have unwritten := still_refused refused plain
      refine Op.Meets.check (fun _ pinned => ?_) fun _ => .inl unwritten
      have pin : expectedPin ≠ .null →
          Json.Same (value (value latest.status "hostSSH").fields "bootstrapPublicKey") expectedPin := by
        intro present
        rw [SshHostKeys.checkPin, if_neg present] at pinned
        obtain ⟨host, found, equal⟩ := bind_ok pinned
        rw [Provisioning.member_ok found]
        simpa using demand_ok equal
      apply patch_retried ⟨same, pin⟩ seen unwritten
      · exact fun _ _ acknowledged => acknowledged
      · exact ih
      · intro failure different
        dsimp only
        split <;> simp_all

theorem releaseReservation_retries (view : View) (run : Resource) (phase : Json)
    (same : run.reference = view.run.reference) (attempts : Nat) :
    ∀ trace, AllRefused trace →
      Retries (Writer.releaseRun view).Guard trace
        (Provisioning.releaseReservation view run phase attempts) := by
  induction attempts with
  | zero => exact fun trace refused => .inl refused
  | succ attempts ih =>
      intro trace refused
      refine Op.Meets.bind read_object (fun later latest _ found => ?_)
        fun _ _ _ plain => .inl (still_refused refused plain)
      obtain ⟨plain, seen, _⟩ := found
      have unwritten := still_refused refused plain
      refine Op.Meets.check (fun _ identified => ?_) fun _ => .inl unwritten
      refine Op.Meets.check (fun reserved held => ?_) fun _ => .inl unwritten
      refine Op.Meets.check (fun _ named => ?_) fun _ => .inl unwritten
      have uid : latest.uid = view.server.uid := by simpa using demand_ok identified
      have names : Json.Same (value (value latest.status "provisioning").fields "activeRunRef")
          view.run.reference := by
        rw [Provisioning.member_ok held, ← same]
        simpa using demand_ok named
      apply patch_retried ⟨uid, names⟩ seen unwritten
      · exact fun _ _ acknowledged => acknowledged
      · exact ih
      · intro failure different
        dsimp only
        split <;> simp_all

theorem checkpointAttempts_retries (phase : Json) (fields : Object) (view : View) (attempts : Nat) :
    ∀ trace, AllRefused trace →
      (Provisioning.checkpointAttempts phase fields attempts).Meets
        (updates (Writer.checkpoint view phase fields).Guard) trace view
        (fun later _ _ => Acknowledged later) (fun later failure _ => Abandoned later failure) := by
  induction attempts with
  | zero => exact fun trace refused => .inl refused
  | succ attempts ih =>
      intro trace refused
      refine Action.Meets.load (Action.Meets.run (updates_lenient.current updates_trusting)
        (fun later latest _ found => ?_) fun _ _ _ plain => .inl (still_refused refused plain))
      obtain ⟨revalidated, _⟩ := found
      have unwritten := still_refused refused revalidated.plainly
      obtain ⟨_, _, fresh, unchanged⟩ := revalidated
      have guard : (Writer.checkpoint view phase fields).Guard latest.run := by
        refine ⟨unchanged.run, unchanged.request, ?_, ?_, ?_⟩
        · exact fresh.same ▸ unchanged.attemptID
        · exact fresh.same ▸ unchanged.snapshot
        · exact fresh.same ▸ unchanged.phase
      refine Action.Meets.run (patch_attempted guard fresh.run unwritten)
        (fun now answer _ answered => ?_) fun _ _ _ impossible => impossible.elim
      cases answer with
      | ok updated => exact ⟨later, latest.run, _, updated, answered⟩
      | error failure =>
          dsimp only
          split
          · rename_i none
            cases none
          · rename_i conflict
            exact ih now (answered.2 (Except.error.inj conflict))
          · rename_i other
            cases other
            exact answered.1

/-! ## The calls -/

/-- How a writer's call ends. -/
def Writer.Ends (writer : Writer) (trace : Trace) : Except Exn Unit → Prop
  | .ok _ => Acknowledged trace ∨ AllRefused trace ∧ writer.Declined trace
  | .error failure => Abandoned trace failure

theorem releaseRun_retries (view : View) :
    (Provisioning.releaseRun view).Meets (updates (Writer.releaseRun view).Guard) []
      (fun later _ => Acknowledged later ∨
        AllRefused later ∧ (Writer.releaseRun view).Declined later) Abandoned := by
  refine Op.Meets.bind read_object (fun later run _ found => ?_)
    fun _ _ _ plain => .inl (still_refused allRefused_nil plain)
  obtain ⟨plain, _, named, read⟩ := found
  have unwritten := still_refused allRefused_nil plain
  split
  · rename_i unreleasable
    refine .inr ⟨unwritten, _, run, read, ?_⟩
    rcases unreleasable with other | reserved | armed
    · exact .inl other
    · exact .inr (.inl reserved)
    · exact .inr (.inr (.inl armed))
  · rename_i releasable
    have uid : run.uid = view.run.uid := by
      by_contra different
      exact releasable (.inl different)
    refine Op.Meets.check (fun phase present => ?_) fun _ => .inl unwritten
    split
    · refine (releaseReservation_retries view run phase ?_ 5 later unwritten).mono
        (fun _ _ _ acknowledged => .inl acknowledged) fun _ _ _ abandoned => abandoned
      rw [Resource.reference, Resource.reference, named, uid]
    · rename_i going
      refine .inr ⟨unwritten, _, run, read, .inr (.inr (.inr ?_))⟩
      rw [Provisioning.item_value present]
      exact not_or.mp going

theorem Writer.call_meets (writer : Writer) :
    writer.call.Meets (updates writer.Guard) [] writer.Ends := by
  have plainly : ∀ {body : Task Unit}, Retries writer.Guard [] body →
      Program.Meets (updates writer.Guard) body [] writer.Ends := by
    intro body retries
    refine Program.Meets.mono retries fun later outcome _ ended => ?_
    cases outcome with
    | ok result => exact .inl ended
    | error failure => exact ended
  cases writer with
  | checkpoint view phase fields =>
      apply Program.meets_bind.mpr
      refine Program.Meets.mono (checkpointAttempts_retries phase fields view 5 [] allRefused_nil)
        fun later outcome _ ended => ?_
      obtain ⟨result | failure, state⟩ := outcome
      · exact ended
      · exact .inl ended
  | releaseRun view =>
      refine Program.Meets.mono (releaseRun_retries view) fun later outcome _ ended => ?_
      cases outcome <;> exact ended
  | observation snapshot fields expectedPin additionalStatus =>
      apply plainly
      exact Op.Meets.bind
        (observationAttempts_retries snapshot fields expectedPin additionalStatus 5 [] allRefused_nil)
        (fun _ _ _ acknowledged => acknowledged) fun _ _ _ abandoned => abandoned
  | completeOperation operation phase message =>
      exact plainly (completeAttempts_retries operation phase message 5 [] allRefused_nil)
  | publishTargetStatus target status =>
      apply plainly
      exact Op.Meets.check (fun collection _ =>
        publishAttempts_retries target status collection 5 [] allRefused_nil) fun _ => .inl allRefused_nil

/-! ## Executions -/

variable {outside : Store → Store → Prop} {initial world : Store}
  {history : List (Moment interface Store)} {running : List (Program interface (Except Exn Unit))}

/-- Calls of one writer, with each other and with everybody else who writes. -/
abbrev Writing (writer : Writer) (outside : Store → Store → Prop) (initial : Store)
    (history : List (Moment interface Store)) (world : Store)
    (running : List (Program interface (Except Exn Unit))) : Prop :=
  Execution (Api.definite outside) (fun program => program = writer.call) initial history world running

theorem updated_acknowledged {versions : List Resource} (acknowledged : Acknowledged trace)
    (updated : Api.Updated guard (patches trace) versions) :
    ∃ version, versions = [version] ∧ guard version := by
  obtain ⟨earlier, resource, status, result, rfl⟩ := acknowledged
  rw [Api.patches_append, Api.patches_patch] at updated
  generalize whole : patches earlier ++ [(resource, Except.ok result)] = all at updated
  cases updated with
  | refused refusals =>
      subst whole
      simpa using refusals _ (List.mem_append_right _ (List.mem_singleton.mpr rfl))
  | acknowledged met => exact ⟨_, rfl, met⟩
  | failed => simp at whole
  | lost met silent => simp at whole

theorem updated_refused {versions : List Resource} (refused : AllRefused trace)
    (updated : Api.Updated guard (patches trace) versions) : versions = [] := by
  unfold AllRefused at refused
  generalize patches trace = all at refused updated
  cases updated with
  | refused => rfl
  | acknowledged => simpa using refused _ (List.mem_append_right _ (List.mem_singleton.mpr rfl))
  | failed => rfl
  | lost met silent =>
      have last := refused _ (List.mem_append_right _ (List.mem_singleton.mpr rfl))
      exact absurd (Except.error.inj last) (silent 409)

/-- The last thing done was a patch of this version whose response was lost. -/
def Lost (trace : Trace) (version : Resource) (failure : Exn) : Prop :=
  (∀ code, failure ≠ .http code) ∧
    ∃ earlier status, trace = earlier ++ [⟨.patchStatus version status, .error failure⟩]

theorem updated_abandoned {versions : List Resource} {failure : Exn} (abandoned : Abandoned trace failure)
    (updated : Api.Updated guard (patches trace) versions) :
    versions = [] ∨ ∃ version, versions = [version] ∧ guard version ∧ Lost trace version failure := by
  cases abandoned with
  | inl refused => exact .inl (updated_refused refused updated)
  | inr raised =>
      obtain ⟨earlier, resource, status, rfl⟩ := raised
      rw [Api.patches_append, Api.patches_patch] at updated
      generalize whole : patches earlier ++ [(resource, Except.error failure)] = all at updated
      cases updated with
      | refused => exact .inl rfl
      | acknowledged met => simp at whole
      | failed => exact .inl rfl
      | lost met silent =>
          obtain ⟨_, last⟩ := List.append_inj' whole rfl
          obtain ⟨rfl, same⟩ := Prod.mk.inj (List.cons.inj last).1
          obtain rfl := Except.error.inj same
          exact .inr ⟨resource, rfl, met, silent, earlier, status, rfl⟩

/-- A writer that returns has applied exactly one patch, to a version that met its
guard, unless it found nothing to write; one that raises has applied none, unless
the response to its last patch was lost. -/
theorem writer_updates_once {writer : Writer}
    (execution : Writing writer outside initial history world running) (orderly : Api.Orderly outside)
    (start : initial.WellFormed Resource.schema) {actor : Nat} {result : Except Exn Unit}
    (finished : running[actor]? = some (.done result)) :
    match result with
    | .ok _ =>
        (∃ version, appliedTo actor initial history = [version] ∧ writer.Guard version) ∨
          (appliedTo actor initial history = [] ∧ writer.Declined (localTrace actor history))
    | .error failure =>
        appliedTo actor initial history = [] ∨
          ∃ version, appliedTo actor initial history = [version] ∧ writer.Guard version ∧
            Lost (localTrace actor history) version failure := by
  have meets : ∀ program, program = writer.call →
      program.Meets (updates writer.Guard) [] writer.Ends := by
    intro program same
    subst same
    exact writer.call_meets
  have updated := Api.Execution.updated execution orderly start meets actor
  have ends := execution.finished (fun _ _ _ _ served => Api.Serve.honest served.1) meets finished
  cases result with
  | ok value =>
      rcases ends with acknowledged | ⟨refused, declined⟩
      · exact .inl (updated_acknowledged acknowledged updated)
      · exact .inr ⟨updated_refused refused updated, declined⟩
  | error failure => exact updated_abandoned ends updated

namespace Writer

def nobody (_ _ : Store) : Prop := False

theorem nobody_orderly : Api.Orderly nobody := fun _ _ _ changed => changed.elim

def runningOperation : Resource where
  kind := .operation
  metadata := { name := "operation-1", uid := "operation-uid", resourceVersion := 0 }
  spec := []
  status := [("phase", .str "Running")]

def installingRun : Resource where
  kind := .provisioningRun
  metadata := { name := "run", uid := "run-uid", resourceVersion := 0 }
  spec := []
  status := [("phase", .str "Installing")]

def reservedServer : Resource where
  kind := .server
  metadata := { name := "server", uid := "server-uid", resourceVersion := 0 }
  spec := []
  status := [("provisioning", .obj [("activeRunRef", installingRun.reference)])]

def sampleStore : Store where
  objects := [runningOperation, installingRun, reservedServer]
  revision := 0
  issued := ["operation-uid", "run-uid", "server-uid"]

theorem sampleStore_formed : sampleStore.WellFormed Resource.schema :=
  ⟨by decide, by decide, by decide, by decide, by decide⟩

def completing : Writer := completeOperation runningOperation "Succeeded" "done"

def releasing : Writer :=
  releaseRun { server := reservedServer, run := installingRun, provisioning := installingRun.status }

/-- The call has read the Operation and is about to patch it. -/
theorem completing_read :
    ∃ history running resume, Writing completing nobody sampleStore history sampleStore running ∧
      localTrace 0 history = [⟨.get .operation "operation-1", .ok runningOperation⟩] ∧
      appliedTo 0 sampleStore history = [] ∧
      running[0]? = some (.call (.patchStatus runningOperation
        (ServerOperation.completionFields "Succeeded" "done")) resume) ∧
      resume (.error (.os .other)) = .done (.error (.os .other)) ∧
      ∀ updated, resume (.ok updated) = .done (.ok ()) := by
  have begun : Writing completing nobody sampleStore _ sampleStore _ := .start .init rfl
  have pending : [completing.call][0]? = some completing.call := rfl
  have read := Execution.act begun pending
    ⟨.found (show sampleStore.find? Resource.schema (.operation, "operation-1") =
      some runningOperation from rfl), fun _ raised => by cases raised⟩
  exact ⟨_, _, _, read, rfl, rfl, rfl, rfl, fun _ => rfl⟩

theorem completion_written : ∃ updated after,
    Api.patch sampleStore runningOperation (ServerOperation.completionFields "Succeeded" "done") =
      some (updated, after) := ⟨_, _, rfl⟩

end Writer

/-- A completion that the API acknowledges. -/
theorem writer_updates_once_completing :
    ∃ history world running, Writing Writer.completing Writer.nobody Writer.sampleStore history world running ∧
      running[0]? = some (.done (.ok ())) ∧ ∃ version, appliedTo 0 Writer.sampleStore history = [version] ∧
        Writer.completing.Guard version := by
  obtain ⟨history, running, resume, execution, _, _, pending, _, ends⟩ := Writer.completing_read
  obtain ⟨updated, after, written⟩ := Writer.completion_written
  have bound := (List.getElem?_eq_some_iff.mp pending).1
  have whole := Execution.act execution pending ⟨.applied written, fun _ raised => by cases raised⟩
  have finished : (running.set 0 (resume (.ok updated)))[0]? = some (.done (.ok ())) := by
    rw [List.getElem?_set_self bound, ends]
  refine ⟨_, _, _, whole, finished, ?_⟩
  rcases writer_updates_once whole Writer.nobody_orderly Writer.sampleStore_formed finished with
    applied | ⟨_, declined⟩
  · exact applied
  · exact declined.elim

/-- A writer that returns applies exactly one patch, and one that raises none. -/
def UpdatesOnce (writer : Writer) : Prop :=
  ∀ (outside : Store → Store → Prop) (initial world : Store) (history : List (Moment interface Store))
    (running : List (Program interface (Except Exn Unit))) (actor : Nat) (result : Except Exn Unit),
    Api.Orderly outside → initial.WellFormed Resource.schema →
    Writing writer outside initial history world running → running[actor]? = some (.done result) →
      match result with
      | .ok _ => ∃ version, appliedTo actor initial history = [version] ∧ writer.Guard version
      | .error _ => appliedTo actor initial history = []

/-- Giving back the reservation of a run that is still installing returns without a
patch, and a completion whose response is lost raises after its patch was applied. -/
theorem writers_not_once :
    (¬ UpdatesOnce Writer.releasing) ∧ ¬ UpdatesOnce Writer.completing := by
  constructor
  · intro once
    have begun : Writing Writer.releasing Writer.nobody Writer.sampleStore _ Writer.sampleStore _ :=
      .start .init rfl
    have pending : [Writer.releasing.call][0]? = some Writer.releasing.call := rfl
    have read := Execution.act begun pending
      ⟨.found (show Writer.sampleStore.find? Resource.schema (.provisioningRun, "run") =
        some Writer.installingRun from rfl), fun _ raised => by cases raised⟩
    obtain ⟨version, applied, _⟩ := once _ _ _ _ _ 0 (.ok ()) Writer.nobody_orderly
      Writer.sampleStore_formed read rfl
    cases applied
  · intro once
    obtain ⟨history, running, resume, execution, read, none, pending, raises, _⟩ := Writer.completing_read
    obtain ⟨updated, after, written⟩ := Writer.completion_written
    have bound := (List.getElem?_eq_some_iff.mp pending).1
    have served : Api.Serve Writer.sampleStore (.patchStatus Writer.runningOperation
        (ServerOperation.completionFields "Succeeded" "done")) (.error (.os .other)) after :=
      .lost written (by decide)
    have whole := Execution.act execution pending ⟨served, fun _ raised => by cases raised⟩
    have finished : (running.set 0 (resume (.error (.os .other))))[0]? =
        some (.done (.error (.os .other))) := by
      rw [List.getElem?_set_self bound, raises]
    have applied := once _ _ _ _ _ 0 _ Writer.nobody_orderly Writer.sampleStore_formed whole finished
    have agrees := Versioned.agrees_of_mem Writer.sampleStore_formed
      (show Writer.runningOperation ∈ Writer.sampleStore.objects by simp [Writer.sampleStore])
    rw [Api.appliedTo_append, none, ← execution.world_eq, Api.appliedBy_patch agrees written] at applied
    cases applied

end Homelab
