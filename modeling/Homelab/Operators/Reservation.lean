import Homelab.Interaction.Runs
import Homelab.Operators.Custody
import Homelab.Operators.Provisioning.Bodies

namespace Homelab.Custody

open Json (Object)
open Api (Seen Honest seen_get)
open Interaction (Contract Execution Moment Program Op Action localTrace)
open ServerOperation (acquire settle checkClaim reservation completeAttempts completeOperation completionFields
  operationSpec verifyOperation operationProgress)

/-! # What runs under a reservation -/

variable {α β σ : Type} {start trace later events : Trace}

/-! ## Respectful bodies -/

/-- The body reports on no Operation but those it is given itself. -/
def Respects (body : Task α) : Prop :=
  ∀ trace, body.Meets (custody trace) trace (fun _ _ => True) fun _ _ => True

def PassRespects (body : Pass σ α) : Prop :=
  ∀ trace state, body.Meets (custody trace) trace state (fun _ _ _ => True) fun _ _ _ => True

/-- Whoever owes nothing from before `trace` owes nothing from before its start. -/
theorem custody_widen (extended : start <+: trace) {request : Request}
    (guarded : (custody trace).guard later request) : (custody start).guard later request := by
  obtain ⟨between, rfl⟩ := extended
  intro resource status same
  obtain ⟨unnamed, reports⟩ := guarded resource status same
  refine ⟨unnamed, fun kind named => ?_⟩
  obtain ⟨events, rfl, undecided, ⟨event, member, returned⟩, created⟩ := reports kind named
  refine ⟨between ++ events, by simp, undecided, ⟨event, by simp [member], returned⟩, created.mono ?_⟩
  exact List.subset_append_right between events

theorem Respects.after {body : Task α} (respects : Respects body) (extended : start <+: trace) :
    body.Meets (custody start) trace (fun _ _ => True) fun _ _ => True :=
  Program.Meets.weaken (respects trace) (fun _ _ _ guarded => custody_widen extended guarded) fun _ _ => id

theorem PassRespects.after {body : Pass σ α} (respects : PassRespects body) (extended : start <+: trace) (state : σ) :
    body.Meets (custody start) trace state (fun _ _ _ => True) fun _ _ _ => True :=
  Program.Meets.weaken (respects trace state) (fun _ _ _ guarded => custody_widen extended guarded) fun _ _ => id

namespace Respects

theorem bind {first : Task α} {next : α → Task β} (head : Respects first)
    (tail : ∀ value, Respects (next value)) : Respects (first >>= next) := by
  intro trace
  exact (head trace).bind (fun _ value extended _ => (tail value).after extended) fun _ _ _ _ => True.intro

theorem check {result : Except Exn α} {next : α → Task β}
    (tail : ∀ value, result = .ok value → Respects (next value)) : Respects (liftM result >>= next) := by
  intro trace
  exact Op.Meets.check (fun value read => tail value read trace) fun _ => True.intro

theorem caught {body : Task α} {handler : Exn → Task α} (inside : Respects body)
    (handled : ∀ failure, Respects (handler failure)) : Respects (tryCatch body handler) := by
  intro trace
  apply Op.meets_tryCatch.mpr
  exact (inside trace).mono (fun _ _ _ _ => True.intro) fun _ failure extended _ => (handled failure).after extended

theorem attempt {body : Task α} (inside : Respects body) : Respects body.attempt := by
  intro trace
  apply Op.meets_attempt.mpr
  exact (inside trace).mono (fun _ _ _ _ => True.intro) fun _ _ _ _ => True.intro

/-- A request that patches no status. -/
theorem perform {request : Request} (other : ∀ resource status, request ≠ .patchStatus resource status) :
    Respects (@Op.perform interface request) := by
  intro trace
  apply Op.meets_perform.mpr
  exact ⟨fun resource status same => absurd same (other resource status), fun _ _ => True.intro,
    fun _ _ => True.intro⟩

theorem run (call : Host) : Respects (Host.run call) := perform fun _ _ same => by cases same

/-- A patch that touches neither an owner nor the outcome of an Operation. -/
theorem patch {resource : Resource} {status : Object} (unnamed : "operationRef" ∉ status.map Prod.fst)
    (silent : resource.kind = .operation → "phase" ∉ status.map Prod.fst) :
    Respects (Api.patchStatus resource status) := by
  refine .check fun _ _ trace => Op.meets_perform.mpr ⟨?_, fun _ _ => True.intro, fun _ _ => True.intro⟩
  intro resource' status' same
  cases same
  exact ⟨unnamed, fun kind named => absurd named (silent kind)⟩

/-- What is read has the kind that was asked for. -/
theorem get {kind : Kind} {name : String} {next : Resource → Task β}
    (tail : ∀ resource : Resource, resource.kind = kind → Respects (next resource)) :
    Respects (Api.get kind name >>= next) := by
  intro trace
  apply Op.meets_bind.mpr
  refine Op.meets_perform.mpr ⟨fun _ _ same => (by cases same), ?_, fun _ _ => True.intro⟩
  intro resource honest
  exact (tail resource honest.1.1).after (List.prefix_append _ _)

end Respects

/-! ## A reservation respects the others -/

theorem completeAttempts_custodial (operation : Resource) (phase message : String) (attempts : Nat)
    (created : Created later operation.uid) :
    (completeAttempts operation phase message attempts).Meets (custody trace) (trace ++ later)
      (fun _ _ => True) fun _ _ => True := by
  induction attempts generalizing later with
  | zero => exact True.intro
  | succ attempts ih =>
      apply Op.meets_bind.mpr
      refine Op.meets_perform.mpr ⟨fun _ _ same => (by cases same), ?_, fun _ _ => True.intro⟩
      intro latest honest
      refine Op.Meets.check (fun _ mine => Op.Meets.check (fun _ going => ?_) fun _ => True.intro)
        fun _ => True.intro
      have facts := demand_ok mine
      simp only [Bool.and_eq_true, decide_eq_true_eq] at facts
      have undecided : Undecided latest.status := by simpa [Undecided] using demand_ok going
      -- the version that is patched was read after the Operation was created
      have guarded : (custody trace).guard
          (trace ++ (later ++ [⟨.get .operation operation.name, .ok latest⟩]))
          (.patchStatus latest (completionFields phase message)) := by
        intro resource status same
        cases same
        refine ⟨by simp [completionFields], fun _ _ => ⟨_, rfl, undecided, seen_get .., ?_⟩⟩
        rw [facts.1]
        exact created.mono (List.subset_append_left _ _)
      rw [List.append_assoc]
      apply Op.meets_bind.mpr
      apply Op.meets_attempt.mpr
      refine Op.Meets.check (fun _ _ => Op.meets_perform.mpr ⟨guarded, fun _ _ => True.intro, ?_⟩) fun failure => ?_
      · intro failure _
        dsimp only
        split
        · exact True.intro
        · rw [List.append_assoc]
          apply ih
          exact created.mono (by simp)
        · exact True.intro
      · dsimp only
        split
        · exact True.intro
        · apply ih
          exact created.mono (List.subset_append_left _ _)
        · exact True.intro

theorem settle_custodial {operation : Resource} (outcome : Except Exn α) (created : Created later operation.uid) :
    (settle operation outcome).Meets (custody trace) (trace ++ later) (fun _ _ => True) fun _ _ => True := by
  have completes (phase message : String) :
      (completeOperation operation phase message).Meets (custody trace) (trace ++ later)
        (fun _ _ => True) fun _ _ => True :=
    completeAttempts_custodial operation phase message 5 created
  unfold settle
  split
  · exact (completes _ _).bind (fun _ _ _ _ => True.intro) fun _ _ _ _ => True.intro
  · split
    · exact (completes _ _).bind (fun _ _ _ _ => True.intro) fun _ _ _ _ => True.intro
    · exact (completes _ _).bind (fun _ _ _ _ => True.intro) fun _ _ _ _ => True.intro
  · exact (completes _ _).bind (fun _ _ _ _ => True.intro) fun _ _ _ _ => True.intro

/-- What an acquisition returns was created by it. -/
theorem acquire_custodial (snapshot : Resource) (action operator : String) (requestedBy : Option Json) :
    (acquire snapshot action operator requestedBy).Meets (custody trace) trace
      (fun later operation => ∃ events, later = trace ++ events ∧ Created events operation.uid)
      fun _ _ => True := by
  refine Op.Meets.check (fun _ _ => Op.Meets.check (fun _ _ => ?_) fun _ => True.intro) fun _ => True.intro
  apply Op.meets_bind.mpr
  refine Op.meets_perform.mpr ⟨fun _ _ same => (by cases same), fun id _ => ?_, fun _ _ => True.intro⟩
  apply Op.meets_tryCatch.mpr
  refine Op.meets_perform.mpr ⟨fun _ _ same => (by cases same), fun operation _ => ?_, fun failure _ => ?_⟩
  · rw [List.append_assoc]
    exact ⟨_, rfl, "operation-" ++ id, operationSpec snapshot action operator requestedBy, operation, by simp, rfl⟩
  · split <;> exact True.intro

theorem reservation_respects {snapshot : Resource} {action operator : String} {requestedBy : Option Json}
    {collection : Kind} {body : Resource → Resource → Pass σ α}
    (inside : ∀ claimed operation, PassRespects (body claimed operation)) :
    PassRespects (reservation snapshot action operator requestedBy collection body) := by
  intro trace state
  refine Action.Meets.run (acquire_custodial snapshot action operator requestedBy)
    (fun later operation _ acquired => ?_) fun _ _ _ _ => True.intro
  obtain ⟨events, rfl, created⟩ := acquired
  have settles (final : Trace) (outcome : Except Exn α) (state : σ) (extended : trace ++ events <+: final) :
      (liftM (settle operation outcome) : Pass σ α).Meets (custody trace) final state (fun _ _ _ => True)
        fun _ _ _ => True := by
    obtain ⟨more, rfl⟩ := extended
    rw [List.append_assoc]
    exact Action.meets_lift.mpr (settle_custodial outcome (created.mono (List.subset_append_left _ _)))
  apply Action.meets_bind.mpr
  apply Action.meets_attempt.mpr
  apply Action.meets_bind.mpr
  apply Action.meets_lift.mpr
  refine Op.meets_perform.mpr ⟨fun _ _ same => (by cases same), fun claimed _ => ?_, fun failure _ => ?_⟩
  · refine Action.Meets.check (fun _ _ => ?_) fun failure => settles _ _ _ (List.prefix_append _ _)
    have extended : trace ++ events <+: trace ++ events ++ [⟨.get collection snapshot.name, .ok claimed⟩] :=
      List.prefix_append _ _
    have meets := (inside claimed operation).after ((List.prefix_append trace events).trans extended) state
    exact meets.mono (fun final _ _ more _ => settles final _ _ (extended.trans more))
      fun final _ _ more _ => settles final _ _ (extended.trans more)
  · exact settles _ _ _ (List.prefix_append _ _)

/-- A use of `reservation`, and what runs under it. -/
structure Client (σ α : Type) where
  snapshot : Resource
  action : String
  operator : String
  requestedBy : Option Json
  collection : Kind
  body : Resource → Resource → Pass σ α
  respects : ∀ claimed operation, PassRespects (body claimed operation)

namespace Client

variable (client : Client σ α)

def pass : Pass σ α :=
  reservation client.snapshot client.action client.operator client.requestedBy client.collection client.body

def acquisition : Task Resource :=
  acquire client.snapshot client.action client.operator client.requestedBy

/-- The events have led into the body: the Operation was created, the target was
read as claimed by it, and the body has not ended, or has ended only just now. -/
def Executing (trace : Trace) (operation claimed : Resource) : Prop :=
  ∃ prior acquired inner state rest,
    trace = prior ++ (acquired ++ ⟨.get client.collection client.snapshot.name, .ok claimed⟩ :: inner) ∧
      client.acquisition.Ran acquired operation ∧ checkClaim client.snapshot operation claimed = .ok () ∧
      Program.Steps (client.body claimed operation state) inner rest

end Client

theorem Client.respectful (client : Client σ α) (state : σ) : Respectful (client.pass state) :=
  Program.Meets.mono (reservation_respects client.respects [] state) fun _ _ _ _ => True.intro

/-! ## A sample run -/

/-- Nobody but the programs. -/
def nobody (_ _ : Store) : Prop := False

theorem aloof_nobody : Aloof nobody :=
  ⟨fun _ _ _ changed => changed.elim, fun _ _ changed => changed.elim, fun _ _ changed => changed.elim⟩

namespace Sample

def server : Resource where
  kind := .server
  metadata := { name := "node", uid := "node-uid", resourceVersion := 0 }
  spec := []
  status := []

def store : Store where
  objects := [server]
  revision := 0
  issued := ["node-uid"]

theorem store_formed : store.WellFormed Resource.schema := by
  constructor <;> simp [store, server, Resource.schema, Resource.uid]

/-- Under the reservation the time is asked for. -/
def client : Client Unit String where
  snapshot := server
  action := "reboot"
  operator := "system-operations"
  requestedBy := none
  collection := .server
  body _ _ := liftM (Host.run .now : Task String)
  respects _ _ _ _ := Action.meets_lift.mpr (Respects.run .now _)

def operation : Resource where
  kind := .operation
  metadata := { name := "operation-1", uid := "operation-1-uid", resourceVersion := 1 }
  spec := operationSpec server "reboot" "system-operations" none
  status := [("phase", .str "Running")]

def claimed : Resource where
  kind := .server
  metadata := { name := "node", uid := "node-uid", resourceVersion := 2 }
  spec := []
  status := [("operationRef", operation.reference)]

def owned : Store where
  objects := [claimed, operation]
  revision := 2
  issued := ["operation-1-uid", "node-uid"]

theorem created : Api.creation store .operation "operation-1" "operation-1-uid"
    (operationSpec server "reboot" "system-operations" none) = some (operation, owned) := rfl

abbrev Runs (history : List (Moment interface Store)) (world : Store)
    (running : List (Program interface (Except Exn String × Unit))) : Prop :=
  Shared nobody store history world running

/-- The only program performs its pending request. -/
theorem Runs.act {history : List (Moment interface Store)} {world after : Store} {request : Request}
    {resume : interface.Reply request → Program interface (Except Exn String × Unit)}
    (runs : Runs history world [.call request resume]) {reply : interface.Reply request}
    (served : (discreet nobody).serve world request reply after) :
    Runs (history ++ [⟨.act 0 ⟨request, reply⟩, after⟩]) after [resume reply] :=
  @Execution.act _ _ _ _ _ _ _ _ _ _ 0 _ _ _ runs rfl served

/-- The client has been given its Operation and has read the Server as claimed. -/
theorem executing : ∃ history running, Runs history owned [running] ∧
    client.Executing (localTrace 0 history) operation claimed := by
  have begun : Runs _ store [client.pass ()] := .start .init (client.respectful ())
  have named := Runs.act begun ⟨@Api.Serve.performed store .uuid "1", True.intro⟩
  have reserved := Runs.act named ⟨.created created, True.intro⟩
  have found : owned.find? Resource.schema (.server, "node") = some claimed := rfl
  have read := Runs.act reserved ⟨.found found, True.intro⟩
  refine ⟨_, _, read, [], [⟨.host .uuid, .ok "1"⟩, ⟨.create .operation "operation-1" operation.spec, .ok operation⟩],
    [], (), _, rfl, .call (.call (.refl _)), rfl, .refl _⟩

def succeeded : Resource where
  kind := .operation
  metadata := { name := "operation-1", uid := "operation-1-uid", resourceVersion := 3 }
  spec := operation.spec
  status := [("phase", .str "Succeeded"), ("message", .str "Operation execution completed")]

def released : Store where
  objects := [{ server with metadata := { server.metadata with resourceVersion := 4 } }, succeeded]
  revision := 4
  issued := owned.issued

theorem reported : Api.patch owned operation (completionFields "Succeeded" "Operation execution completed") =
    some (succeeded, released) := rfl

end Sample

/-! ## What holds while a body runs -/

variable {outside : Store → Store → Prop} {initial world : Store} {history : List (Moment interface Store)}
  {running : List (Program interface β)} {client : Client σ α} {operation claimed : Resource} {events : Trace}

/-- An acquisition ends with the creation of its Operation. -/
theorem acquire_ran {snapshot : Resource} {action operator : String} {requestedBy : Option Json}
    (ran : (acquire snapshot action operator requestedBy).Ran events operation) :
    ∃ first name spec, events = first ++ [⟨.create .operation name spec, .ok operation⟩] := by
  obtain ⟨_, _, ran⟩ := Op.ran_check.mp ran
  obtain ⟨_, _, ran⟩ := Op.ran_check.mp ran
  obtain ⟨first, later, id, split, _, ran⟩ := Op.ran_bind.mp ran
  have created := Op.ran_rethrow ran fun failure rest => by
    split <;> exact Op.ran_throw
  rw [Op.ran_perform.mp created] at split
  exact ⟨first, _, _, split⟩

theorem checkClaim_ok {snapshot : Resource} {result : Unit}
    (passed : checkClaim snapshot operation claimed = .ok result) :
    claimed.uid = snapshot.uid ∧ Json.Same (value claimed.status "operationRef") operation.reference := by
  have facts := demand_ok passed
  simpa only [Bool.and_eq_true, decide_eq_true_eq] using facts

/-- A body reports on Operations that were created while it ran. -/
theorem PassRespects.reports {body : Pass σ α} {state : σ} {rest : Program interface (Except Exn α × σ)}
    (respects : PassRespects body) (steps : Program.Steps (body state) events rest)
    (honest : ∀ event ∈ events, (custody []).rely event.request event.reply) {event : Event}
    (member : event ∈ events) {resource : Resource} {status : Object}
    (patches : event.request = .patchStatus resource status) (kind : resource.kind = .operation)
    (named : "phase" ∈ status.map Prod.fst) : Created events resource.uid := by
  obtain ⟨earlier, later, rfl⟩ := List.append_of_mem member
  have guarded := Program.Meets.answered (respects [] state) steps fun event inside => honest event (by simp [inside])
  obtain ⟨between, split, _, _, created⟩ := (guarded resource status patches).2 kind named
  rw [List.nil_append, List.nil_append] at split
  rw [← split] at created
  exact created.mono (List.subset_append_left _ _)

/-- What runs after the creation of an Operation does not report on it, if it respects the others. -/
theorem body_silent (shared : Shared outside initial history world running) (aloof : Aloof outside)
    (start : initial.WellFormed Resource.schema) {actor : Nat} {first before after : Trace} {name : String}
    {spec : Object} {body : Pass σ α} {state : σ} {rest : Program interface (Except Exn α × σ)}
    (split : localTrace actor history =
      first ++ ⟨.create .operation name spec, .ok operation⟩ :: (before ++ (events ++ after)))
    (respects : PassRespects body) (steps : Program.Steps (body state) events rest) :
    ∀ event ∈ events, Silent operation.uid event := by
  intro event member resource status patches kind uid named
  have honest : ∀ event ∈ events, (custody []).rely event.request event.reply := by
    intro event inside
    apply shared.replies Shared.honest actor
    rw [split]
    simp [inside]
  have created := respects.reports steps honest member patches kind named
  rw [uid] at created
  have apart := shared.created_last aloof start split
  exact apart (created.mono fun event inside => by simp [inside])

theorem Client.Executing.uid {trace : Trace} (executing : client.Executing trace operation claimed) :
    claimed.uid = client.snapshot.uid := by
  obtain ⟨_, _, _, _, _, _, _, claims, _⟩ := executing
  exact (checkClaim_ok claims).1

/-- While a body runs, its program holds the target by the Operation that was created for it. -/
theorem Client.Executing.holding (shared : Shared outside initial history world running) (aloof : Aloof outside)
    (start : initial.WellFormed Resource.schema) {actor : Nat}
    (executing : client.Executing (localTrace actor history) operation claimed) :
    Holding (localTrace actor history) operation claimed.uid := by
  obtain ⟨prior, acquired, inner, state, rest, split, acquires, claims, steps⟩ := executing
  obtain ⟨first, name, spec, rfl⟩ := acquire_ran acquires
  have whole : localTrace actor history = (prior ++ first) ++ ⟨.create .operation name spec, .ok operation⟩ ::
      ([⟨.get client.collection client.snapshot.name, .ok claimed⟩] ++ (inner ++ [])) := by
    rw [split]
    simp
  have silent := body_silent shared aloof start whole (client.respects claimed operation) steps
  refine ⟨_, ⟨⟨_, name, spec, whole⟩, ?_⟩, claimed, ?_, rfl, (checkClaim_ok claims).2⟩
  · intro event member
    rcases List.mem_append.mp member with read | inside
    · obtain rfl := List.mem_singleton.mp read
      intro resource status patches
      cases patches
    · exact silent event (by simpa using inside)
  · exact ⟨_, List.mem_cons_self, List.mem_singleton.mpr rfl⟩

/-- While a body runs, its Operation is stored and Running and owns the target, and no other
body runs on the target. -/
theorem one_body_at_a_time (shared : Shared outside initial history world running) (aloof : Aloof outside)
    (start : initial.WellFormed Resource.schema) {actor : Nat}
    (executing : client.Executing (localTrace actor history) operation claimed) :
    (∃ stored ∈ world.objects, stored.uid = operation.uid ∧ stored.kind = .operation ∧
        value stored.status "phase" = .str "Running") ∧
      (∀ target ∈ world.objects, target.uid = client.snapshot.uid →
        Json.Same (value target.status "operationRef") operation.reference) ∧
      ∀ (τ γ : Type) (other : Client τ γ) (another : Nat) (operation' claimed' : Resource),
        other.Executing (localTrace another history) operation' claimed' →
          other.snapshot.uid = client.snapshot.uid → another = actor ∧ operation'.uid = operation.uid := by
  have holding := executing.holding shared aloof start
  refine ⟨?_, fun target member uid => ?_, fun τ γ other another operation' claimed' body same => ?_⟩
  · obtain ⟨second, unreported, _⟩ := holding
    exact shared.unreported_running aloof start unreported
  · exact shared.holding_owner aloof start holding member (uid.trans executing.uid.symm)
  · have held := body.holding shared aloof start
    rw [body.uid, same, ← executing.uid] at held
    exact shared.holding_once aloof start held holding

theorem one_body_at_a_time_sampled : ∃ history running, Sample.Runs history Sample.owned [running] ∧
    Sample.client.Executing (localTrace 0 history) Sample.operation Sample.claimed ∧
      ∀ target ∈ Sample.owned.objects, target.uid = "node-uid" →
        Json.Same (value target.status "operationRef") Sample.operation.reference := by
  obtain ⟨history, running, runs, executing⟩ := Sample.executing
  obtain ⟨_, owns, _⟩ := one_body_at_a_time runs aloof_nobody Sample.store_formed executing
  exact ⟨history, running, runs, executing, owns⟩

/-! ## How outcomes are reported -/

/-- The phase and the message that an outcome is reported with. -/
def completion : Except Exn α → String × String
  | .ok _ => ("Succeeded", "Operation execution completed")
  | .error (.operator reason _) =>
      if reason = "RemoteWorkUncertain" then ("Uncertain", "Inspect remote work before resolution")
      else ("Failed", reason)
  | .error _ => ("Uncertain", "Execution interrupted; inspect remote work")

theorem completion_succeeded {outcome : Except Exn α} (succeeded : (completion outcome).1 = "Succeeded") :
    ∃ result, outcome = .ok result := by
  unfold completion at succeeded
  split at succeeded
  · exact ⟨_, rfl⟩
  · split at succeeded <;> simp at succeeded
  · simp at succeeded

theorem completion_failed {outcome : Except Exn α} (failed : (completion outcome).1 = "Failed") :
    ∃ reason message, reason ≠ "RemoteWorkUncertain" ∧ outcome = .error (.operator reason message) := by
  unfold completion at failed
  split at failed
  · simp at failed
  · split at failed
    · simp at failed
    · exact ⟨_, _, ‹_›, rfl⟩
  · simp at failed

theorem completed_phase (old : Object) (phase message : String) :
    value (Json.mergeFields old (completionFields phase message)) "phase" = .str phase := by
  simp [completionFields, value_set_ne, value_set_self]

/-- A request to the API that writes nothing but this report. -/
def Reporting (report : String × String) (request : Request) : Prop :=
  (∀ call, request ≠ .host call) ∧
    ∀ resource status, request = .patchStatus resource status → status = completionFields report.1 report.2

theorem completeOperation_reporting (operation : Resource) (phase message : String) :
    (completeOperation operation phase message).Confined (Reporting (phase, message)) := by
  unfold completeOperation
  generalize 5 = attempts
  induction attempts with
  | zero => exact .throw _
  | succ attempts ih =>
      refine .bind (.perform ⟨fun _ => by simp, fun _ _ same => (by cases same)⟩) fun latest =>
        .check fun _ _ => .check fun _ _ => ?_
      refine .bind (.attempt (.check fun _ _ => .perform ⟨fun _ => by simp, ?_⟩)) fun result => ?_
      · intro resource status same
        cases same
        rfl
      · split
        · exact .pure _
        · exact ih
        · exact .throw _

/-- An outcome is reported as such. -/
theorem settle_reporting (operation : Resource) (outcome : Except Exn α) :
    (settle operation outcome).Confined (Reporting (completion outcome)) := by
  unfold settle
  split
  · exact .bind (completeOperation_reporting operation _ _) fun _ => .pure _
  · rename_i reason message
    by_cases uncertain : reason = "RemoteWorkUncertain"
    · simp only [completion, uncertain, if_true]
      exact .bind (completeOperation_reporting operation _ _) fun _ => .throw _
    · simp only [completion, uncertain, if_false]
      exact .bind (completeOperation_reporting operation _ _) fun _ => .throw _
  · rename_i failure other
    have report : completion (.error failure : Except Exn α) =
        ("Uncertain", "Execution interrupted; inspect remote work") := by
      cases failure with
      | operator reason message => exact absurd rfl (other reason message)
      | _ => rfl
    rw [report]
    exact .bind (completeOperation_reporting operation _ _) fun _ => .throw _

namespace Client

/-- The claim check and the body, under one handler. -/
def block (client : Client σ α) (operation : Resource) : Pass σ α := do
  let claimed ← Api.get client.collection client.snapshot.name
  checkClaim client.snapshot operation claimed
  client.body claimed operation

/-- What follows the acquisition. -/
def remaining (client : Client σ α) (operation : Resource) : Pass σ α := do
  let outcome ← (client.block operation).attempt
  settle operation outcome

theorem pass_eq (client : Client σ α) :
    client.pass = (client.acquisition : Pass σ Resource) >>= client.remaining := rfl

/-- The events have led past the acquisition of this Operation. -/
def Reserved (client : Client σ α) (trace : Trace) (operation : Resource) : Prop :=
  ∃ prior acquired events state rest, trace = prior ++ (acquired ++ events) ∧
    client.acquisition.Ran acquired operation ∧ Program.Steps (client.remaining operation state) events rest

/-- The claim check or the body has ended like this. -/
def Ended (client : Client σ α) (trace : Trace) (operation : Resource) (outcome : Except Exn α) : Prop :=
  ∃ prior acquired events settled state final, trace = prior ++ (acquired ++ (events ++ settled)) ∧
    client.acquisition.Ran acquired operation ∧
    Program.Ran (client.block operation state) events (outcome, final)

end Client

theorem block_respects (client : Client σ α) (operation : Resource) : PassRespects (client.block operation) := by
  intro trace state
  apply Action.meets_bind.mpr
  apply Action.meets_lift.mpr
  refine Op.meets_perform.mpr ⟨fun _ _ same => (by cases same), fun claimed _ => ?_, fun _ _ => True.intro⟩
  refine Action.Meets.check (fun _ _ => ?_) fun _ => True.intro
  exact (client.respects claimed operation).after (List.prefix_append _ _) state

/-- The phase of a client's Operation is the first one, or how its claim check or body ended. -/
theorem phase_attested (shared : Shared outside initial history world running) (aloof : Aloof outside)
    (start : initial.WellFormed Resource.schema) {actor : Nat}
    (reserved : client.Reserved (localTrace actor history) operation) {stored : Resource}
    (member : stored ∈ world.objects) (uid : stored.uid = operation.uid) :
    value stored.status "phase" = .str "Running" ∨ ∃ outcome,
      client.Ended (localTrace actor history) operation outcome ∧
        value stored.status "phase" = .str (completion outcome).1 := by
  obtain ⟨prior, acquired, events, state, rest, split, acquires, steps⟩ := reserved
  obtain ⟨first, name, spec, rfl⟩ := acquire_ran acquires
  have whole : localTrace actor history =
      (prior ++ first) ++ ⟨.create .operation name spec, .ok operation⟩ :: events := by
    rw [split]
    simp
  have created : Created (localTrace actor history) operation.uid := ⟨name, spec, operation, by rw [whole]; simp, rfl⟩
  rcases shared.phase_reported aloof start created member uid with
    running | ⟨event, performed, resource, status, old, patches, isOperation, same, named, phase⟩
  · exact .inl running
  have inside := shared.reports_after aloof start whole performed patches isOperation same named
  -- the claim check and the body do not report on it
  have unreported : ∀ {block after : Trace} {middle : Program interface (Except Exn α × σ)},
      events = block ++ after → Program.Steps (client.block operation state) block middle → event ∉ block := by
    intro block after middle same' inner here
    have spread : localTrace actor history = (prior ++ first) ++
        ⟨.create .operation name spec, .ok operation⟩ :: ([] ++ (block ++ after)) := by
      rw [whole, same', List.nil_append]
    exact body_silent shared aloof start spread (block_respects client operation) inner event here resource status
      patches isOperation same named
  rcases Action.steps_bind steps with ⟨middle, inner⟩ | ⟨block, settled, outcome, final, rfl, ran, settles⟩
  · obtain ⟨middle, inner⟩ := Action.steps_attempt inner
    exact absurd inside (unreported (List.append_nil events).symm inner)
  · have ended := Action.ran_outcome.mp ran
    refine .inr ⟨outcome, ⟨prior, _, block, settled, state, final, split, acquires, ended⟩, ?_⟩
    rcases List.mem_append.mp inside with here | there
    · exact absurd here (unreported rfl ended)
    · obtain ⟨between, inner⟩ := Action.steps_lift settles
      obtain ⟨earlier, later, rfl⟩ := List.append_of_mem there
      have report := Program.Meets.answered (settle_reporting operation outcome []) inner fun _ _ => True.intro
      rw [phase, report.2 resource status patches, completed_phase]

/-- The client is past its acquisition, and has reported how its body ended. -/
theorem Sample.finished : ∃ history running, Runs history released [running] ∧
    Sample.client.Reserved (localTrace 0 history) Sample.operation := by
  have begun : Runs _ store [Sample.client.pass ()] := .start .init (Sample.client.respectful ())
  have named := Runs.act begun ⟨@Api.Serve.performed store .uuid "1", True.intro⟩
  have reserved := Runs.act named ⟨.created created, True.intro⟩
  have found : owned.find? Resource.schema (.server, "node") = some Sample.claimed := rfl
  have read := Runs.act reserved ⟨.found found, True.intro⟩
  have asked := Runs.act read ⟨@Api.Serve.performed owned .now "noon", True.intro⟩
  have stored : owned.find? Resource.schema (.operation, "operation-1") = some Sample.operation := rfl
  have reread := Runs.act asked ⟨.found stored, True.intro⟩
  have completed := Runs.act reread ⟨.applied reported, True.intro⟩
  refine ⟨_, _, completed, [],
    [⟨.host .uuid, .ok "1"⟩, ⟨.create .operation "operation-1" Sample.operation.spec, .ok Sample.operation⟩],
    [⟨.get .server "node", .ok Sample.claimed⟩, ⟨.host .now, .ok "noon"⟩,
      ⟨.get .operation "operation-1", .ok Sample.operation⟩,
      ⟨.patchStatus Sample.operation (completionFields "Succeeded" "Operation execution completed"), .ok succeeded⟩],
    (), _, rfl, .call (.call (.refl _)), .call (.call (.call (.call (.refl _))))⟩

/-- An Operation is Succeeded only if its body returned, and Failed only if the claim check
or the body raised an error of the operators that leaves no remote work uncertain. -/
theorem outcome_attested (shared : Shared outside initial history world running) (aloof : Aloof outside)
    (start : initial.WellFormed Resource.schema) {actor : Nat}
    (reserved : client.Reserved (localTrace actor history) operation) {stored : Resource}
    (member : stored ∈ world.objects) (uid : stored.uid = operation.uid) :
    (value stored.status "phase" = .str "Succeeded" →
        ∃ result, client.Ended (localTrace actor history) operation (.ok result)) ∧
      (value stored.status "phase" = .str "Failed" → ∃ reason message, reason ≠ "RemoteWorkUncertain" ∧
        client.Ended (localTrace actor history) operation (.error (.operator reason message))) := by
  rcases phase_attested shared aloof start reserved member uid with running | ⟨outcome, ended, phase⟩
  · rw [running]
    constructor <;> intro other <;> simp at other
  · rw [phase]
    constructor
    · intro succeeded
      obtain ⟨result, rfl⟩ := completion_succeeded (Json.str.inj succeeded)
      exact ⟨result, ended⟩
    · intro failed
      obtain ⟨reason, message, certain, rfl⟩ := completion_failed (Json.str.inj failed)
      exact ⟨reason, message, certain, ended⟩

theorem outcome_attested_sampled : ∃ history running result, Sample.Runs history Sample.released [running] ∧
    Sample.client.Ended (localTrace 0 history) Sample.operation (.ok result) := by
  obtain ⟨history, running, runs, reserved⟩ := Sample.finished
  have stored : Sample.succeeded ∈ Sample.released.objects := List.mem_cons_of_mem _ List.mem_cons_self
  obtain ⟨attested, _⟩ := outcome_attested runs aloof_nobody Sample.store_formed reserved stored
    (show Sample.succeeded.uid = Sample.operation.uid from rfl)
  obtain ⟨result, ended⟩ := attested rfl
  exact ⟨history, running, result, runs, ended⟩

/-! ## Requests that only bodies issue -/

/-- A call that starts a process, or obtains a secret. -/
def Bold (request : Request) : Prop := ∃ call, request = .host call ∧ call.plain = false

theorem plain_meek {body : Task α} {request : Request} (plain : Plain body) (bold : Bold request) :
    ¬body.Pending events request := by
  intro pending
  obtain ⟨call, rfl, other⟩ := bold
  have allowed := Op.Confined.pending plain pending
  rw [isPlain_host, other] at allowed
  cases allowed

theorem acquire_meek {snapshot : Resource} {action operator : String} {requestedBy : Option Json} {request : Request}
    (bold : Bold request) : ¬(acquire snapshot action operator requestedBy).Pending events request := by
  intro pending
  have confined : (acquire snapshot action operator requestedBy).Confined fun request => ¬Bold request := by
    refine .check fun _ _ => .check fun _ _ => .bind (.perform ?_) fun id => .tryCatch (.perform ?_) fun failure => ?_
    · rintro ⟨call, same, other⟩
      cases same
      cases other
    · rintro ⟨call, same, _⟩
      cases same
    · split <;> exact .throw _
  exact Op.Confined.pending confined pending bold

theorem settle_meek {operation : Resource} {outcome : Except Exn α} {request : Request} (bold : Bold request) :
    ¬(settle operation outcome).Pending events request := by
  intro pending
  obtain ⟨call, rfl, _⟩ := bold
  exact (Op.Confined.pending (settle_reporting operation outcome) pending).1 call rfl

/-- A reservation starts processes and obtains secrets only inside its body. -/
theorem Client.pending {client : Client σ α} {state : σ} {request : Request} {events : Trace}
    (pending : Program.Pending (client.pass state) events request) (bold : Bold request) :
    ∃ acquired inner operation claimed,
      events = acquired ++ ⟨.get client.collection client.snapshot.name, .ok claimed⟩ :: inner ∧
      client.acquisition.Ran acquired operation ∧ checkClaim client.snapshot operation claimed = .ok () ∧
      Program.Pending (client.body claimed operation state) inner request := by
  rcases Action.pending_bind pending with early | ⟨acquired, later, operation, between, split, created, pending⟩
  · exact (acquire_meek bold (Action.pending_lift early)).elim
  obtain ⟨acquires, same⟩ := Action.ran_lift.mp created
  subst same
  rcases Action.pending_bind pending with inside | ⟨_, _, outcome, _, _, _, settles⟩
  · rcases Action.pending_bind (Action.pending_attempt inside) with reads | ⟨read, inner, claimed, _, split', reads, pending⟩
    · have same := (Op.pending_perform.mp (Action.pending_lift reads)).2
      obtain ⟨call, rfl, _⟩ := bold
      cases same
    · obtain ⟨found, same⟩ := Action.ran_lift.mp reads
      subst same
      obtain ⟨_, claims, pending⟩ := Action.pending_check pending
      rw [Op.ran_perform.mp found] at split'
      refine ⟨acquired, inner, operation, claimed, ?_, acquires, claims, pending⟩
      rw [split, split']
      rfl
  · exact (settle_meek bold (Action.pending_lift settles)).elim

/-- Then the program executes the body of the client. -/
theorem Client.executing {client : Client σ α} {state : σ} {request : Request} {events : Trace}
    (pending : Program.Pending (client.pass state) events request) (bold : Bold request) :
    ∃ operation claimed, client.Executing events operation claimed := by
  obtain ⟨acquired, inner, operation, claimed, split, acquires, claims, resume, steps⟩ := client.pending pending bold
  exact ⟨operation, claimed, [], acquired, inner, state, _, split, acquires, claims, steps⟩

theorem Client.Executing.after {client : Client σ α} {operation claimed : Resource} {events : Trace}
    (executing : client.Executing events operation claimed) (before : Trace) :
    client.Executing (before ++ events) operation claimed := by
  obtain ⟨prior, acquired, inner, state, rest, split, running⟩ := executing
  exact ⟨before ++ prior, acquired, inner, state, rest, by rw [split, List.append_assoc], running⟩

end Homelab.Custody
