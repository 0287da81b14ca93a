import Homelab.Operators.Configurations.Bodies
import Homelab.Operators.Configurations.Rehearsal

namespace Homelab.Configurations

open Json (Object)
open Api (Honest)
open Interaction (Op Action Contract Program)
open ServerOperation (targetRef verifyOperation operationProgress completeOperation completeAttempts
  reservation acquire settle checkClaim operationSpec)

/-! # What a Ready report rests on -/

/-- A patch that reports a Configuration as Ready. -/
def ReportsReady (resource : Resource) (status : Object) : Prop :=
  resource.kind = .configuration ∧ status.get? "phase" = some (.str "Ready")

/-- Everything is allowed but to report a Configuration as Ready. -/
def modest : Contract interface where
  guard _ request := ∀ resource status, request = .patchStatus resource status → ¬ReportsReady resource status
  rely := Honest

abbrev Modest {α : Type} (body : Task α) : Prop :=
  ∀ trace, body.Meets modest trace (fun _ _ => True) (fun _ _ => True)

namespace Modest

variable {α β : Type}

theorem bind {first : Task α} {next : α → Task β} (head : Modest first)
    (tail : ∀ value, Modest (next value)) : Modest (first >>= next) := by
  intro trace
  exact (head trace).bind (fun later value _ _ => tail value later) fun _ _ _ _ => True.intro

theorem check {result : Except Exn α} {next : α → Task β}
    (tail : ∀ value, result = .ok value → Modest (next value)) : Modest (liftM result >>= next) := by
  intro trace
  exact Op.Meets.check (fun value read => tail value read trace) fun _ => True.intro

theorem caught {body : Task α} {handler : Exn → Task α} (inside : Modest body)
    (handled : ∀ failure, Modest (handler failure)) : Modest (tryCatch body handler) := by
  intro trace
  apply Op.meets_tryCatch.mpr
  exact (inside trace).mono (fun _ _ _ _ => True.intro) fun later failure _ _ => handled failure later

theorem plain {body : Task α} (plain : Plain body) : Modest body := by
  intro trace
  have meets : body.Meets modest trace (fun _ _ => _) (fun _ _ => _) :=
    Op.Confined.meets plain fun later request _ reads resource status same => by
      rw [same] at reads
      cases reads
  exact meets.mono (fun _ _ _ _ => True.intro) fun _ _ _ _ => True.intro

theorem run (call : Host) : Modest (Host.run call) := by
  intro trace
  exact Op.meets_perform.mpr ⟨fun _ _ same => (nomatch same), fun _ _ => True.intro, fun _ _ => True.intro⟩

theorem patch {resource : Resource} {status : Object} (other : ¬ReportsReady resource status) :
    Modest (Api.patchStatus resource status) := by
  refine .check fun _ _ trace => Op.meets_perform.mpr ⟨?_, fun _ _ => True.intro, fun _ _ => True.intro⟩
  intro resource' status' same
  cases same
  exact other

/-- What is read has the kind that was asked for. -/
theorem get {kind : Kind} {name : String} {next : Resource → Task β}
    (tail : ∀ resource : Resource, resource.kind = kind → resource.name = name → Modest (next resource)) :
    Modest (Api.get kind name >>= next) := by
  intro trace
  refine Op.meets_bind.mpr (Op.meets_perform.mpr ⟨fun _ _ same => (nomatch same), ?_, fun _ _ => True.intro⟩)
  intro resource honest
  exact tail resource honest.1 honest.2 _

/-- A request of a modest body is no Ready report. -/
theorem unready {body : Task α} {events : Trace} {resource : Resource} {status : Object}
    (modest : Modest body) (pending : body.Pending events (.patchStatus resource status))
    (honest : ∀ event ∈ events, Honest event.request event.reply) : ¬ReportsReady resource status :=
  (modest []).allows pending honest resource status rfl

end Modest

/-! ## Everything before the last report is modest -/

theorem report_modest (env : Environment) (configuration : Resource) {phase : String} (reason revision : String)
    (resolved : Option Plan) (outputs : Object) (other : phase ≠ "Ready") :
    Modest (report env configuration phase reason revision resolved outputs) := by
  refine .bind (.plain (get_plain .configuration _)) fun latest => .check fun _ _ => ?_
  have verified : Modest (verification phase outputs) := by
    unfold verification
    rw [if_neg other]
    exact fun _ => True.intro
  refine .bind verified fun verified => .bind (.patch ?_) fun _ => fun _ => True.intro
  intro ⟨_, ready⟩
  simp [reportedStatus, other] at ready

theorem verifyOperation_kind {target : Resource} {trace : Trace} :
    (verifyOperation target).Meets modest trace (fun _ operation => operation.kind = .operation)
      (fun _ _ => True) := by
  refine Op.Meets.check (fun reference _ => Op.Meets.check (fun name _ => ?_) fun _ => True.intro)
    fun _ => True.intro
  refine Op.meets_bind.mpr (Op.meets_perform.mpr ⟨fun _ _ same => (nomatch same), ?_, fun _ _ => True.intro⟩)
  intro operation honest
  exact Op.Meets.check (fun _ _ => honest.1) fun _ => True.intro

theorem operationProgress_modest (target : Resource) (step : String) :
    Modest (operationProgress target step) := by
  intro trace
  refine verifyOperation_kind.bind (fun later operation _ kind => ?_) fun _ _ _ _ => True.intro
  have other : ¬ReportsReady operation [("currentStep", .str step)] := by
    intro ⟨configuration, _⟩
    rw [kind] at configuration
    cases configuration
  exact Op.Meets.bind (Modest.patch other later) (fun _ _ _ _ => True.intro) fun _ _ _ _ => True.intro

theorem completeAttempts_modest (operation : Resource) (phase message : String) (attempts : Nat) :
    Modest (completeAttempts operation phase message attempts) := by
  induction attempts with
  | zero => exact fun _ => True.intro
  | succ attempts ih =>
      refine .get fun latest kind _ => .check fun _ _ => .check fun _ _ => ?_
      have other : ¬ReportsReady latest (ServerOperation.completionFields phase message) := by
        intro ⟨configuration, _⟩
        rw [kind] at configuration
        cases configuration
      refine .bind (fun trace => Op.meets_attempt.mpr (Modest.patch other trace)) fun result => ?_
      split
      · exact fun _ => True.intro
      · exact ih
      · exact fun _ => True.intro

theorem publishTargetStatus_modest (target : Resource) (status : Object) :
    Modest (publishTargetStatus target status) := by
  refine .check fun collection named => ?_
  have kinds : collection ≠ .configuration := by
    unfold targetCollection at named
    split at named
    · rename_i known
      cases named
      cases known with
      | inl server => simp [server]
      | inr cluster => simp [cluster]
    · cases named
  generalize 5 = attempts
  induction attempts with
  | zero => exact fun _ => True.intro
  | succ attempts ih =>
      refine .get fun latest kind _ => .check fun _ _ => ?_
      have other : ¬ReportsReady latest status := fun ready => kinds (kind.symm.trans ready.1)
      refine .bind (fun trace => Op.meets_attempt.mpr (Modest.patch other trace)) fun result => ?_
      split
      · exact fun _ => True.intro
      · exact ih
      · exact fun _ => True.intro

theorem runCommand_modest (argv : List String) (files : List (String × Json)) (diagnostic : String)
    (timeout : Nat) : Modest (runCommand argv files diagnostic timeout) := by
  refine .bind (.run _) fun _ => .bind (.run _) fun _ => .bind (.run _) fun _ => ?_
  refine .bind (.caught (.run _) fun failure => ?_) fun returncode => .bind (.run _) fun _ => fun _ => True.intro
  refine .bind (.caught (.run _) fun other => ?_) fun _ => .bind (.run _) fun _ => fun _ => True.intro
  split <;> exact fun _ => True.intro

theorem runStage_modest (env : Environment) (resolved : Plan) (servers : List Resource)
    (source directory : String) (stage : Stage) : Modest (runStage env resolved servers source directory stage) := by
  cases stage with
  | command =>
      refine .bind (.plain (kubernetesEnvironment_plain env resolved directory)) fun _ => ?_
      refine .bind (.plain (verifyClaims_plain servers)) fun _ => ?_
      refine .bind (.plain (plan_plain env _ _ _)) fun current => .check fun _ _ => .check fun argv _ => ?_
      exact runCommand_modest argv [] _ _
  | guardBefore => exact runCommand_modest _ [] _ _
  | guardAfter => exact runCommand_modest _ [] _ _

theorem announceStage_modest (servers : List Resource) (stage : Stage) : Modest (announceStage servers stage) := by
  induction servers with
  | nil => exact fun _ => True.intro
  | cons server rest ih => exact .bind (operationProgress_modest server _) fun _ => ih

theorem runStages_modest (env : Environment) (resolved : Plan) (servers : List Resource)
    (source directory : String) (stages : List Stage) :
    Modest (runStages env resolved servers source directory stages) := by
  induction stages with
  | nil => exact fun _ => True.intro
  | cons stage rest ih =>
      refine .bind (.plain (verifyClaims_plain servers)) fun _ => ?_
      refine .bind (announceStage_modest servers stage) fun _ => ?_
      exact .bind (runStage_modest env resolved servers source directory stage) fun result => .check fun _ _ => ih

theorem publishObservations_modest (env : Environment) (resolved : Plan) (servers : List Resource)
    (directory : String) : Modest (publishObservations env resolved servers directory) := by
  refine .bind (.plain (readPublicResult_plain _)) fun result => ?_
  cases result with
  | none => exact fun _ => True.intro
  | some observations =>
      refine .bind (.plain (verifyClaims_plain servers)) fun _ => ?_
      refine .bind (.plain (plan_plain env _ _ _)) fun current => .check fun _ _ => ?_
      exact publishTargetStatus_modest _ observations

theorem observeFailure_modest (env : Environment) (resolved : Plan) (servers : List Resource)
    (directory : String) (failure : Exn) : Modest (observeFailure env resolved servers directory failure) := by
  unfold observeFailure
  split
  · exact publishObservations_modest env resolved servers directory
  · exact fun _ => True.intro

theorem executeClaimed_modest (env : Environment) (resolved : Plan) (source directory : String)
    (servers : List Resource) : Modest (executeClaimed env resolved source directory servers) := by
  refine .bind (.plain (plan_plain env _ _ _)) fun refreshed => .check fun _ _ => ?_
  refine .bind (report_modest env _ _ _ _ _ (by decide)) fun _ => ?_
  refine .bind (.caught (.caught (runStages_modest env resolved servers source directory stages)
    fun failure _ => True.intro) fun failure => ?_) fun _ => ?_
  · exact .bind (observeFailure_modest env resolved servers directory failure) fun _ _ => True.intro
  · refine .bind (.plain (verifyClaims_plain servers)) fun _ => ?_
    refine .bind (.plain (plan_plain env _ _ _)) fun current => .check fun _ _ => ?_
    refine .bind (.plain (readPublicResult_plain _)) fun result => ?_
    refine .bind (publishObservations_modest env resolved servers directory) fun _ => ?_
    refine .bind (.plain (readPublicResult_plain _)) fun targetStatus => ?_
    cases targetStatus with
    | none => exact fun _ => True.intro
    | some published => exact .bind (publishTargetStatus_modest _ published) fun _ _ => True.intro

theorem acquire_modest (snapshot : Resource) (action operator : String) (requestedBy : Option Json) :
    Modest (acquire snapshot action operator requestedBy) := by
  refine .check fun _ _ => .check fun _ _ => .bind (.run _) fun id => .caught ?_ fun failure => ?_
  · intro trace
    exact Op.meets_perform.mpr ⟨fun _ _ same => (nomatch same), fun _ _ => True.intro, fun _ _ => True.intro⟩
  · split <;> exact fun _ => True.intro

theorem settle_modest {α : Type} (operation : Resource) (outcome : Except Exn α) :
    Modest (settle operation outcome) := by
  have completes (phase message : String) : Modest (completeOperation operation phase message) :=
    completeAttempts_modest operation phase message 5
  unfold settle
  split
  · exact .bind (completes _ _) fun _ _ => True.intro
  · split
    · exact .bind (completes _ _) fun _ _ => True.intro
    · exact .bind (completes _ _) fun _ _ => True.intro
  · exact .bind (completes _ _) fun _ _ => True.intro

/-- A modest body stays modest under a reservation. -/
theorem reservation_modest {α : Type} {snapshot : Resource} {action operator : String}
    {requestedBy : Option Json} {collection : Kind} {body : Resource → Resource → Task α}
    (inside : ∀ claimed operation, Modest (body claimed operation)) :
    Modest (Action.within () (reservation snapshot action operator requestedBy collection
      fun claimed operation => (body claimed operation : Pass Unit α))) := by
  intro trace
  apply Action.meets_within.mpr
  refine Action.Meets.run (acquire_modest snapshot action operator requestedBy trace)
    (fun later operation _ _ => ?_) fun _ _ _ _ => True.intro
  apply Action.meets_bind.mpr
  apply Action.meets_attempt.mpr
  have settles (later : Trace) (outcome : Except Exn α) :
      (liftM (settle operation outcome) : Pass Unit α).Meets modest later () (fun _ _ _ => True)
        fun _ _ _ => True :=
    Action.meets_lift.mpr (settle_modest operation outcome later)
  refine Action.Meets.run (Modest.plain (get_plain collection snapshot.name) later)
    (fun _ claimed _ _ => Action.Meets.check (fun _ _ => ?_) fun failure => settles _ (.error failure))
    fun _ failure _ _ => settles _ (.error failure)
  apply Action.meets_lift.mpr
  exact (inside claimed operation _).mono (fun _ value _ _ => settles _ (.ok value))
    fun _ failure _ _ => settles _ (.error failure)

theorem withClaims_modest {α : Type} (configuration : Resource) (servers : List Resource)
    {body : List Resource → Task α} (inside : ∀ claimed, Modest (body claimed)) :
    Modest (withClaims configuration servers body) := by
  induction servers generalizing body with
  | nil => exact inside []
  | cons server rest ih =>
      refine .bind (.plain (refreshClaimTarget_plain server)) fun latest => ?_
      refine .bind (reservation_modest fun claimed _ => ih fun others => inside (claimed :: others))
        fun outcome => ?_
      obtain ⟨failure | result, _⟩ := outcome
      · exact fun _ => True.intro
      · exact fun _ => True.intro

/-! ## Complete runs, read back -/

variable {events : Trace}

/-- What was read found this server owned by this Operation, running and with
the server as its target. -/
def FoundOwned (events : Trace) (server operation : Resource) : Prop :=
  ∃ latest stored, ⟨.get .server server.name, .ok latest⟩ ∈ events ∧ latest.uid = server.uid ∧
    Json.Same (value latest.status "operationRef") operation.reference ∧
    ⟨.get .operation operation.name, .ok stored⟩ ∈ events ∧ stored.uid = operation.uid ∧
    value stored.status "phase" = .str "Running" ∧
    Json.Same (value stored.spec "targetRef") (targetRef latest)

theorem verifyOperation_ran {target operation : Resource} (ran : (verifyOperation target).Ran events operation) :
    ∃ reference name, value target.status "operationRef" = .obj reference ∧
      value reference "name" = .str name ∧ ⟨.get .operation name, .ok operation⟩ ∈ events ∧
      value reference "uid" = .str operation.uid ∧ value operation.status "phase" = .str "Running" ∧
      Json.Same (value operation.spec "targetRef") (targetRef target) := by
  obtain ⟨reference, isReference, ran⟩ := Op.ran_check.mp ran
  obtain ⟨name, isName, ran⟩ := Op.ran_check.mp ran
  obtain ⟨earlier, later, stored, split, read, ran⟩ := Op.ran_bind.mp ran
  obtain ⟨_, checked, ran⟩ := Op.ran_check.mp ran
  obtain ⟨_, same⟩ := Op.ran_pure.mp ran
  subst same
  have facts := demand_ok checked
  simp only [Bool.and_eq_true, decide_eq_true_eq] at facts
  refine ⟨reference, name, ?_, ?_, ?_, facts.1.1, facts.1.2, facts.2⟩
  · exact jsonObject_ok isReference
  · exact jsonString_ok isName
  · rw [split, Op.ran_perform.mp read]
    simp

/-- A server as it was claimed, and the Operation that was created for it. -/
structure Claim where
  server : Resource
  operation : Resource

/-- The claim reads as owned by its Operation. -/
def Claim.Owns (claim : Claim) : Prop :=
  Json.Same (value claim.server.status "operationRef") claim.operation.reference

theorem verifyClaims_ran {claims : List Claim} (ran : (verifyClaims (claims.map Claim.server)).Ran events ())
    (owns : ∀ claim ∈ claims, claim.Owns) :
    ∀ claim ∈ claims, FoundOwned events claim.server claim.operation := by
  induction claims generalizing events with
  | nil => simp
  | cons claim rest ih =>
      obtain ⟨first, others, latest, split, read, ran⟩ := Op.ran_bind.mp ran
      obtain ⟨_, checked, ran⟩ := Op.ran_check.mp ran
      obtain ⟨second, third, stored, inner, verified, ran⟩ := Op.ran_bind.mp ran
      have facts := demand_ok checked
      simp only [Bool.and_eq_true, decide_eq_true_eq] at facts
      obtain ⟨reference, name, isReference, isName, found, uid, running, target⟩ := verifyOperation_ran verified
      have owned : Json.Same (value latest.status "operationRef") claim.operation.reference :=
        facts.2.trans (owns claim (by simp))
      have sameReference : Json.Same (.obj reference) claim.operation.reference := isReference ▸ owned
      have named : Object.get? reference "name" = some (.str claim.operation.name) := sameReference.get?_str rfl
      have identified : Object.get? reference "uid" = some (.str claim.operation.uid) := sameReference.get?_str rfl
      simp only [value, named, identified, Option.getD_some, Json.str.injEq] at isName uid
      subst isName
      have current : FoundOwned events claim.server claim.operation := by
        refine ⟨latest, stored, ?_, facts.1.1, owned, ?_, uid.symm, running, target⟩
        · rw [split, Op.ran_perform.mp read]
          simp
        · rw [split, inner]
          simp [found]
      intro other member
      cases List.mem_cons.mp member with
      | inl same =>
          rw [same]
          exact current
      | inr later =>
          obtain ⟨latest', stored', readLatest, same, names, readStored, rest⟩ :=
            ih ran (fun claim listed => owns claim (by simp [listed])) other later
          refine ⟨latest', stored', ?_, same, names, ?_, rest⟩
          · rw [split, inner]
            simp [readLatest]
          · rw [split, inner]
            simp [readStored]

/-! ### Claims -/

theorem acquire_ran {snapshot operation : Resource} {action operator : String} {requestedBy : Option Json}
    (ran : (acquire snapshot action operator requestedBy).Ran events operation) :
    ∃ name, ⟨.create .operation name (operationSpec snapshot action operator requestedBy), .ok operation⟩ ∈
      events := by
  obtain ⟨_, _, ran⟩ := Op.ran_check.mp ran
  obtain ⟨_, _, ran⟩ := Op.ran_check.mp ran
  obtain ⟨first, later, id, split, _, ran⟩ := Op.ran_bind.mp ran
  have created := Op.ran_rethrow ran fun failure rest => by
    split <;> exact Op.ran_throw
  refine ⟨"operation-" ++ id, ?_⟩
  rw [split, Op.ran_perform.mp created]
  simp

theorem settle_ran {α : Type} {operation : Resource} {outcome : Except Exn α} {result : α}
    (ran : (settle operation outcome).Ran events result) : outcome = .ok result := by
  unfold settle at ran
  split at ran
  · obtain ⟨_, _, _, _, _, ran⟩ := Op.ran_bind.mp ran
    rw [(Op.ran_pure.mp ran).2]
  · split at ran
    · obtain ⟨_, _, _, _, _, ran⟩ := Op.ran_bind.mp ran
      exact (Op.ran_throw ran).elim
    · obtain ⟨_, _, _, _, _, ran⟩ := Op.ran_bind.mp ran
      exact (Op.ran_throw ran).elim
  · obtain ⟨_, _, _, _, _, ran⟩ := Op.ran_bind.mp ran
    exact (Op.ran_throw ran).elim

/-- `server` was claimed by creating an Operation that has it as its target. -/
def Claimed (events : Trace) (server : Resource) (claim : Claim) : Prop :=
  claim.Owns ∧ claim.server.name = server.name ∧ claim.server.uid = server.uid ∧
    ∃ name spec target, ⟨.create .operation name spec, .ok claim.operation⟩ ∈ events ∧
      value spec "targetRef" = targetRef target ∧ target.kind = .server ∧ target.name = server.name ∧
      target.uid = server.uid

theorem Claimed.mono {server : Resource} {claim : Claim} {later : Trace} (claimed : Claimed events server claim)
    (extended : events ⊆ later) : Claimed later server claim := by
  obtain ⟨owns, named, uid, name, spec, target, created, rest⟩ := claimed
  exact ⟨owns, named, uid, name, spec, target, extended created, rest⟩

theorem reservation_ran {α : Type} {snapshot : Resource} {action operator : String}
    {requestedBy : Option Json} {collection : Kind} {body : Resource → Resource → Task α} {result : α}
    (ran : (Action.within () (reservation snapshot action operator requestedBy collection
      fun claimed operation => (body claimed operation : Pass Unit α))).Ran events (.ok result, ())) :
    ∃ before inner after, ∃ claim : Claim, events = before ++ inner ++ after ∧
      (body claim.server claim.operation).Ran inner result ∧ claim.Owns ∧ claim.server.uid = snapshot.uid ∧
      ⟨.get collection snapshot.name, .ok claim.server⟩ ∈ before ∧
      ∃ name, ⟨.create .operation name (operationSpec snapshot action operator requestedBy),
        .ok claim.operation⟩ ∈ before := by
  obtain ⟨first, rest, operation, _, split, acquired, ran⟩ := Action.ran_bind.mp (Action.ran_within.mp ran)
  obtain ⟨acquired, _⟩ := Action.ran_lift.mp acquired
  obtain ⟨middle, last, outcome, _, inner, attempted, ran⟩ := Action.ran_bind.mp ran
  obtain ⟨settled, _⟩ := Action.ran_lift.mp ran
  obtain rfl := settle_ran settled
  obtain ⟨reading, working, claimed, _, parts, read, ran⟩ := Action.ran_bind.mp (Action.ran_attempt.mp attempted)
  obtain ⟨read, _⟩ := Action.ran_lift.mp read
  obtain ⟨_, checked, ran⟩ := Action.ran_check.mp ran
  obtain ⟨worked, _⟩ := Action.ran_lift.mp ran
  have facts := demand_ok checked
  simp only [Bool.and_eq_true, decide_eq_true_eq] at facts
  obtain ⟨name, created⟩ := acquire_ran acquired
  refine ⟨first ++ reading, working, last, ⟨claimed, operation⟩, ?_, worked, facts.2, facts.1, ?_, name, ?_⟩
  · rw [split, inner, parts]
    simp
  · rw [Op.ran_perform.mp read]
    simp
  · simp [created]

theorem unchangedInputs_uid {server latest : Resource} (unchanged : unchangedInputs server latest = .ok true) :
    latest.uid = server.uid := by
  unfold unchangedInputs at unchanged
  split at unchanged
  · cases unchanged
  · obtain ⟨current, readCurrent, unchanged⟩ := bind_ok unchanged
    obtain ⟨planned, readPlanned, unchanged⟩ := bind_ok unchanged
    have same := Except.ok.inj unchanged
    simp only [Bool.and_eq_true, decide_eq_true_eq] at same
    have uid {resource : Resource} {inputs : Object} (read : memberInputs resource = .ok inputs) :
        inputs.get? "uid" = some (.str resource.uid) := by
      obtain ⟨_, _, read⟩ := bind_ok read
      obtain ⟨_, _, read⟩ := bind_ok read
      obtain ⟨_, _, read⟩ := bind_ok read
      cases read
      rfl
    have found := same.1.get?_str (uid readPlanned)
    rw [uid readCurrent] at found
    simpa using found

theorem refreshClaimTarget_ran {server latest : Resource} (ran : (refreshClaimTarget server).Ran events latest) :
    ⟨.get .server server.name, .ok latest⟩ ∈ events ∧ latest.uid = server.uid := by
  obtain ⟨earlier, later, read, split, reading, ran⟩ := Op.ran_bind.mp ran
  obtain ⟨unchanged, compared, ran⟩ := Op.ran_check.mp ran
  obtain ⟨_, checked, ran⟩ := Op.ran_check.mp ran
  obtain ⟨_, same⟩ := Op.ran_pure.mp ran
  subst same
  rw [demand_ok checked] at compared
  refine ⟨?_, unchangedInputs_uid compared⟩
  rw [split, Op.ran_perform.mp reading]
  simp

theorem withClaims_ran {α : Type} {configuration : Resource} {servers : List Resource}
    {body : List Resource → Task α} {result : α} (ran : (withClaims configuration servers body).Ran events result)
    (honest : ∀ event ∈ events, Honest event.request event.reply) :
    ∃ before inner after, ∃ claims : List Claim, events = before ++ inner ++ after ∧
      (body (claims.map Claim.server)).Ran inner result ∧ List.Forall₂ (Claimed before) servers claims := by
  induction servers generalizing body events with
  | nil => exact ⟨[], events, [], [], by simp, ran, .nil⟩
  | cons server rest ih =>
      obtain ⟨refreshing, reserved, latest, split, refreshed, ran⟩ := Op.ran_bind.mp ran
      obtain ⟨reserving, returning, outcome, inner, reservation, ran⟩ := Op.ran_bind.mp ran
      obtain ⟨readLatest, latestUid⟩ := refreshClaimTarget_ran refreshed
      obtain ⟨failure | value, ⟨⟩⟩ := outcome
      · exact (Op.ran_throw ran).elim
      · obtain ⟨silent, same⟩ := Op.ran_pure.mp ran
        subst same silent
        obtain ⟨before, working, after, claim, parts, worked, owns, uid, readClaimed, name, created⟩ :=
          reservation_ran reservation
        have whole : ∀ event ∈ refreshing ++ (before ++ working ++ after), Honest event.request event.reply := by
          intro event member
          refine honest event ?_
          rw [split, inner, parts, List.append_nil]
          exact member
        obtain ⟨latestKind, latestName⟩ : latest.kind = .server ∧ latest.name = server.name :=
          whole ⟨.get .server server.name, .ok latest⟩ (List.mem_append_left _ readLatest)
        obtain ⟨_, claimName⟩ : claim.server.kind = .server ∧ claim.server.name = latest.name :=
          whole ⟨.get .server latest.name, .ok claim.server⟩
            (List.mem_append_right _ (List.mem_append_left _ (List.mem_append_left _ readClaimed)))
        obtain ⟨earlier, innermost, later, claims, pieces, finished, others⟩ :=
          ih worked fun event member =>
            whole event (List.mem_append_right _ (List.mem_append_left _ (List.mem_append_right _ member)))
        refine ⟨refreshing ++ before ++ earlier, innermost, later ++ after, claim :: claims, ?_, finished, ?_⟩
        · rw [split, inner, parts, pieces]
          simp
        · refine .cons ⟨owns, claimName.trans latestName, uid.trans latestUid, name,
            operationSpec latest "configure" "configurations" (some (requestedBy configuration)), latest, ?_,
            rfl, latestKind, latestName, latestUid⟩ (others.imp fun _ _ claimed =>
              claimed.mono (List.subset_append_right _ _))
          exact List.mem_append_left _ (List.mem_append_right _ created)

/-! ### Stages -/

/-- `plan`, recomputed from the API, returned the resolved revision. -/
def Resolves (env : Environment) (resolved : Plan) (events : Trace) : Prop :=
  ∃ current, (replan env resolved.configuration).Ran events current ∧
    current.inputRevision = resolved.inputRevision

/-- A command was run and ended with status 0. -/
def Succeeds (argv : List String) (diagnostic : String) (events : Trace) : Prop :=
  ∃ stdout, (runCommand argv [] diagnostic commandTimeout).Ran events { returncode := 0, stdout }

/-- The events of a verified execution, in order. -/
structure Timeline where
  start : Trace := []
  claimed : Trace := []
  planned : Trace
  reported : Trace
  checkedFirst : Trace
  announcedFirst : Trace
  guardedFirst : Trace
  prepared : Trace
  checkedCommand : Trace
  replanned : Trace
  commanded : Trace
  checkedAfter : Trace
  announcedAfter : Trace
  guardedAfter : Trace
  checkedLast : Trace
  final : Trace
  result : Trace
  rest : Trace

def Timeline.trace (timeline : Timeline) : Trace :=
  timeline.start ++ timeline.claimed ++ timeline.planned ++ timeline.reported ++
    timeline.checkedFirst ++ timeline.announcedFirst ++ timeline.guardedFirst ++
    timeline.prepared ++ timeline.checkedCommand ++ timeline.replanned ++ timeline.commanded ++
    timeline.checkedAfter ++ timeline.announcedAfter ++ timeline.guardedAfter ++
    timeline.checkedLast ++ timeline.final ++ timeline.result ++ timeline.rest

/-- All claims were found held. -/
abbrev AllOwned (claims : List Claim) (events : Trace) : Prop :=
  ∀ claim ∈ claims, FoundOwned events claim.server claim.operation

/-- What the parts of a verified execution found and did; `published` is the
public object it read at its end. -/
structure Verifies (env : Environment) (resolved : Plan) (source directory : String) (claims : List Claim)
    (published : Option Object) (timeline : Timeline) : Prop where
  planned : Resolves env resolved timeline.planned
  ownedFirst : AllOwned claims timeline.checkedFirst
  guardedFirst : Succeeds (guardArgv source directory) (directory ++ "/guard.log") timeline.guardedFirst
  ownedCommand : AllOwned claims timeline.checkedCommand
  replanned : Resolves env resolved timeline.replanned
  commanded : ∃ argv, commandArgv resolved.configuration = .ok argv ∧
    Succeeds argv (directory ++ "/command.log") timeline.commanded
  ownedAfter : AllOwned claims timeline.checkedAfter
  guardedAfter : Succeeds (guardArgv source directory) (directory ++ "/guard.log") timeline.guardedAfter
  ownedLast : AllOwned claims timeline.checkedLast
  final : Resolves env resolved timeline.final
  result : (readPublicResult (directory ++ "/result.json")).Ran timeline.result published

variable {env : Environment} {resolved : Plan} {source directory : String} {claims : List Claim}

theorem requireCompletedCommand_ok {result : Completed} (passed : requireCompletedCommand result = .ok ()) :
    result.returncode = 0 := by
  obtain ⟨_, _, exact'⟩ := bind_ok passed
  simpa using demand_ok exact'

/-- A guard is verified before, announced, and ends with status 0. -/
theorem guard_ran {stage : Stage} {rest : List Stage} (guards : stage ≠ .command)
    (owns : ∀ claim ∈ claims, claim.Owns)
    (ran : (runStages env resolved (claims.map Claim.server) source directory (stage :: rest)).Ran events ()) :
    ∃ checked announced guarded later, events = checked ++ announced ++ guarded ++ later ∧
      AllOwned claims checked ∧
      Succeeds (guardArgv source directory) (directory ++ "/guard.log") guarded ∧
      (runStages env resolved (claims.map Claim.server) source directory rest).Ran later () := by
  obtain ⟨checked, _, _, split, verified, ran⟩ := Op.ran_bind.mp ran
  obtain ⟨announced, _, _, inner, _, ran⟩ := Op.ran_bind.mp ran
  obtain ⟨guarded, later, result, parts, worked, ran⟩ := Op.ran_bind.mp ran
  obtain ⟨_, completed, ran⟩ := Op.ran_check.mp ran
  have status := requireCompletedCommand_ok completed
  refine ⟨checked, announced, guarded, later, ?_, verifyClaims_ran verified owns, ⟨result.stdout, ?_⟩, ran⟩
  · rw [split, inner, parts]
    simp
  · obtain ⟨returncode, stdout⟩ := result
    simp only at status
    subst status
    cases stage with
    | command => exact (guards rfl).elim
    | guardBefore => exact worked
    | guardAfter => exact worked

theorem command_ran {rest : List Stage} (owns : ∀ claim ∈ claims, claim.Owns)
    (ran : (runStages env resolved (claims.map Claim.server) source directory (.command :: rest)).Ran events ()) :
    ∃ prepared checked replanned commanded later, events = prepared ++ checked ++ replanned ++ commanded ++ later ∧
      AllOwned claims checked ∧ Resolves env resolved replanned ∧
      (∃ argv, commandArgv resolved.configuration = .ok argv ∧
        Succeeds argv (directory ++ "/command.log") commanded) ∧
      (runStages env resolved (claims.map Claim.server) source directory rest).Ran later () := by
  obtain ⟨first, _, _, split, _, ran⟩ := Op.ran_bind.mp ran
  obtain ⟨announced, _, _, inner, _, ran⟩ := Op.ran_bind.mp ran
  obtain ⟨stage, later, result, parts, worked, ran⟩ := Op.ran_bind.mp ran
  obtain ⟨_, completed, ran⟩ := Op.ran_check.mp ran
  have status := requireCompletedCommand_ok completed
  obtain ⟨context, _, _, pieces, _, worked⟩ := Op.ran_bind.mp worked
  obtain ⟨checked, _, _, more, verified, worked⟩ := Op.ran_bind.mp worked
  obtain ⟨replanned, commanded, current, last, resolves, worked⟩ := Op.ran_bind.mp worked
  obtain ⟨_, same, worked⟩ := Op.ran_check.mp worked
  obtain ⟨argv, valid, worked⟩ := Op.ran_check.mp worked
  refine ⟨first ++ announced ++ context, checked, replanned, commanded, later, ?_,
    verifyClaims_ran verified owns, ⟨current, resolves, by simpa using demand_ok same⟩,
    ⟨argv, valid, result.stdout, ?_⟩, ran⟩
  · rw [split, inner, parts, pieces, more, last]
    simp
  · obtain ⟨returncode, stdout⟩ := result
    simp only at status
    subst status
    exact worked

theorem executeClaimed_ran {outputs : Object} (owns : ∀ claim ∈ claims, claim.Owns)
    (ran : (executeClaimed env resolved source directory (claims.map Claim.server)).Ran events outputs) :
    ∃ timeline published, timeline.trace = events ∧ timeline.start = [] ∧ timeline.claimed = [] ∧
      Verifies env resolved source directory claims published timeline ∧ outputs = published.getD [] := by
  obtain ⟨planned, _, refreshed, split, resolves, ran⟩ := Op.ran_bind.mp ran
  obtain ⟨_, same, ran⟩ := Op.ran_check.mp ran
  obtain ⟨reported, _, _, inner, _, ran⟩ := Op.ran_bind.mp ran
  obtain ⟨stages, _, _, parts, commands, ran⟩ := Op.ran_bind.mp ran
  obtain ⟨checkedLast, _, _, pieces, verified, ran⟩ := Op.ran_bind.mp ran
  obtain ⟨final, _, current, more, resolvesAgain, ran⟩ := Op.ran_bind.mp ran
  obtain ⟨_, sameAgain, ran⟩ := Op.ran_check.mp ran
  obtain ⟨result, _, published, last, read, ran⟩ := Op.ran_bind.mp ran
  obtain ⟨observed, _, _, rest, _, ran⟩ := Op.ran_bind.mp ran
  obtain ⟨reading, remaining, targetStatus, tail, _, ran⟩ := Op.ran_bind.mp ran
  have ended : outputs = published.getD [] := by
    cases targetStatus with
    | none => exact (Op.ran_pure.mp ran).2.symm
    | some _ =>
        obtain ⟨_, _, _, _, _, ran⟩ := Op.ran_bind.mp ran
        exact (Op.ran_pure.mp ran).2.symm
  have commands := Op.ran_rethrow commands fun failure later raised => by
    obtain ⟨_, _, _, _, _, raised⟩ := Op.ran_bind.mp raised
    exact Op.ran_throw raised
  have commands := Op.ran_rethrow commands fun failure later => Op.ran_throw
  obtain ⟨checkedFirst, announcedFirst, guardedFirst, _, stagesSplit, ownedFirst, guardFirst, commands⟩ :=
    guard_ran (by decide) owns commands
  obtain ⟨prepared, checkedCommand, replanned, commanded, _, stagesInner, ownedCommand, resolvesCommand,
    command, commands⟩ := command_ran owns commands
  obtain ⟨checkedAfter, announcedAfter, guardedAfter, later, stagesLast, ownedAfter, guardAfter, commands⟩ :=
    guard_ran (by decide) owns commands
  obtain ⟨silent, _⟩ := Op.ran_pure.mp commands
  let timeline : Timeline := {
    planned, reported, checkedFirst, announcedFirst, guardedFirst, prepared, checkedCommand, replanned
    commanded, checkedAfter, announcedAfter, guardedAfter, checkedLast, final, result
    rest := observed ++ reading ++ remaining }
  refine ⟨timeline, published, ?_, rfl, rfl, ?_, ended⟩
  · rw [split, inner, parts, pieces, more, last, rest, tail, stagesSplit, stagesInner, stagesLast, silent]
    simp [Timeline.trace, timeline]
  · exact {
      planned := ⟨refreshed, resolves, by simpa using demand_ok same⟩
      ownedFirst
      guardedFirst := guardFirst
      ownedCommand
      replanned := resolvesCommand
      commanded := command
      ownedAfter
      guardedAfter := guardAfter
      ownedLast := verifyClaims_ran verified owns
      final := ⟨current, resolvesAgain, by simpa using demand_ok sameAgain⟩
      result := read }

/-! ### The last report -/

theorem report_pending {configuration latest : Resource} {reason revision : String} {planned : Option Plan}
    {outputs status : Object}
    (pending : (report env configuration "Ready" reason revision planned outputs).Pending events
      (.patchStatus latest status)) (honest : ∀ event ∈ events, Honest event.request event.reply) :
    latest.kind = .configuration ∧ latest.name = configuration.name ∧ latest.uid = configuration.uid ∧
      latest.metadata.generation = configuration.metadata.generation ∧
      ∃ now, status = reportedStatus configuration "Ready" reason revision planned
        [("lastVerifiedAt", .str now), ("outputs", .obj outputs)] (env.lookupOr "BUILD_URL" "") := by
  cases pending.bind with
  | inl reading => cases (Op.pending_perform.mp reading).2
  | inr rest =>
      obtain ⟨reading, _, found, split, read, pending⟩ := rest
      obtain ⟨_, checked, pending⟩ := pending.check
      have facts := demand_ok checked
      simp only [Bool.and_eq_true, decide_eq_true_eq] at facts
      cases pending.bind with
      | inl verifying =>
          cases verifying.bind with
          | inl asking => cases (Op.pending_perform.mp asking).2
          | inr ended =>
              obtain ⟨_, _, _, _, _, _, steps⟩ := ended
              cases steps
      | inr rest =>
          obtain ⟨_, _, verified, _, verification, pending⟩ := rest
          obtain ⟨_, _, now, _, _, stamped⟩ := Op.ran_bind.mp verification
          obtain ⟨_, same⟩ := Op.ran_pure.mp stamped
          cases pending.bind with
          | inl patching =>
              obtain ⟨_, _, patching⟩ := patching.check
              obtain ⟨_, request⟩ := Op.pending_perform.mp patching
              cases request
              obtain ⟨kind, named⟩ : latest.kind = .configuration ∧ latest.name = configuration.name :=
                honest ⟨.get .configuration configuration.name, .ok latest⟩ (by
                  rw [split, Op.ran_perform.mp read]
                  simp)
              exact ⟨kind, named, facts.1.1, facts.1.2, now, by rw [same]⟩
          | inr ended =>
              obtain ⟨_, _, _, _, _, _, steps⟩ := ended
              cases steps

/-- A Ready report ends a verified execution. -/
theorem execute_ready {latest : Resource} {status : Object}
    (pending : (execute env resolved source directory).Pending events (.patchStatus latest status))
    (honest : ∀ event ∈ events, Honest event.request event.reply) (ready : ReportsReady latest status) :
    ∃ timeline claims published now, timeline.trace = events ∧
      List.Forall₂ (Claimed timeline.claimed) resolved.servers claims ∧
      Verifies env resolved source directory claims published timeline ∧
      latest.name = resolved.configuration.name ∧ latest.uid = resolved.configuration.uid ∧
      latest.metadata.generation = resolved.configuration.metadata.generation ∧
      status = reportedStatus resolved.configuration "Ready" "CommandVerified" resolved.inputRevision
        (some resolved) [("lastVerifiedAt", .str now), ("outputs", .obj (published.getD []))]
        (env.lookupOr "BUILD_URL" "") := by
  cases pending.bind with
  | inl checking => exact ((Modest.plain (checkout_plain _ _ _ _)).unready checking honest ready).elim
  | inr rest =>
  obtain ⟨checkedOut, afterCheckout, _, split, _, pending⟩ := rest
  have honestCheckout : ∀ event ∈ afterCheckout, Honest event.request event.reply :=
    fun event member => honest event (by simp [split, member])
  cases pending.bind with
  | inl preparing =>
      exact ((Modest.plain (prepareExecution_plain _ _ _)).unready preparing honestCheckout ready).elim
  | inr rest =>
  obtain ⟨prepared, afterPreparation, _, inner, _, pending⟩ := rest
  have honestPreparation : ∀ event ∈ afterPreparation, Honest event.request event.reply :=
    fun event member => honestCheckout event (by simp [inner, member])
  cases pending.bind with
  | inl claiming =>
      exact ((withClaims_modest _ _ fun _ => executeClaimed_modest _ _ _ _ _).unready claiming
        honestPreparation ready).elim
  | inr rest =>
  obtain ⟨claiming, reporting, outputs, last, claimed, pending⟩ := rest
  obtain ⟨before, working, after, claims, parts, worked, owned⟩ :=
    withClaims_ran claimed fun event member => honestPreparation event (by simp [last, member])
  have owns : ∀ claim ∈ claims, claim.Owns := by
    intro claim listed
    obtain ⟨_, _, related⟩ := mem_right owned listed
    exact related.1
  obtain ⟨timeline, published, whole, noStart, noClaims, verifies, ended⟩ := executeClaimed_ran owns worked
  obtain ⟨_, named, uid, generation, now, reported⟩ :=
    report_pending pending fun event member => honestPreparation event (by simp [last, member])
  refine ⟨{ timeline with
    start := checkedOut ++ prepared, claimed := before, rest := timeline.rest ++ after ++ reporting },
    claims, published, now, ?_, owned, ?_, named, uid, generation, by rw [reported, ended]⟩
  · rw [split, inner, last, parts, ← whole]
    simp [Timeline.trace, noStart, noClaims]
  · exact { verifies with }

theorem reportedStatus_revision {configuration : Resource} {phase reason revision buildURL : String}
    {planned : Option Plan} {verified : Object} {reported : String}
    (fields : ∀ entry ∈ verified, entry.1 ≠ "inputRevision")
    (found : (reportedStatus configuration phase reason revision planned verified buildURL).get? "inputRevision" =
      some (.str reported)) : reported = revision := by
  by_cases empty : revision = ""
  · have absent : "inputRevision" ∉
        (reportedStatus configuration phase reason revision planned verified buildURL).map Prod.fst := by
      have others : "inputRevision" ∉ verified.map Prod.fst := by
        intro listed
        obtain ⟨entry, member, same⟩ := List.mem_map.mp listed
        exact fields entry member same
      have build : "inputRevision" ∉ (whenPresent "buildURL" buildURL).map Prod.fst := by
        unfold whenPresent
        split <;> simp
      cases planned <;> simp only [reportedStatus, whenPresent, empty, List.map_append, List.mem_append] <;>
        simp_all [whenPresent]
    rw [Object.get?_eq_none absent] at found
    cases found
  · simpa [reportedStatus, whenPresent, empty] using found.symm

/-- A Configuration is only reported as Ready by an execution that held its
claims and replanned to the same revision around every stage. -/
theorem ready_only_when_verified {outside : Store → Store → Prop} {initial world : Store}
    {history : List (Interaction.Moment interface Store)}
    {running : List (Program interface (Except Exn Unit))}
    (execution : Interaction.Execution (Api.surroundings outside)
      (· = execute env resolved source directory) initial history world running)
    {actor : Nat} {latest : Resource} {status : Object} {resume}
    (pending : running[actor]? = some (.call (.patchStatus latest status) resume))
    (ready : ReportsReady latest status) :
    ∃ timeline claims published, timeline.trace = Interaction.localTrace actor history ∧
      List.Forall₂ (Claimed timeline.claimed) resolved.servers claims ∧
      Verifies env resolved source directory claims published timeline ∧
      latest.name = resolved.configuration.name ∧ latest.uid = resolved.configuration.uid ∧
      ∀ revision, status.get? "inputRevision" = some (.str revision) → revision = resolved.inputRevision := by
  obtain ⟨program, same, steps⟩ := execution.local_steps pending
  subst same
  have honest : ∀ event ∈ Interaction.localTrace actor history, Honest event.request event.reply :=
    @Interaction.Execution.replies _ _ _ _ _ _ _ _ _ modest execution (fun _ _ _ _ served => served.honest) actor
  obtain ⟨timeline, claims, published, now, whole, claimed, verifies, named, uid, _, reported⟩ :=
    execute_ready ⟨resume, steps⟩ honest ready
  refine ⟨timeline, claims, published, whole, claimed, verifies, named, uid, fun revision found => ?_⟩
  rw [reported] at found
  exact reportedStatus_revision (by simp) found

theorem rehearsed_ready_verified :
    ∃ (history : List (Interaction.Moment interface Store)) (latest : Resource) (status : Object),
      ReportsReady latest status ∧ ∃ timeline claims published,
      timeline.trace = Interaction.localTrace 0 history ∧
      List.Forall₂ (Claimed timeline.claimed) (Rehearsal.resolved []).servers claims ∧
      Verifies (Provisioning.Rehearsal.executor "group") (Rehearsal.resolved []) "/homelab" "/tmp/configuration"
        claims published timeline := by
  have facts : (Rehearsal.reporting [] (.obj [])).isSome = true := by decide +kernel
  obtain ⟨play, found⟩ := Option.isSome_iff_exists.mp facts
  obtain ⟨request, resume, pending, stopped⟩ := Rehearsal.stops_proceed found
  cases request with
  | patchStatus latest status =>
      simp only [Rehearsal.reportsReady, Bool.and_eq_true, decide_eq_true_eq] at stopped
      obtain ⟨timeline, claims, published, whole, claimed, verifies, _⟩ :=
        @ready_only_when_verified _ _ _ _ Provisioning.alone _ _ _ _ (Rehearsal.plays_executing found) _ _ _ _ pending stopped
      exact ⟨play.history, latest, status, stopped, timeline, claims, published, whole, claimed, verifies⟩
  | _ => cases stopped

end Homelab.Configurations
