import Homelab.Operators.Sharing

namespace Homelab.Configurations

open Json (Object)
open Interaction (Op Action Program)
open Custody (Respects Client Bold plain_meek)

/-! # What is claimed while a command runs -/

variable {env : Environment} {resolved : Plan} {source directory : String} {servers : List Resource}
  {events : Trace} {request : Request}

/-- A body that starts no process. -/
abbrev Meek {α : Type} (body : Task α) : Prop := body.Confined fun request => ¬Bold request

theorem meek_plain {α : Type} {body : Task α} (plain : Plain body) : Meek body := by
  refine Op.Confined.weaken plain fun request allowed => ?_
  rintro ⟨call, rfl, other⟩
  rw [isPlain_host, other] at allowed
  cases allowed

theorem meek_patch (resource : Resource) (status : Object) : Meek (Api.patchStatus resource status) := by
  refine .check fun _ _ => .perform ?_
  rintro ⟨_, same, _⟩
  cases same

theorem report_meek (configuration : Resource) (phase reason revision : String) (planned : Option Plan)
    (outputs : Object) : Meek (report env configuration phase reason revision planned outputs) := by
  have verified : Meek (verification phase outputs) := by
    unfold verification
    split
    · exact .bind (meek_plain (Provisioning.run_plain .now rfl)) fun _ => .pure _
    · exact .pure _
  refine .bind (meek_plain (get_plain .configuration _)) fun latest => .check fun _ _ => .bind verified fun _ => ?_
  exact .bind (meek_patch latest _) fun _ => .pure _

/-! ## Nested claims -/

/-- What runs under the claim of one server: the claims of the others, and the body. -/
def claimant {α : Type} (configuration latest : Resource) (rest : List Resource) (body : List Resource → Task α)
    (respects : ∀ claimed, Respects (body claimed)) : Client Unit α where
  snapshot := latest
  action := "configure"
  operator := "configurations"
  requestedBy := some (requestedBy configuration)
  collection := .server
  body claimed _ := liftM (withClaims configuration rest fun others => body (claimed :: others))
  respects claimed _ := .lift (withClaims_respects configuration rest fun others => respects (claimed :: others))

/-- The server is claimed by an Operation that was created for it, whose body goes on. -/
def UnderClaim (α : Type) (events : Trace) (server : Resource) (claim : Claim) : Prop :=
  ∃ client : Client Unit α, client.snapshot.uid = server.uid ∧ client.Executing events claim.operation claim.server

theorem UnderClaim.after {α : Type} {server : Resource} {claim : Claim} (claimed : UnderClaim α events server claim)
    (before : Trace) : UnderClaim α (before ++ events) server claim := by
  obtain ⟨client, uid, executing⟩ := claimed
  exact ⟨client, uid, executing.after before⟩

/-- While the innermost body runs, every server is claimed. -/
theorem withClaims_pending {α : Type} {configuration : Resource} {body : List Resource → Task α}
    (respects : ∀ claimed, Respects (body claimed)) (bold : Bold request)
    (pending : (withClaims configuration servers body).Pending events request) :
    ∃ claims : List Claim, List.Forall₂ (UnderClaim α events) servers claims ∧
      ∃ prior inner, events = prior ++ inner ∧ (body (claims.map Claim.server)).Pending inner request := by
  induction servers generalizing body events with
  | nil => exact ⟨[], .nil, [], events, rfl, pending⟩
  | cons server rest ih =>
      rcases pending.bind with early | ⟨refreshed, later, latest, split, refreshes, pending⟩
      · exact (plain_meek (refreshClaimTarget_plain server) bold early).elim
      let client := claimant configuration latest rest body respects
      rcases pending.bind with inside | ⟨_, _, outcome, _, _, silent⟩
      · have claimed : Program.Pending (client.pass ()) later request := Action.pending_within inside
        obtain ⟨acquired, inner, operation, claimed, split', acquires, claims, deeper⟩ := client.pending claimed bold
        obtain ⟨others, covered, prior, innermost, split'', pending⟩ :=
          ih (fun others => respects (claimed :: others)) (Action.pending_lift deeper)
        have whole : events = (refreshed ++ (acquired ++ [⟨.get .server latest.name, .ok claimed⟩])) ++ inner := by
          rw [split, split', List.append_assoc, List.append_assoc]
          rfl
        refine ⟨⟨claimed, operation⟩ :: others, .cons ⟨client, (refreshClaimTarget_ran refreshes).2, ?_⟩ ?_, ?_⟩
        · obtain ⟨resume, steps⟩ := deeper
          exact ⟨refreshed, acquired, inner, (), _, by rw [split, split'], acquires, claims, steps⟩
        · rw [whole]
          exact covered.imp fun _ _ claimed => claimed.after _
        · refine ⟨(refreshed ++ (acquired ++ [⟨.get .server latest.name, .ok claimed⟩])) ++ prior, innermost, ?_, pending⟩
          rw [whole, split'']
          exact (List.append_assoc _ _ _).symm
      · obtain ⟨failure | result, _⟩ := outcome
        · exact (Program.not_pending_done silent).elim
        · exact (Program.not_pending_done silent).elim

/-! ## From the execution to the pass -/

/-- The processes that an execution starts. -/
def Reviewed (resolved : Plan) (source directory : String) (request : Request) : Prop :=
  ∀ argv files, request = .host (.spawn argv files) →
    argv = guardArgv source directory ∨ commandArgv resolved.configuration = .ok argv

theorem reviewed_meek {α : Type} {body : Task α} (meek : Meek body) : body.Confined (Reviewed resolved source directory) := by
  refine Op.Confined.weaken meek fun request allowed argv files same => ?_
  exact absurd ⟨_, same, rfl⟩ allowed

theorem runCommand_reviewed {argv : List String} (diagnostic : String) (timeout : Nat)
    (known : argv = guardArgv source directory ∨ commandArgv resolved.configuration = .ok argv) :
    (runCommand argv [] diagnostic timeout).Confined (Reviewed resolved source directory) := by
  have calls : ∀ call : Host, (∀ argv files, call ≠ .spawn argv files) →
      (Host.run call).Confined (Reviewed resolved source directory) := by
    intro call other
    refine .perform fun argv files same => ?_
    exact absurd (Request.host.inj same) (other argv files)
  have reads := calls (.readText diagnostic) (by simp)
  refine .bind (calls (.writeText diagnostic "") (by simp)) fun _ => .bind (.perform ?_) fun _ => ?_
  · intro argv' files same
    cases same
    exact known
  · refine .bind (calls .startReader (by simp)) fun _ => .bind (.tryCatch (calls (.wait timeout) (by simp)) ?_)
      fun returncode => .bind reads fun _ => .pure _
    intro failure
    refine .bind (.tryCatch (calls .killGroup (by simp)) fun other => ?_) fun _ =>
      .bind (calls .reap (by simp)) fun _ => .throw _
    split
    · exact .pure _
    · exact .throw _

theorem runStage_reviewed (stage : Stage) :
    (runStage env resolved servers source directory stage).Confined (Reviewed resolved source directory) := by
  cases stage with
  | command =>
      refine .bind (reviewed_meek (meek_plain (kubernetesEnvironment_plain env resolved directory))) fun _ => ?_
      refine .bind (reviewed_meek (meek_plain (verifyClaims_plain servers))) fun _ => ?_
      refine .bind (reviewed_meek (meek_plain (plan_plain env _ _ _))) fun current => .check fun _ _ => .check fun argv known => ?_
      exact runCommand_reviewed _ _ (.inr known)
  | guardBefore => exact runCommand_reviewed _ _ (.inl rfl)
  | guardAfter => exact runCommand_reviewed _ _ (.inl rfl)

theorem operationProgress_meek (target : Resource) (step : String) :
    Meek (ServerOperation.operationProgress target step) :=
  .bind (meek_plain (verifyOperation_plain target)) fun operation => .bind (meek_patch operation _) fun _ => .pure _

theorem announceStage_meek (servers : List Resource) (stage : Stage) : Meek (announceStage servers stage) := by
  induction servers with
  | nil => exact .pure _
  | cons server rest ih => exact .bind (operationProgress_meek server _) fun _ => ih

theorem runStages_reviewed (stages : List Stage) :
    (runStages env resolved servers source directory stages).Confined (Reviewed resolved source directory) := by
  induction stages with
  | nil => exact .pure _
  | cons stage rest ih =>
      refine .bind (reviewed_meek (meek_plain (verifyClaims_plain servers))) fun _ => ?_
      refine .bind (reviewed_meek (announceStage_meek servers stage)) fun _ => ?_
      exact .bind (runStage_reviewed stage) fun result => .check fun _ _ => ih

theorem publishTargetStatus_meek (target : Resource) (status : Object) : Meek (publishTargetStatus target status) := by
  refine .check fun collection _ => ?_
  generalize 5 = attempts
  induction attempts with
  | zero => exact .throw _
  | succ attempts ih =>
      refine .bind (meek_plain (get_plain collection _)) fun latest => .check fun _ _ => ?_
      refine .bind (.attempt (meek_patch latest status)) fun result => ?_
      split
      · exact .pure _
      · exact ih
      · exact .throw _

theorem publishObservations_meek : Meek (publishObservations env resolved servers directory) := by
  refine .bind (meek_plain (readPublicResult_plain _)) fun result => ?_
  cases result with
  | none => exact .pure _
  | some observations =>
      refine .bind (meek_plain (verifyClaims_plain servers)) fun _ => ?_
      refine .bind (meek_plain (plan_plain env _ _ _)) fun current => .check fun _ _ => ?_
      exact publishTargetStatus_meek _ observations

theorem executeClaimed_reviewed :
    (executeClaimed env resolved source directory servers).Confined (Reviewed resolved source directory) := by
  refine .bind (reviewed_meek (meek_plain (plan_plain env _ _ _))) fun refreshed => .check fun _ _ => ?_
  refine .bind (reviewed_meek (report_meek _ _ _ _ _ _)) fun _ => ?_
  refine .bind (.tryCatch (.tryCatch (runStages_reviewed stages) fun failure => .throw _) fun failure => ?_) fun _ => ?_
  · refine .bind (reviewed_meek ?_) fun _ => .throw _
    unfold observeFailure
    split
    · exact publishObservations_meek
    · exact .pure _
  · refine .bind (reviewed_meek (meek_plain (verifyClaims_plain servers))) fun _ => ?_
    refine .bind (reviewed_meek (meek_plain (plan_plain env _ _ _))) fun current => .check fun _ _ => ?_
    refine .bind (reviewed_meek (meek_plain (readPublicResult_plain _))) fun result => ?_
    refine .bind (reviewed_meek publishObservations_meek) fun _ => ?_
    refine .bind (reviewed_meek (meek_plain (readPublicResult_plain _))) fun targetStatus => ?_
    cases targetStatus with
    | none => exact .pure _
    | some published => exact .bind (reviewed_meek (publishTargetStatus_meek _ published)) fun _ => .pure _

/-- What a pass has done when it starts a process: it has planned a Configuration, and has
claimed every Server of the plan. -/
structure Underway (env : Environment) (events : Trace) (request : Request) (configuration : Resource)
    (resolved : Plan) (claims : List Claim) : Prop where
  claimed : List.Forall₂ (UnderClaim Object events) resolved.servers claims
  reviewed : Reviewed resolved env.checkout env.directory request
  planned : ∃ prior planned later, events = prior ++ (planned ++ later) ∧
    (replan env configuration).Ran planned resolved

theorem reconcile_pending {configuration : Resource} (bold : Bold request)
    (pending : (reconcile env configuration).Pending events request) :
    ∃ resolved claims, Underway env events request configuration resolved claims := by
  rcases pending.bind with inside | ⟨_, _, outcome, _, _, pending⟩
  · rcases (Op.pending_attempt inside).bind with early | ⟨planned, later, resolved, split, plans, pending⟩
    · exact (plain_meek (plan_plain env _ _ _) bold early).elim
    rcases pending.bind with early | ⟨first, rest, _, split', _, pending⟩
    · exact (plain_meek (checkout_plain _ _ _ _) bold early).elim
    rcases pending.bind with early | ⟨second, rest', _, split'', _, pending⟩
    · exact (plain_meek (prepareExecution_plain env resolved _) bold early).elim
    rcases pending.bind with inside | ⟨_, _, outputs, _, _, pending⟩
    · obtain ⟨claims, covered, prior, inner, _, running⟩ := withClaims_pending
        (fun servers => executeClaimed_respects resolved env.checkout env.directory servers) bold inside
      refine ⟨resolved, claims, ?_, executeClaimed_reviewed.pending running, [], planned, later, split, plans⟩
      rw [split, split', split'', ← List.append_assoc, ← List.append_assoc]
      exact covered.imp fun _ _ claimed => claimed.after _
    · exact (Op.Confined.pending (report_meek _ _ _ _ _ _) pending bold).elim
  · split at pending
    · exact (Program.not_pending_done pending).elim
    · split at pending
      · rcases pending.bind with early | ⟨_, _, reported, _, _, pending⟩
        · exact (Op.Confined.pending (report_meek _ _ _ _ _ _) (Op.pending_attempt early) bold).elim
        · split at pending
          · split at pending
            · exact (Program.not_pending_done pending).elim
            · exact (Program.not_pending_done pending).elim
          · exact (Program.not_pending_done pending).elim
      · exact (Program.not_pending_done pending).elim

theorem Underway.after {configuration : Resource} {claims : List Claim}
    (underway : Underway env events request configuration resolved claims) (before : Trace) :
    Underway env (before ++ events) request configuration resolved claims := by
  obtain ⟨claimed, reviewed, prior, planned, later, split, plans⟩ := underway
  refine ⟨claimed.imp fun _ _ claimed => claimed.after before, reviewed, before ++ prior, planned, later, ?_, plans⟩
  rw [split, List.append_assoc]

theorem reconcileAll_pending {configurations : List Resource} {failed : Bool} (bold : Bold request)
    (pending : (reconcileAll env configurations failed).Pending events request) :
    ∃ configuration ∈ configurations, ∃ resolved claims, Underway env events request configuration resolved claims := by
  induction configurations generalizing failed events with
  | nil => exact (Program.not_pending_done pending).elim
  | cons configuration rest ih =>
      rcases pending.bind with inside | ⟨first, later, failedNow, split, _, pending⟩
      · obtain ⟨resolved, claims, underway⟩ := reconcile_pending bold inside
        exact ⟨configuration, List.mem_cons_self, resolved, claims, underway⟩
      · obtain ⟨other, member, resolved, claims, underway⟩ := ih pending
        exact ⟨other, List.mem_cons_of_mem _ member, resolved, claims, split ▸ underway.after first⟩

theorem main_pending (bold : Bold request) (pending : (main env).Pending events request) :
    ∃ configuration resolved claims, Underway env events request configuration resolved claims := by
  rcases pending.bind with early | ⟨first, later, listed, split, _, pending⟩
  · obtain ⟨_, same⟩ := Op.pending_perform.mp early
    obtain ⟨call, host, _⟩ := bold
    rw [host] at same
    cases same
  · obtain ⟨_, _, pending⟩ := pending.check
    obtain ⟨ordered, _, pending⟩ := pending.check
    obtain ⟨configuration, _, resolved, claims, underway⟩ := reconcileAll_pending bold pending
    exact ⟨configuration, resolved, claims, split ▸ underway.after first⟩

end Homelab.Configurations
