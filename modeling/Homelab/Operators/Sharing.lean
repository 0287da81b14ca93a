import Homelab.Json.Overwrite
import Homelab.Operators.Configurations.Verified
import Homelab.Operators.Provisioning.Runs
import Homelab.Operators.Reservation
import Homelab.Operators.SshHostKeys.Reconcile
import Homelab.Operators.SystemOperations

namespace Json

theorem mem_names_update {fields updates : Object} {name : String} :
    name ∈ (fields.update updates).map Prod.fst ↔ name ∈ fields.map Prod.fst ∨ name ∈ updates.map Prod.fst := by
  unfold Object.update
  induction updates generalizing fields with
  | nil => simp
  | cons entry rest ih =>
      rw [List.foldl_cons, ih, Object.mem_names_set, List.map_cons, List.mem_cons]
      tauto

end Json

namespace Homelab

open Json (Object mem_names_update)
open Interaction (Op Action Contract Program)
open Provisioning (captureInventory_plain resolvedInventoryHosts_plain run_plain sshProbe_plain checkOutput_plain
  hostPrivateKey_quiet runPlay)
open ServerOperation (operationProgress verifyOperation reservation)

/-! # The operators on one store -/

namespace Custody

variable {α β σ : Type}

namespace Respects

theorem quiet {body : Task α} (quiet : Quiet body) : Respects body := by
  intro trace
  have meets : body.Meets (custody trace) trace (fun _ _ => _) (fun _ _ => _) :=
    Op.Confined.meets quiet fun later request _ reads resource status same => by
      rw [same] at reads
      cases reads
  exact meets.mono (fun _ _ _ _ => True.intro) fun _ _ _ _ => True.intro

theorem plain {body : Task α} (plain : Plain body) : Respects body := quiet plain.quiet

theorem pure (value : α) : Respects (Pure.pure value : Task α) := fun _ => True.intro

theorem throw (failure : Exn) : Respects (MonadExcept.throw failure : Task α) := fun _ => True.intro

theorem ofExcept (result : Except Exn α) : Respects (liftM result : Task α) :=
  fun _ => Op.meets_ofExcept.mpr ⟨fun _ _ => True.intro, fun _ _ => True.intro⟩

/-- What follows may use what the first part has found. -/
theorem found {first : Task α} {next : α → Task β} {known : α → Prop}
    (head : ∀ trace, first.Meets (custody trace) trace (fun _ value => known value) fun _ _ => True)
    (tail : ∀ value, known value → Respects (next value)) : Respects (first >>= next) := by
  intro trace
  exact (head trace).bind (fun _ value extended found => (tail value found).after extended) fun _ _ _ _ => True.intro

theorem within {body : Pass σ α} (respects : PassRespects body) (state : σ) :
    Respects (Action.within state body) :=
  fun trace => Action.meets_within.mpr
    ((respects trace state).mono (fun _ _ _ _ _ => True.intro) fun _ _ _ _ _ => True.intro)

end Respects

namespace PassRespects

theorem lift {body : Task α} (respects : Respects body) : PassRespects (liftM body : Pass σ α) :=
  fun trace _ => Action.meets_lift.mpr (respects trace)

theorem bind {first : Pass σ α} {next : α → Pass σ β} (head : PassRespects first)
    (tail : ∀ value, PassRespects (next value)) : PassRespects (first >>= next) := by
  intro trace state
  apply Action.meets_bind.mpr
  exact (head trace state).mono (fun later value state extended _ => (tail value).after extended state)
    fun _ _ _ _ _ => True.intro

theorem pure (value : α) : PassRespects (Pure.pure value : Pass σ α) := fun _ _ => True.intro

theorem throw (failure : Exn) : PassRespects (MonadExcept.throw failure : Pass σ α) := fun _ _ => True.intro

theorem check {result : Except Exn α} {next : α → Pass σ β}
    (tail : ∀ value, result = .ok value → PassRespects (next value)) : PassRespects (liftM result >>= next) :=
  fun trace state => Action.Meets.check (fun value read => tail value read trace state) fun _ => True.intro

theorem load {next : σ → Pass σ β} (tail : ∀ state, PassRespects (next state)) :
    PassRespects (Action.load >>= next) :=
  fun trace state => Action.meets_bind.mpr (Action.meets_load.mpr (tail state trace state))

theorem store (state : σ) : PassRespects (Action.store state : Pass σ PUnit) :=
  fun _ _ => Action.meets_store.mpr True.intro

theorem caught {body : Pass σ α} {handler : Exn → Pass σ α} (inside : PassRespects body)
    (handled : ∀ failure, PassRespects (handler failure)) : PassRespects (tryCatch body handler) := by
  intro trace state
  apply Action.meets_tryCatch.mpr
  exact (inside trace state).mono (fun _ _ _ _ _ => True.intro)
    fun later failure state extended _ => (handled failure).after extended state

end PassRespects

theorem operationProgress_respects (target : Resource) (step : String) : Respects (operationProgress target step) := by
  refine .bind (.plain (Configurations.verifyOperation_plain target)) fun operation => ?_
  exact .bind (.patch (by simp) fun _ => by simp) fun _ => .pure _

/-- Starting a process and waiting for it reports nothing. -/
theorem runAnsible_respects (argv : List String) (files : List (String × Json)) (diagnostic : String)
    (timeout : Nat) : Respects (runAnsible argv files diagnostic timeout) := by
  refine .bind (.run _) fun _ => .bind (.run _) fun _ => .bind (.run _) fun _ => ?_
  refine .bind (.caught (.run _) fun failure => ?_) fun returncode => .bind (.run _) fun _ => .pure _
  refine .bind (.caught (.run _) fun other => ?_) fun _ => .bind (.run _) fun _ => .throw _
  split
  · exact .pure _
  · exact .throw _

end Custody

open Custody (Respects PassRespects custody operationProgress_respects reservation_respects runAnsible_respects)

/-! ## Host keys -/

namespace SshHostKeys

variable {env : Environment}

theorem current_plain (snapshot : Resource) : Plain (current snapshot) :=
  .bind (get_plain .server _) fun _ => .check fun _ _ => .pure _

theorem observation_respects (snapshot : Resource) {fields : Object} (pin : Json) {additional : Object}
    (unnamed : "operationRef" ∉ additional.map Prod.fst) (silent : "phase" ∉ additional.map Prod.fst) :
    Respects (observation snapshot fields pin additional) := by
  have keys (key : String) (other : key ≠ "hostSSH") (absent : key ∉ additional.map Prod.fst) :
      key ∉ (Object.update [("hostSSH", .obj fields)] additional).map Prod.fst := by
    intro member
    rcases mem_names_update.mp member with first | later
    · exact other (List.mem_singleton.mp first)
    · exact absent later
  unfold observation
  generalize 5 = attempts
  induction attempts with
  | zero => exact .throw _
  | succ attempts ih =>
      refine .bind (.plain (current_plain snapshot)) fun latest => .check fun _ _ => ?_
      refine .bind (.attempt (.patch (keys _ (by decide) unnamed) fun _ => keys _ (by decide) silent)) fun result => ?_
      split
      · exact .pure _
      · exact ih
      · exact .throw _

theorem pinFirstContact_respects (server : Resource) (host : String) :
    Respects (pinFirstContact env server host) := by
  refine .bind (.run _) fun _ => .bind (.plain (sshProbe_plain env _ _ _ _)) fun known => .check fun key _ => ?_
  refine .bind (.plain (current_plain server)) fun latest => .check fun trust _ => .check fun _ _ => ?_
  exact .patch (by simp [pinFields]) fun _ => by simp [pinFields]

theorem writeKnown_respects (server : Resource) (path : String) (keys : List String) :
    Respects (writeKnown server path keys) :=
  .check fun _ _ => .bind (.run _) fun _ => .pure _

theorem runPlay_respects (server : Resource) (host : String) (known : KnownHosts) (play : String)
    (playVars : Object) : Respects (runPlay env server host known play playVars) := by
  refine .check fun _ _ => .check fun _ _ => .check fun _ _ => .bind (.run _) fun _ => .bind (.run _) fun _ => ?_
  exact .bind (runAnsible_respects _ _ _ _) fun result => .check fun _ _ => .ofExcept _

theorem installKey_respects (server : Resource) (host : String) (trust : Object) (known : KnownHosts) :
    Respects (installKey env server host trust known) := by
  refine .bind (.quiet (hostPrivateKey_quiet env server)) fun _ => .bind (.run _) fun _ => ?_
  refine .bind (.plain (checkOutput_plain _)) fun _ => .check fun _ _ => .check fun _ _ => .check fun _ _ => ?_
  refine .bind (.plain (current_plain server)) fun _ => .bind (operationProgress_respects server _) fun _ => ?_
  refine .bind (runPlay_respects server host known _ _) fun _ => ?_
  exact .bind (writeKnown_respects server _ _) fun _ => .plain (sshProbe_plain env _ _ _ _)

theorem installTrust_respects (server : Resource) (host : String) (known : KnownHosts) :
    Respects (installTrust env server host known) := by
  refine .bind (operationProgress_respects server _) fun _ => .check fun _ _ => .check fun _ _ => .check fun _ _ => ?_
  refine .bind (runPlay_respects server host known _ _) fun _ => ?_
  exact .bind (.plain (sshProbe_plain env _ _ _ _)) fun _ => .pure _

theorem installManaged_respects (server : Resource) (host : String) :
    Respects (installManaged env server host) := by
  refine .check fun trust _ => .check fun _ _ => .bind (writeKnown_respects server _ _) fun known => ?_
  refine .bind (.plain (sshProbe_plain env _ _ _ _)) fun known => .bind (.plain (current_plain server)) fun server => ?_
  refine .bind (installKey_respects server host trust known) fun known => ?_
  refine .bind (installTrust_respects server host known) fun _ => .check fun fields _ => .check fun _ _ => ?_
  exact .bind (observation_respects server _ (by simp) (by simp)) fun _ => .pure _

theorem enrol_respects (host : String) : PassRespects (enrol env host) := by
  refine .load fun server => .check fun _ _ => ?_
  split
  · exact .bind (.lift (pinFirstContact_respects server host)) fun pinned => .store pinned
  · exact .pure _

theorem reconcileOwned_respects (host : String) : PassRespects (reconcileOwned env host) := by
  refine .load fun server => .check fun waiting _ => ?_
  split
  · exact .pure _
  · refine .check fun desired _ => .check fun _ _ => .bind (enrol_respects host) fun _ => .load fun server => ?_
    exact .lift (installManaged_respects server host)

theorem reconcile_respects (host : String) : PassRespects (reconcile env host) := by
  refine .load fun snapshot => .caught (reservation_respects fun claimed _ => ?_) fun failure => ?_
  · exact .bind (.store claimed) fun _ => reconcileOwned_respects host
  · split
    · split
      · exact .pure _
      · exact .throw _
    · exact .throw _

theorem reconcileHost_respects (hostVars : Object) : PassRespects (reconcileHost env hostVars) := by
  refine .load fun server => ?_
  split
  · exact .pure _
  · exact .check fun _ _ => .check fun host _ => .check fun _ _ => .check fun _ _ => reconcile_respects host

theorem reportFailure_respects (server : Resource) (failure : Exn) : Respects (reportFailure server failure) := by
  refine .caught (.bind (observation_respects server _ (by simp) (by simp)) fun _ => .pure _) fun other => ?_
  split
  · exact .pure _
  · exact .throw _

theorem visit_respects (name : String) (hostVars : Object) : Respects (visit env name hostVars) := by
  refine .bind (.attempt (.plain (get_plain .server name))) fun fetched => ?_
  split
  · split
    · exact .pure _
    · exact .throw _
  · refine .bind (.within (reconcileHost_respects hostVars) _) fun outcome => ?_
    split
    · exact .pure _
    · split
      · exact .bind (reportFailure_respects _ _) fun _ => .pure _
      · exact .throw _

theorem visitAll_respects (hosts : List (String × Object)) (failed : Bool) :
    Respects (visitAll env hosts failed) := by
  induction hosts generalizing failed with
  | nil => exact .pure _
  | cons host rest ih => exact .bind (visit_respects _ _) fun result => ih _

theorem main_respects (env : Environment) : Respects (main env) := by
  refine .check fun name _ => .bind (.plain (captureInventory_plain name)) fun captured => ?_
  refine .check fun _ _ => .check fun _ _ => .check fun _ _ => .check fun hosts _ => ?_
  exact .bind (visitAll_respects hosts false) fun _ => .pure _

end SshHostKeys

/-! ## System operations -/

namespace SystemOperations

variable {env : Environment} {arguments : Arguments}

theorem selectedServer_plain : Plain (selectedServer arguments) :=
  .bind (get_plain .server _) fun _ => .check fun _ _ => .pure _

theorem prepareTarget_plain (group : String) : Plain (prepareTarget env group arguments) := by
  refine .bind (captureInventory_plain group) fun captured => ?_
  refine .bind (resolvedInventoryHosts_plain env _) fun hosts => ?_
  split
  · exact .throw _
  · refine .bind selectedServer_plain fun server => ?_
    refine .bind (RunnerTrust.prepare_plain env _ fun name => get_plain .server name) fun trusted => ?_
    refine .bind (run_plain (.writeText _ _) rfl) fun _ => .bind selectedServer_plain fun latest => ?_
    exact .check fun _ _ => .check fun _ _ => .pure _

theorem executeClaimed_respects (hostVars : Object) (claimed : Resource) :
    Respects (executeClaimed env arguments hostVars claimed) := by
  refine .check fun _ _ => .check fun _ _ => .bind (operationProgress_respects claimed _) fun _ => ?_
  exact .bind (runAnsible_respects _ _ _ _) fun result => .ofExcept _

theorem main_respects (env : Environment) (arguments : Arguments) : Respects (main env arguments) := by
  refine .check fun _ _ => .check fun group _ => .bind (.plain (prepareTarget_plain group)) fun hostVars => ?_
  refine .bind (.run _) fun _ => .bind (.run _) fun _ => .bind (.plain selectedServer_plain) fun snapshot => ?_
  refine .check fun _ _ => .check fun _ _ => ?_
  refine .bind (.within (reservation_respects fun claimed _ => .lift (executeClaimed_respects hostVars claimed)) _)
    fun outcome => ?_
  obtain ⟨failure | result, _⟩ := outcome
  · exact .throw _
  · exact .pure _

end SystemOperations

/-! ## Configurations -/

namespace Configurations

variable {env : Environment} {trace : Trace}

theorem report_respects (configuration : Resource) (phase reason revision : String) (resolved : Option Plan)
    (outputs : Object) : Respects (report env configuration phase reason revision resolved outputs) := by
  refine .get fun latest kind => .check fun _ _ => ?_
  have verified : ∀ trace, (verification phase outputs).Meets (custody trace) trace
      (fun _ verified => "operationRef" ∉ verified.map Prod.fst) fun _ _ => True := by
    intro trace
    unfold verification
    split
    · refine Op.meets_bind.mpr (Op.meets_perform.mpr ⟨fun _ _ same => (by cases same), ?_, fun _ _ => True.intro⟩)
      exact fun _ _ => Op.meets_pure.mpr (by simp)
    · exact Op.meets_pure.mpr (by simp)
  refine .found verified fun verified unnamed => ?_
  refine .bind (.patch ?_ fun other => ?_) fun _ => .pure _
  · cases resolved with
    | none => simpa [reportedStatus, whenPresent] using unnamed
    | some resolved => simpa [reportedStatus, whenPresent] using unnamed
  · rw [kind] at other
    cases other

/-- What a command published does not name an owner. -/
theorem readPublicResult_discreet (path : String) : (readPublicResult path).Meets (custody trace) trace
    (fun _ result => ∀ published, result = some published → "operationRef" ∉ published.map Prod.fst)
    fun _ _ => True := by
  apply Op.meets_bind.mpr
  refine Op.meets_perform.mpr ⟨fun _ _ same => (by cases same), fun state _ => ?_, fun _ _ => True.intro⟩
  cases state with
  | regular size =>
      refine Op.Meets.check (fun _ _ => ?_) fun _ => True.intro
      apply Op.meets_tryCatch.mpr
      apply Op.meets_bind.mpr
      refine Op.meets_perform.mpr ⟨fun _ _ same => (by cases same), fun decoded found => ?_, fun _ _ => True.intro⟩
      refine Op.Meets.check (fun fields isObject => ?_) fun _ => True.intro
      apply Op.meets_pure.mpr
      rintro published ⟨rfl⟩
      obtain rfl := jsonObject_ok isObject
      exact found.2
  | missing => exact Op.meets_pure.mpr fun _ none => by cases none
  | _ => exact True.intro

theorem publishTargetStatus_respects (target : Resource) {status : Object}
    (unnamed : "operationRef" ∉ status.map Prod.fst) : Respects (publishTargetStatus target status) := by
  refine .check fun collection named => ?_
  have kinds : collection ≠ .operation := by
    unfold targetCollection at named
    split at named
    · rename_i known
      cases named
      rcases known with server | cluster
      · simp [server]
      · simp [cluster]
    · cases named
  generalize 5 = attempts
  induction attempts with
  | zero => exact .throw _
  | succ attempts ih =>
      refine .get fun latest kind => .check fun _ _ => ?_
      refine .bind (.attempt (.patch unnamed fun other => absurd (kind.symm.trans other) kinds)) fun result => ?_
      split
      · exact .pure _
      · exact ih
      · exact .throw _

theorem runStage_respects (resolved : Plan) (servers : List Resource) (source directory : String) (stage : Stage) :
    Respects (runStage env resolved servers source directory stage) := by
  cases stage with
  | command =>
      refine .bind (.plain (kubernetesEnvironment_plain env resolved directory)) fun _ => ?_
      refine .bind (.plain (verifyClaims_plain servers)) fun _ => ?_
      refine .bind (.plain (plan_plain env _ _ _)) fun current => .check fun _ _ => .check fun argv _ => ?_
      exact runAnsible_respects argv [] _ _
  | guardBefore => exact runAnsible_respects _ [] _ _
  | guardAfter => exact runAnsible_respects _ [] _ _

theorem announceStage_respects (servers : List Resource) (stage : Stage) :
    Respects (announceStage servers stage) := by
  induction servers with
  | nil => exact .pure _
  | cons server rest ih => exact .bind (operationProgress_respects server _) fun _ => ih

theorem runStages_respects (resolved : Plan) (servers : List Resource) (source directory : String)
    (stages : List Stage) : Respects (runStages env resolved servers source directory stages) := by
  induction stages with
  | nil => exact .pure _
  | cons stage rest ih =>
      refine .bind (.plain (verifyClaims_plain servers)) fun _ => ?_
      refine .bind (announceStage_respects servers stage) fun _ => ?_
      exact .bind (runStage_respects resolved servers source directory stage) fun result => .check fun _ _ => ih

theorem publishObservations_respects (resolved : Plan) (servers : List Resource) (directory : String) :
    Respects (publishObservations env resolved servers directory) := by
  refine .found (fun _ => readPublicResult_discreet _) fun result discreet => ?_
  cases result with
  | none => exact .pure _
  | some observations =>
      refine .bind (.plain (verifyClaims_plain servers)) fun _ => ?_
      refine .bind (.plain (plan_plain env _ _ _)) fun current => .check fun _ _ => ?_
      exact publishTargetStatus_respects _ (discreet _ rfl)

theorem observeFailure_respects (resolved : Plan) (servers : List Resource) (directory : String) (failure : Exn) :
    Respects (observeFailure env resolved servers directory failure) := by
  unfold observeFailure
  split
  · exact publishObservations_respects resolved servers directory
  · exact .pure _

theorem executeClaimed_respects (resolved : Plan) (source directory : String) (servers : List Resource) :
    Respects (executeClaimed env resolved source directory servers) := by
  refine .bind (.plain (plan_plain env _ _ _)) fun refreshed => .check fun _ _ => ?_
  refine .bind (report_respects _ _ _ _ _ _) fun _ => ?_
  refine .bind (.caught (.caught (runStages_respects resolved servers source directory stages)
    fun failure => .throw _) fun failure => ?_) fun _ => ?_
  · exact .bind (observeFailure_respects resolved servers directory failure) fun _ => .throw _
  · refine .bind (.plain (verifyClaims_plain servers)) fun _ => ?_
    refine .bind (.plain (plan_plain env _ _ _)) fun current => .check fun _ _ => ?_
    refine .bind (.plain (readPublicResult_plain _)) fun result => ?_
    refine .bind (publishObservations_respects resolved servers directory) fun _ => ?_
    refine .found (fun _ => readPublicResult_discreet _) fun targetStatus discreet => ?_
    cases targetStatus with
    | none => exact .pure _
    | some published => exact .bind (publishTargetStatus_respects _ (discreet _ rfl)) fun _ => .pure _

theorem withClaims_respects {α : Type} (configuration : Resource) (servers : List Resource)
    {body : List Resource → Task α} (inside : ∀ claimed, Respects (body claimed)) :
    Respects (withClaims configuration servers body) := by
  induction servers generalizing body with
  | nil => exact inside []
  | cons server rest ih =>
      refine .bind (.plain (refreshClaimTarget_plain server)) fun latest => ?_
      refine .bind (.within (reservation_respects fun claimed _ =>
        .lift (ih fun others => inside (claimed :: others))) _) fun outcome => ?_
      obtain ⟨failure | result, _⟩ := outcome
      · exact .throw _
      · exact .pure _

theorem execute_respects (resolved : Plan) (source directory : String) :
    Respects (execute env resolved source directory) := by
  refine .bind (.plain (checkout_plain _ _ _ _)) fun _ => ?_
  refine .bind (.plain (prepareExecution_plain env resolved directory)) fun _ => ?_
  refine .bind (withClaims_respects _ _ fun servers => executeClaimed_respects resolved source directory servers)
    fun outputs => ?_
  exact report_respects _ _ _ _ _ _

theorem reconcile_respects (configuration : Resource) : Respects (reconcile env configuration) := by
  refine .bind (.attempt (.bind (.plain (plan_plain env _ _ _)) fun resolved => execute_respects resolved _ _))
    fun outcome => ?_
  split
  · exact .pure _
  · split
    · refine .bind (.attempt (report_respects _ _ _ _ _ _)) fun reported => ?_
      split
      · split
        · exact .pure _
        · exact .throw _
      · exact .pure _
    · exact .throw _

theorem reconcileAll_respects (configurations : List Resource) (failed : Bool) :
    Respects (reconcileAll env configurations failed) := by
  induction configurations generalizing failed with
  | nil => exact .pure _
  | cons configuration rest ih => exact .bind (reconcile_respects configuration) fun failedNow => ih _

theorem main_respects (env : Environment) : Respects (main env) := by
  refine .bind (.perform fun _ _ same => (by cases same)) fun listed => .check fun _ _ => .check fun ordered _ => ?_
  exact reconcileAll_respects ordered false

end Configurations

/-! ## Provisioning -/

namespace Provisioning

variable {trace later : Trace}

theorem Writes.unnamed {run : Resource} {move : Move} {fields : Object} (writes : Writes run move fields) :
    "operationRef" ∉ fields.map Prod.fst := by
  cases writes <;> simp [claimFields, checkpointFields, blockedFields]

/-- A pass works without Operations, and leaves them to their owners. -/
theorem permitted_custody {request : Request} (permitted : Permitted later request) :
    (custody trace).guard later request := by
  rintro resource status rfl
  obtain ⟨_, permitted⟩ := permitted
  split at permitted
  · rename_i run
    obtain ⟨move, writes, _⟩ := permitted
    exact ⟨writes.unnamed, fun operation => by rw [run] at operation; cases operation⟩
  · rename_i server
    obtain ⟨_, _, _, _, _, _, _, _, rfl⟩ := permitted
    exact ⟨by simp, fun operation => by rw [server] at operation; cases operation⟩
  · exact permitted.elim

theorem main_respects (env : Environment) (preflight : Bool) : Respects (main env preflight) := by
  intro trace
  exact Program.Meets.weaken (main_meets env preflight) (fun _ _ _ permitted => permitted_custody permitted)
    fun _ _ honest => honest.1

end Provisioning

/-! ## All of them -/

/-- A job of one of the operators. -/
inductive Job where
  | hostKeys (env : Environment)
  | systemOperation (env : Environment) (arguments : SystemOperations.Arguments)
  | configurations (env : Environment)
  | provisioning (env : Environment) (preflight : Bool)

def Job.main : Job → Task Unit
  | .hostKeys env => do
      let _ ← SshHostKeys.main env
      return ()
  | .systemOperation env arguments => SystemOperations.main env arguments
  | .configurations env => do
      let _ ← Configurations.main env
      return ()
  | .provisioning env preflight => do
      let _ ← Provisioning.main env preflight
      return ()

theorem Job.respects (job : Job) : Respects job.main := by
  cases job with
  | hostKeys env => exact .bind (SshHostKeys.main_respects env) fun _ => .pure _
  | systemOperation env arguments => exact SystemOperations.main_respects env arguments
  | configurations env => exact .bind (Configurations.main_respects env) fun _ => .pure _
  | provisioning env preflight => exact .bind (Provisioning.main_respects env preflight) fun _ => .pure _

/-- The program is a job of one of the operators. -/
def IsJob (program : Program interface (Except Exn Unit)) : Prop := ∃ job : Job, program = job.main

theorem respectful_of_isJob (program : Program interface (Except Exn Unit)) (job : IsJob program) :
    Custody.Respectful program := by
  obtain ⟨job, rfl⟩ := job
  exact Program.Meets.mono (job.respects []) fun _ _ _ _ => True.intro

end Homelab
