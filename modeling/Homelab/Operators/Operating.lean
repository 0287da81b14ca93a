import Homelab.Operators.Configurations.Claimed
import Homelab.Operators.Configurations.Rehearsal
import Homelab.Operators.SystemOperations.Warranted

namespace Homelab

open Json (Object)
open Api (Seen Honest)
open Interaction (Execution Moment Program Op localTrace)
open Configurations.Rehearsal (act)
open Custody (Created Undecided Discreet Aloof Holding Shared Respectful custody)

/-! # All operators at work -/

/-- Any number of jobs on one store, in any order of their steps. -/
abbrev Operating (outside : Store → Store → Prop) (initial : Store) (history : List (Moment interface Store))
    (world : Store) (running : List (Program interface (Except Exn Unit))) : Prop :=
  Execution (Custody.discreet outside) IsJob initial history world running

variable {outside : Store → Store → Prop} {initial before world : Store}
  {history past later : List (Moment interface Store)} {running others : List (Program interface (Except Exn Unit))}

theorem Operating.shared (operating : Operating outside initial history world running) :
    Shared outside initial history world running :=
  operating.restart respectful_of_isJob

/-! ## Rehearsals -/

namespace Rehearsal

open Api (Play Turn)
open Configurations.Rehearsal (act proceed plays_proceed stops_proceed deployment host)

/-- No published result is read. -/
def unread : Request → Bool
  | .host (.readJson _) => false
  | _ => true

theorem discreet_of_unread {request : Request} (none : unread request = true) (reply : interface.Reply request) :
    Discreet request reply := by
  cases request with
  | host call =>
      cases call with
      | readJson => cases none
      | _ => exact True.intro
  | _ => exact True.intro

def unreadIn (history : List (Moment interface Store)) : Bool :=
  history.all fun moment =>
    match moment.happening with
    | .act _ event => unread event.request
    | _ => true

/-- What was played without reading a published result is an execution of discreet commands. -/
theorem discreetly {α : Type} {starts : Program interface α → Prop} {programs : List (Program interface α)}
    (execution : Execution (Api.surroundings outside) starts initial history world programs)
    (none : unreadIn history = true) : Execution (Custody.discreet outside) starts initial history world programs := by
  induction execution with
  | init => exact .init
  | act past pending served ih =>
      simp only [unreadIn, List.all_append, Bool.and_eq_true] at none
      obtain ⟨earlier, last⟩ := none
      refine .act (ih earlier) pending ⟨served, discreet_of_unread ?_ _⟩
      simpa using last
  | outside past changed ih =>
      simp only [unreadIn, List.all_append, Bool.and_eq_true] at none
      exact .outside (ih none.1) changed
  | start past allowed ih =>
      simp only [unreadIn, List.all_append, Bool.and_eq_true] at none
      exact .start (ih none.1) allowed

def arguments : SystemOperations.Arguments where
  operation := .reboot
  server := "node"
  uid := "node-uid"
  machineUid := "machine-uid"
  binaryUrl := none
  sha256 := none

def reviewed : Job := .systemOperation (Provisioning.Rehearsal.executor "group") arguments

def scheduled : Job := .configurations (Provisioning.Rehearsal.executor "group")

def smoothly (_ : Request) : Turn := .answer (host .null)

def spawns : Request → Bool
  | .host (.spawn ..) => true
  | _ => false

def reportsOutcome : Request → Bool
  | .patchStatus target status => target.kind = .operation && (status.get? "phase").isSome
  | _ => false

/-- The job goes on until such a request is pending. -/
def working (job : Job) (stop : Request → Bool) : Option (Play (Except Exn Unit)) :=
  proceed smoothly stop 80 (Play.begin (deployment []) [job.main])

variable {job : Job}

theorem working_plays {stop : Request → Bool} {play : Play (Except Exn Unit)} (found : working job stop = some play) :
    play.Plays (· = job.main) Custody.nobody (deployment []) :=
  plays_proceed (Play.plays_begin fun _ member => List.mem_singleton.mp member) found

theorem act_history {play next : Play (Except Exn Unit)} (found : act smoothly play = some next) :
    ∃ moment, next.history = play.history ++ [moment] := by
  unfold act at found
  split at found
  · obtain ⟨granted, _, same⟩ := Option.map_eq_some_iff.mp found
    subst same
    exact ⟨_, rfl⟩
  · unfold Play.turn at found
    split at found
    · obtain rfl := Option.some.inj found
      exact ⟨_, rfl⟩
    · cases found
  · cases found

theorem isJob_main (program : Program interface (Except Exn Unit)) (same : program = job.main) : IsJob program :=
  ⟨job, same⟩

/-- What the job leaves when it reports the outcome. -/
def completed : Option (Play (Except Exn Unit)) := (working reviewed reportsOutcome).bind (act smoothly)

theorem completed_plays {play : Play (Except Exn Unit)} (found : completed = some play) :
    play.Plays (· = reviewed.main) Custody.nobody (deployment []) := by
  obtain ⟨before, worked, acted⟩ := Option.bind_eq_some_iff.mp found
  exact Configurations.Rehearsal.plays_act (working_plays worked) acted

/-- The Operation has succeeded. -/
def succeeded (operation : Resource) : Bool :=
  operation.kind = .operation && operation.status.get? "phase" = some (.str "Succeeded")

theorem deployment_formed : (deployment []).WellFormed Resource.schema :=
  Provisioning.Rehearsal.stored_formed (by decide +kernel) (by decide +kernel) (by decide +kernel)
    (by decide +kernel)

end Rehearsal

/-- A job writes the owner of nothing, and reports on no Operation but one that it was
given itself, has read since, and has read as undecided. -/
theorem job_reports_own (operating : Operating outside initial history world running) {actor : Nat}
    {target : Resource} {status : Object} {resume}
    (pending : running[actor]? = some (.call (.patchStatus target status) resume)) :
    "operationRef" ∉ status.map Prod.fst ∧
      (target.kind = .operation → "phase" ∈ status.map Prod.fst → Undecided target.status ∧
        Seen (localTrace actor history) target ∧ Created (localTrace actor history) target.uid) := by
  have guarded : (custody []).guard (localTrace actor history) (.patchStatus target status) :=
    Execution.guarded operating.shared Shared.honest (fun _ respectful => respectful) pending
  obtain ⟨unnamed, reports⟩ := guarded target status rfl
  refine ⟨unnamed, fun kind named => ?_⟩
  obtain ⟨events, whole, undecided, seen, created⟩ := reports kind named
  rw [List.nil_append] at whole
  rw [whole]
  exact ⟨undecided, seen, created⟩

theorem job_reports_own_rehearsed : ∃ (play : Api.Play (Except Exn Unit)) (target : Resource) (status : Object),
    target.kind = .operation ∧ "phase" ∈ status.map Prod.fst ∧ Undecided target.status ∧
      Created (localTrace 0 play.history) target.uid := by
  have facts : ((Rehearsal.working Rehearsal.reviewed Rehearsal.reportsOutcome).any fun play => Rehearsal.unreadIn play.history) = true := by
    decide +kernel
  obtain ⟨play, found, none⟩ := (Option.any_eq_true _ _).mp facts
  obtain ⟨request, resume, pending, stopped⟩ := Configurations.Rehearsal.stops_proceed found
  have operating := (Rehearsal.discreetly (Rehearsal.working_plays found) none).restart Rehearsal.isJob_main
  cases request with
  | patchStatus target status =>
      simp only [Rehearsal.reportsOutcome, Bool.and_eq_true, decide_eq_true_eq] at stopped
      have named := Json.Object.isSome_get?.mp stopped.2
      obtain ⟨_, reports⟩ := job_reports_own operating pending
      obtain ⟨undecided, _, created⟩ := reports stopped.1 named
      exact ⟨play, target, status, stopped.1, named, undecided, created⟩
  | _ => cases stopped

/-- An outcome that any job reported, or an administrator decided, is never written again. -/
theorem outcome_final (operating : Operating outside initial (past ++ later) world running)
    (earlier : Operating outside initial past before others) (aloof : Aloof outside)
    (start : initial.WellFormed Resource.schema) {old : Resource} (stored : old ∈ before.objects)
    (kind : old.kind = .operation) (decided : ¬Undecided old.status) :
    ∃ new ∈ world.objects, old.uid = new.uid ∧ old.name = new.name ∧
      value new.status "phase" = value old.status "phase" := by
  obtain ⟨new, member, uid, key, phase⟩ :=
    operating.shared.outcome_kept earlier.shared aloof start stored kind decided
  exact ⟨new, member, uid, congrArg Prod.snd key, phase⟩

theorem outcome_final_rehearsed : ∃ (play : Api.Play (Except Exn Unit)) (old new : Resource),
    Rehearsal.completed = some play ∧ old ∈ play.world.objects ∧ Rehearsal.succeeded old = true ∧
      new ∈ play.world.objects ∧ value new.status "phase" = value old.status "phase" := by
  have facts : (Rehearsal.completed.any fun play =>
      Rehearsal.unreadIn play.history && play.world.objects.any Rehearsal.succeeded) = true := by
    decide +kernel
  obtain ⟨play, found, checks⟩ := (Option.any_eq_true _ _).mp facts
  obtain ⟨none, present⟩ := (Bool.and_eq_true _ _).mp checks
  obtain ⟨old, stored, succeeds⟩ := List.any_eq_true.mp present
  have succeeded := succeeds
  simp only [Rehearsal.succeeded, Bool.and_eq_true, decide_eq_true_eq] at succeeded
  have operating := (Rehearsal.discreetly (Rehearsal.completed_plays found) none).restart Rehearsal.isJob_main
  -- another job is started
  have later := operating.start ⟨Rehearsal.scheduled, rfl⟩
  have decided : ¬Undecided old.status := by
    simp [Undecided, value, succeeded.2]
  obtain ⟨new, member, _, _, phase⟩ :=
    outcome_final later operating Custody.aloof_nobody Rehearsal.deployment_formed stored succeeded.1 decided
  exact ⟨play, old, new, found, stored, succeeds, member, phase⟩

/-- A target that has an owner changes hands only after the outcome of that owner
was reported. -/
theorem owner_outlasts (operating : Operating outside initial (past ++ later) world running)
    (earlier : Operating outside initial past before others) (aloof : Aloof outside)
    (start : initial.WellFormed Resource.schema) {old new : Resource} (stored : old ∈ before.objects)
    (owned : holds old.status "operationRef" = true) (present : new ∈ world.objects) (uid : old.uid = new.uid) :
    value new.status "operationRef" = value old.status "operationRef" ∨
      ∃ closed ∈ world.objects, closed.kind = .operation ∧ Api.terminalPhase closed.status = true ∧
        value old.status "operationRef" = closed.reference :=
  operating.shared.owner_kept_while_open earlier.shared aloof start stored owned present uid

theorem owner_outlasts_rehearsed : ∃ (play : Api.Play (Except Exn Unit)) (old new closed : Resource),
    Rehearsal.working Rehearsal.reviewed Rehearsal.reportsOutcome = some play ∧ old ∈ play.world.objects ∧ new.uid = old.uid ∧
      value new.status "operationRef" ≠ value old.status "operationRef" ∧
      Api.terminalPhase closed.status = true ∧ value old.status "operationRef" = closed.reference := by
  have facts : ((Rehearsal.working Rehearsal.reviewed Rehearsal.reportsOutcome).any fun play =>
      (act Rehearsal.smoothly play).any fun next => Rehearsal.unreadIn next.history && Rehearsal.unreadIn play.history &&
        play.world.objects.any fun old => holds old.status "operationRef" && next.world.objects.any fun new =>
          new.uid = old.uid && value new.status "operationRef" ≠ value old.status "operationRef") = true := by
    decide +kernel
  obtain ⟨play, found, facts⟩ := (Option.any_eq_true _ _).mp facts
  obtain ⟨next, acted, checks⟩ := (Option.any_eq_true _ _).mp facts
  simp only [Bool.and_eq_true, List.any_eq_true, decide_eq_true_eq] at checks
  obtain ⟨⟨nothing, none⟩, old, stored, owned, new, present, same, moved⟩ := checks
  have earlier := (Rehearsal.discreetly (Rehearsal.working_plays found) none).restart Rehearsal.isJob_main
  have played := Configurations.Rehearsal.plays_act (Rehearsal.working_plays found) acted
  have operating := (Rehearsal.discreetly played nothing).restart Rehearsal.isJob_main
  obtain ⟨moment, whole⟩ := Rehearsal.act_history acted
  rw [whole] at operating
  rcases owner_outlasts operating earlier Custody.aloof_nobody Rehearsal.deployment_formed stored owned present
    same.symm with kept | ⟨closed, _, _, terminal, reference⟩
  · exact absurd kept moved
  · exact ⟨play, old, new, closed, found, stored, same, moved, terminal, reference⟩

namespace SystemOperations

/-- The play of a reviewed operation is started only on the reviewed Server of the
reviewed Machine, led to the address that the claimed Server has, and while a running
Operation of this job owns that Server and no other job works on it. -/
theorem play_runs_owned (operating : Operating outside initial history world running) (aloof : Aloof outside)
    (start : initial.WellFormed Resource.schema) {actor : Nat} {env : Environment} {arguments : Arguments}
    {argv : List String} {files : List (String × Json)}
    (pending : (main env arguments).Pending (localTrace actor history) (.host (.spawn argv files))) :
    ∃ operation, Warranted env arguments (localTrace actor history) argv files operation ∧
      Shared.Owned history world actor operation arguments.uid := by
  have honest := operating.shared.replies Shared.honest actor
  have guarded := (main_reviewed env arguments).allows pending fun event member => (honest event member).1
  obtain ⟨operation, warranted⟩ := guarded argv files rfl
  exact ⟨operation, warranted, operating.shared.owned aloof start warranted.holding⟩

theorem play_runs_owned_rehearsed : ∃ (play : Api.Play (Except Exn Unit)) (argv : List String)
    (files : List (String × Json)) (operation : Resource),
    Warranted (Provisioning.Rehearsal.executor "group") Rehearsal.arguments (localTrace 0 play.history) argv files
      operation ∧ Shared.Owned play.history play.world 0 operation "node-uid" := by
  have facts : ((Rehearsal.working Rehearsal.reviewed Rehearsal.spawns).any fun play => Rehearsal.unreadIn play.history) = true := by
    decide +kernel
  obtain ⟨play, found, none⟩ := (Option.any_eq_true _ _).mp facts
  obtain ⟨request, resume, next, stopped⟩ := Configurations.Rehearsal.stops_proceed found
  have plays := Rehearsal.discreetly (Rehearsal.working_plays found) none
  obtain ⟨program, same, steps⟩ := plays.local_steps next
  subst same
  cases request with
  | host call =>
      cases call with
      | spawn argv files =>
          have pending : (main (Provisioning.Rehearsal.executor "group") Rehearsal.arguments).Pending
              (localTrace 0 play.history) (.host (.spawn argv files)) := ⟨resume, steps⟩
          obtain ⟨operation, warranted, owned⟩ := play_runs_owned (plays.restart Rehearsal.isJob_main)
            Custody.aloof_nobody Rehearsal.deployment_formed pending
          exact ⟨play, argv, files, operation, warranted, owned⟩
      | _ => cases stopped
  | _ => cases stopped

end SystemOperations

namespace Configurations

/-- A guard or a command of a Configuration is started only while, for each Server of
the plan, a running Operation of this job owns it and no other job works on it. -/
theorem command_runs_owned (operating : Operating outside initial history world running) (aloof : Aloof outside)
    (start : initial.WellFormed Resource.schema) {actor : Nat} {env : Environment} {argv : List String}
    {files : List (String × Json)}
    (pending : (main env).Pending (localTrace actor history) (.host (.spawn argv files))) :
    ∃ configuration resolved claims,
      Underway env (localTrace actor history) (.host (.spawn argv files)) configuration resolved claims ∧
      List.Forall₂ (fun server claim => Shared.Owned history world actor claim.operation server.uid)
        resolved.servers claims := by
  obtain ⟨configuration, resolved, claims, underway⟩ := main_pending ⟨_, rfl, rfl⟩ pending
  refine ⟨configuration, resolved, claims, underway, underway.claimed.imp fun server claim claimed => ?_⟩
  obtain ⟨client, uid, executing⟩ := claimed
  have holding := executing.holding operating.shared aloof start
  rw [executing.uid, uid] at holding
  exact operating.shared.owned aloof start holding

theorem command_runs_owned_rehearsed : ∃ (play : Api.Play (Except Exn Unit)) (resolved : Plan) (claims : List Claim),
    List.Forall₂ (fun server claim => Shared.Owned play.history play.world 0 claim.operation server.uid)
      resolved.servers claims := by
  have facts : ((Rehearsal.working Rehearsal.scheduled Rehearsal.spawns).any fun play =>
      Rehearsal.unreadIn play.history) = true := by
    decide +kernel
  obtain ⟨play, found, none⟩ := (Option.any_eq_true _ _).mp facts
  obtain ⟨request, resume, next, stopped⟩ := Configurations.Rehearsal.stops_proceed found
  have plays := Homelab.Rehearsal.discreetly (Rehearsal.working_plays found) none
  obtain ⟨program, same, steps⟩ := plays.local_steps next
  subst same
  cases request with
  | host call =>
      cases call with
      | spawn argv files =>
          have whole : Rehearsal.scheduled.main.Pending (localTrace 0 play.history) (.host (.spawn argv files)) :=
            ⟨resume, steps⟩
          rcases whole.bind with pending | ⟨_, _, _, _, _, ended⟩
          · obtain ⟨_, resolved, claims, _, owned⟩ := command_runs_owned (plays.restart Rehearsal.isJob_main)
              Custody.aloof_nobody Rehearsal.deployment_formed pending
            exact ⟨play, resolved, claims, owned⟩
          · exact (Program.not_pending_done ended).elim
      | _ => cases stopped
  | _ => cases stopped

end Configurations

end Homelab
