import Homelab.Operators.Provisioning.Conduct
import Homelab.Operators.Provisioning.Rehearsal

namespace Homelab.Provisioning

open Json (Object)
open Api (Turn Play)
open Interaction (Op Action Contract Execution Moment Program worldAfter)

/-! # A preflight only looks -/

/-- Calls of a preflight: its private files, the inventory of the group, the
revision of the checkout, the read-only probe and messages. No other process is
started and no secret is fetched. -/
@[simp] def inspectsHost : Host → Bool
  | .writeText .. => true
  | .writeJson .. => true
  | .probe .. => true
  | .ansibleInventory .. => true
  | .subprocess argv => argv.head? == some "git"
  | .warn .. => true
  | _ => false

def inspects : Request → Bool
  | .get .. => true
  | .list .. => true
  | .patchStatus .. => false
  | .create .. => false
  | .host call => inspectsHost call

@[simp] theorem inspects_get (kind : Kind) (name : String) : inspects (.get kind name) = true := rfl

@[simp] theorem inspects_list (kind : Kind) : inspects (.list kind) = true := rfl

@[simp] theorem inspects_host (call : Host) : inspects (.host call) = inspectsHost call := rfl

/-- An answer to such a request leaves every object as it was. -/
theorem inspects_serve {before after : Store} {request : Request} {reply : interface.Reply request}
    (looks : inspects request = true) (served : Api.Serve before request reply after) : after = before := by
  cases served <;> first | rfl | cases looks

abbrev Looks {α : Type} (body : Task α) : Prop :=
  Op.Confined (fun request => inspects request = true) body

/-- A body of the pass that only looks, whatever happens to it. -/
abbrev LooksOn {α : Type} (body : Pass View α) (good : α → Prop) : Prop :=
  ∀ trace view, body.Meets (Contract.only fun request => inspects request = true) trace view
    (fun _ result _ => good result) (fun _ _ _ => True)

/-! ## Every part of a preflight -/

theorem bindRun_looks (server : Resource) : Looks (bindRun server) := by
  intro trace
  simp [bindRun, Api.get]

theorem knownFile_looks (env : Environment) (view : View) (key : Json) :
    Looks (knownFile env view key) := by
  intro trace
  simp [knownFile, Host.run]

theorem inspect_looks (env : Environment) (view : View) (known : KnownHosts) :
    Looks (inspect env view known) := by
  intro trace
  simp only [inspect, Host.run, Op.meets_bind, Op.meets_ofExcept, Op.meets_perform,
    Contract.only_guard, inspects_host, inspectsHost, implies_true, and_true]
  intro host _ session _ disk _
  refine ⟨True.intro, fun output _ => ?_⟩
  cases output <;> simp

theorem resolveKey_looks (reference : Json) : Looks (resolveKey reference) := by
  intro trace
  simp [resolveKey, Api.get]

theorem resolveUser_looks (entry : Json) : Looks (resolveUser entry) := by
  intro trace
  simp [resolveUser, Op.meets_mapM, resolveKey_looks]

theorem plan_looks (env : Environment) (view : View) (hostVars facts : Object) (revision : String) :
    Looks (plan env view hostVars facts revision) := by
  intro trace
  simp [plan, Api.get, resolveUsers, Op.meets_mapM, resolveUser_looks]

theorem examine_looks (env : Environment) (view : View) (hostVars : Object) (revision : String) :
    Looks (examine env view hostVars revision) := by
  intro trace
  apply Op.Meets.check (fun _ _ => ?_) fun _ => True.intro
  apply Op.Meets.bind (knownFile_looks _ _ _ _) (fun _ known _ _ => ?_) fun _ _ _ _ => True.intro
  apply Op.Meets.bind (inspect_looks _ _ _ _) (fun _ facts _ _ => ?_) fun _ _ _ _ => True.intro
  apply Op.Meets.check (fun _ _ => ?_) fun _ => True.intro
  apply Op.Meets.check (fun live _ => ?_) fun _ => True.intro
  split
  · simp [plan_looks]
  · simp [plan_looks]

theorem captureInventory_looks (name : String) : Looks (captureInventory name) := by
  intro trace
  simp only [captureInventory, Api.get, Op.meets_bind, Op.meets_perform, Op.meets_ofExcept,
    Contract.only_guard, inspects_get, implies_true, and_true, true_and]
  intro group _ _ _ _ _ _ _
  split <;> simp

theorem omittedServers_looks (omitted : List Json) : Looks (omittedServers omitted) := by
  induction omitted with
  | nil => exact fun trace => True.intro
  | cons entry rest ih =>
      intro trace
      apply Op.Meets.check (fun fields _ => ?_) fun _ => True.intro
      refine Op.Meets.bind (?_ : Op.Meets _ _ _ (fun _ _ => True) (fun _ _ => True))
        (fun later waiting _ _ => ?_) fun _ _ _ _ => True.intro
      · split
        · simp [Api.get]
        · exact True.intro
      · simp [ih]

theorem omittedActiveRuns_looks (group : Resource) : Looks (omittedActiveRuns group) := by
  unfold omittedActiveRuns
  split
  · exact omittedServers_looks _
  · exact fun trace => True.intro

theorem revision_looks (checkout : String) : Looks (checkOutput ["git", "-c",
    "safe.directory=" ++ checkout, "-C", checkout, "rev-parse", "HEAD"]) := by
  intro trace
  simp [checkOutput, Host.run]

theorem resolvedInventoryHosts_looks (env : Environment) (inventory : Object) :
    Looks (resolvedInventoryHosts env inventory) := by
  intro trace
  simp [resolvedInventoryHosts, Host.run]

/-! ## The pass -/

/-- A preflight never goes on to advance a run: preparation ends it. -/
theorem prepareAttempt_looks (env : Environment) (hostVars : Object) (revision : String) :
    LooksOn (prepareAttempt env hostVars revision true) (· = false) := by
  intro trace view
  apply Action.Meets.load
  apply Action.Meets.check (fun allowed _ => ?_) fun _ => True.intro
  split
  · apply Action.Meets.run (examine_looks _ _ _ _ _) (fun _ found _ _ => ?_) fun _ _ _ _ => True.intro
    simp
  · simp

theorem reconcile_looks (env : Environment) (hostVars : Object) (revision : String) :
    LooksOn (reconcile env hostVars revision true) fun _ => True := by
  intro trace view
  apply Action.Meets.load
  simp only [Bool.true_and]
  split
  · -- Completed and blocked runs are neither released nor retried.
    apply Action.Meets.check (fun _ _ => ?_) fun _ => True.intro
    exact True.intro
  · split
    · exact True.intro
    · rename_i _ inactive
      split
      · rename_i installing
        -- Installing is an active phase, which was turned away before.
        rw [installing] at inactive
        exact absurd rfl inactive
      · rw [if_pos (by simp [inactive])]
        apply Action.Meets.bind
        · exact prepareAttempt_looks env hostVars revision trace view
        · intro later claimed state _ unclaimed
          rw [unclaimed]
          exact True.intro
        · exact fun _ _ _ _ _ => True.intro

/-- Advance one reserved Server, when nothing is done about its failure. -/
def examineServer (env : Environment) (name : String) (hostVars : Object) (revision : String) :
    Pass View (Option Exn) := do
  let view ← Interaction.Action.load
  tryCatch (do
    let observed ← hostAddress view.server
    let captured ← itemString hostVars "ansible_host"
    let expected ← address captured
    demand (observed = expected)
      (provisioningBlocked "Capture-group management address is stale")
    reconcile env hostVars revision true
    return none) fun failure => do
      if failure.isException then
        (Host.run (.warn (name ++ ": " ++ failureMessage failure)) : Task Unit)
        return some failure
      else throw failure

/-- The failure handler is no part of a preflight. -/
theorem attemptServer_preflight (env : Environment) (name : String) (hostVars : Object)
    (revision : String) :
    attemptServer env name hostVars revision true = examineServer env name hostVars revision := rfl

theorem examineServer_looks (env : Environment) (name : String) (hostVars : Object) (revision : String) :
    LooksOn (examineServer env name hostVars revision) fun _ => True := by
  intro trace view
  apply Action.Meets.load
  rw [Action.meets_tryCatch]
  have failing : ∀ later failure state,
      Action.Meets (Contract.only fun request => inspects request = true)
        (do
          if Exn.isException failure then
            (Host.run (.warn (name ++ ": " ++ failureMessage failure)) : Task Unit)
            return some failure
          else throw failure : Pass View (Option Exn)) later state (fun _ _ _ => True) fun _ _ _ => True := by
    intro later failure state
    split
    · simp [Host.run]
    · simp
  refine Action.Meets.mono (?_ : Action.Meets _ _ _ _ (fun _ _ _ => True) fun _ _ _ => True)
    (fun _ _ _ _ _ => True.intro) fun later failure state _ _ => failing later failure state
  apply Action.Meets.check (fun _ _ => ?_) fun _ => True.intro
  apply Action.Meets.check (fun _ _ => ?_) fun _ => True.intro
  apply Action.Meets.check (fun _ _ => ?_) fun _ => True.intro
  apply Action.Meets.check (fun _ _ => ?_) fun _ => True.intro
  exact Action.Meets.bind (reconcile_looks _ _ _ _ _) (fun _ _ _ _ _ => True.intro)
    fun _ _ _ _ _ => True.intro

theorem serveHosts_looks (env : Environment) (revision : String) (hosts : List (String × Object)) :
    ∀ failed, Looks (serveHosts env revision true hosts failed) := by
  induction hosts with
  | nil => exact fun failed trace => True.intro
  | cons entry rest ih =>
      intro failed trace
      obtain ⟨name, hostVars⟩ := entry
      rw [serveHosts]
      apply Op.Meets.bind (?_ : Op.Meets _ _ _ (fun _ _ => True) (fun _ _ => True))
        (fun _ server _ _ => ?_) fun _ _ _ _ => True.intro
      · simp [Api.get]
      apply Op.Meets.check (fun reserved _ => ?_) fun _ => True.intro
      split
      · apply Op.Meets.bind (bindRun_looks _ _) (fun later view _ _ => ?_) fun _ _ _ _ => True.intro
        rw [Op.meets_bind, Action.meets_within, attemptServer_preflight]
        refine (examineServer_looks env name hostVars revision later view).mono
          (fun later outcome state _ _ => ?_) fun _ _ _ _ _ => True.intro
        cases outcome with
        | none => exact ih failed later
        | some failure =>
            simp only
            split
            · exact True.intro
            · exact ih true later
      · exact ih failed _

theorem main_looks (env : Environment) : Looks (main env true) := by
  intro trace
  apply Op.Meets.check (fun groupName _ => ?_) fun _ => True.intro
  apply Op.Meets.bind (captureInventory_looks _ _) (fun _ captured _ _ => ?_) fun _ _ _ _ => True.intro
  apply Op.Meets.check (fun _ _ => ?_) fun _ => True.intro
  apply Op.Meets.check (fun _ _ => ?_) fun _ => True.intro
  apply Op.Meets.bind (omittedActiveRuns_looks _ _) (fun _ waiting _ _ => ?_) fun _ _ _ _ => True.intro
  split
  · exact True.intro
  · apply Op.Meets.bind (revision_looks _ _) (fun _ _ _ _ => ?_) fun _ _ _ _ => True.intro
    apply Op.Meets.bind (resolvedInventoryHosts_looks _ _ _) (fun _ _ _ _ => ?_) fun _ _ _ _ => True.intro
    exact serveHosts_looks _ _ _ _ _

/-! ## Any number of preflights, among any other writers -/

/-- A program that serves a group with `--preflight`. -/
def IsPreflight (program : Program interface (Except Exn Nat)) : Prop := ∃ env, program = main env true

variable {outside : Store → Store → Prop} {initial world : Store}
  {history : List (Moment interface Store)} {running : List (Program interface (Except Exn Nat))}

/-- Whatever a preflight is about to ask for only looks. -/
theorem Looks.pending
    (execution : Execution (Api.surroundings outside) IsPreflight initial history world running)
    {actor : Nat} {request : Request} {resume : interface.Reply request → Program interface (Except Exn Nat)}
    (pending : running[actor]? = some (.call request resume)) : inspects request = true := by
  have meets : ∀ program, IsPreflight program →
      program.Meets (Contract.only fun request => inspects request = true) [] fun _ _ => True := by
    intro program ⟨env, same⟩
    subst same
    exact Program.Meets.mono (main_looks env []) fun _ _ _ _ => True.intro
  exact execution.guarded (fun _ _ _ _ _ => True.intro) meets pending

/-- A preflight never patches, creates, or starts a process on a host; every one
of its steps leaves all objects as they were; and its program is the one that
has no handler of failures. -/
theorem preflight_changes_nothing {outside : Store → Store → Prop} {initial world : Store}
    {history : List (Moment interface Store)} {running : List (Program interface (Except Exn Nat))}
    (execution : Execution (Api.surroundings outside) IsPreflight initial history world running) :
    (∀ past actor event after later, history = past ++ ⟨.act actor event, after⟩ :: later →
      inspects event.request = true ∧ after = worldAfter initial past) ∧
    (∀ (actor : Nat) (request : Request) resume, running[actor]? = some (.call request resume) →
      inspects request = true) ∧
    ∀ env name hostVars revision,
      attemptServer env name hostVars revision true = examineServer env name hostVars revision := by
  refine ⟨?_, fun _ _ _ pending => Looks.pending execution pending, attemptServer_preflight⟩
  intro past actor event after later split
  subst split
  rw [List.append_cons] at execution
  obtain ⟨programs, reached⟩ := execution.before
  obtain ⟨before, _, resume, earlier, pending, served, left, _⟩ := reached.act_cases
  have looks := Looks.pending earlier pending
  refine ⟨looks, ?_⟩
  rw [left, ← earlier.world_eq]
  exact inspects_serve looks served

/-- A preflight of the reserved Server of the deployment, up to its end. -/
def examining : List (Nat × Turn) := Rehearsal.steps 11 0 (Rehearsal.source "first")

theorem preflight_rehearsed : ∃ play : Play (Except Exn Nat),
    Play.turns examining (Play.begin Rehearsal.deployment [main (Rehearsal.executor "group") true]) = some play ∧
    play.history.length = 12 ∧
    (∀ past actor event after later, play.history = past ++ ⟨.act actor event, after⟩ :: later →
      inspects event.request = true ∧ after = worldAfter Rehearsal.deployment past) ∧
    (∀ (actor : Nat) (request : Request) resume, play.running[actor]? = some (.call request resume) →
      inspects request = true) ∧
    ∀ env name hostVars revision,
      attemptServer env name hostVars revision true = examineServer env name hostVars revision := by
  have facts : (Play.turns examining
      (Play.begin Rehearsal.deployment [main (Rehearsal.executor "group") true])).any
        (fun play => play.history.length == 12) = true := by
    decide +kernel
  obtain ⟨play, found, length⟩ := (Option.any_eq_true _ _).mp facts
  have plays : play.Plays IsPreflight alone Rehearsal.deployment := by
    refine Play.Plays.turns (Play.plays_begin fun program member => ?_) found
    rw [List.mem_singleton.mp member]
    exact ⟨_, rfl⟩
  exact ⟨play, found, eq_of_beq length, preflight_changes_nothing plays⟩

end Homelab.Provisioning
