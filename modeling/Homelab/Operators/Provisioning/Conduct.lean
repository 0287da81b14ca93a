import Homelab.Operators.Provisioning.Bodies

namespace Homelab.Provisioning

open Json (Object)
open Api (Seen)
open Interaction (Op Action Contract Extends)

/-! # Every pass keeps to its discipline -/

theorem permitted_reading (trace : Trace) (request : Request) (reading : isReading request = true) :
    Permitted trace request := by
  cases request with
  | get => exact True.intro
  | list => exact True.intro
  | patchStatus => simp [isReading] at reading
  | create => simp [isReading] at reading
  | host call => cases call <;> first | exact True.intro | simp at reading

theorem discipline_lenient : Lenient discipline where
  plain trace request plain := permitted_reading trace request (reading_of_plain plain)
  follows trace request follows := by
    cases request with
    | host call => cases call <;> first | exact True.intro | simp [followsProcess] at follows
    | _ => simp [followsProcess] at follows

theorem discipline_trusting : Trusting discipline := fun _ _ answered => answered

/-! ## Traces -/

/-- Only reads and status patches were added. -/
abbrev Calm : Trace → Trace → Prop :=
  Extends fun request => isReading request = true ∨ ∃ resource status, request = .patchStatus resource status

theorem Reads.calm {trace later : Trace} (reads : Reads trace later) : Calm trace later :=
  reads.weaken fun _ => .inl

theorem Gently.calm {trace later : Trace} (gently : Gently trace later) : Calm trace later :=
  gently.weaken fun _ => Or.imp reading_of_plain id

variable {trace later : Trace} {view : View}

theorem meets_of_quiet {α : Type} {body : Task α} (quiet : Quiet body) :
    body.Meets discipline trace (fun later _ => Reads trace later) (fun later _ => Reads trace later) :=
  Op.Confined.meets quiet fun later request _ => permitted_reading later request

theorem installMark_reading {uid : String} {event : Event} (reading : isReading event.request = true) :
    installMark uid event = none := by
  obtain ⟨request, reply⟩ := event
  cases request with
  | get => rfl
  | list => rfl
  | patchStatus => simp [isReading] at reading
  | create => simp [isReading] at reading
  | host call => cases call <;> first | rfl | simp at reading

theorem Reads.installLog {uid : String} (reads : Reads trace later) :
    installLog uid later = installLog uid trace := by
  obtain ⟨events, rfl, reading⟩ := reads
  have silent : events.filterMap (installMark uid) = [] :=
    List.filterMap_eq_nil_iff.mpr fun event member => installMark_reading (reading event member)
  simp [Provisioning.installLog, silent]

theorem StageBacked.reads {stage uid : String} (backed : StageBacked trace stage uid)
    (reads : Reads trace later) : StageBacked later stage uid := by
  refine ⟨fun install => ?_, fun live => ?_⟩
  · rw [reads.installLog]
    exact backed.1 install
  · obtain ⟨run, seen, rest⟩ := backed.2 live
    exact ⟨run, seen.mono reads.prefix, rest⟩

/-! ## Views -/

theorem bindRun_meets {server : Resource} :
    (bindRun server).Meets discipline trace
      (fun later view => ∃ name, later = trace ++ [⟨.get .provisioningRun name, .ok view.run⟩] ∧
        view.server = server ∧ view.run.kind = .provisioningRun ∧ view.provisioning = view.run.status ∧
        Names server view.run ∧ ∃ serverRef, view.run.spec.get? "serverRef" = some serverRef ∧
          Json.Same serverRef server.reference)
      (fun later _ => Reads trace later) :=
  (discipline_lenient.bindRun discipline_trusting).mono (fun _ _ _ bound => bound)
    fun _ _ _ plainly => plainly.reads

/-- A fresh read stands for the same run in the same phase. -/
structure Matches (view latest : View) : Prop where
  uid : latest.run.uid = view.run.uid
  phase : ∀ phase, phaseOf view.provisioning = some phase → phaseOf latest.provisioning = some phase

theorem current_meets {allowPaused allowNetworkPending : Bool} :
    (current view allowPaused allowNetworkPending).Meets discipline trace
      (fun later latest => Reads trace later ∧ Fresh later latest ∧ Matches view latest)
      (fun later _ => Reads trace later) := by
  refine (discipline_lenient.current discipline_trusting).mono (fun later latest _ read => ?_)
    fun _ _ _ plainly => plainly.reads
  obtain ⟨revalidated, _, _⟩ := read
  have reads := revalidated.plainly.reads
  obtain ⟨_, _, fresh, unchanged⟩ := revalidated
  exact ⟨reads, fresh, unchanged.run, fun _ found => unchanged.phaseOf found⟩

/-! ## Checkpoints -/

theorem permitted_run {run : Resource} {status : Object} {move : Move} (seen : Seen trace run)
    (kind : run.kind = .provisioningRun) (writes : Writes run move status)
    (evidence : Evidence trace run move) : Permitted trace (.patchStatus run status) := by
  refine ⟨seen, ?_⟩
  rw [kind]
  exact ⟨move, writes, evidence⟩

/-- The last thing done was an acknowledged write of `fields` to the run of `view`. -/
def Written (trace : Trace) (view : View) (fields : Object) (later : Trace) (state : View) : Prop :=
  ∃ earlier target before, Calm trace earlier ∧
    later = earlier ++ [⟨.patchStatus target fields, .ok state.run⟩] ∧
    target.kind = .provisioningRun ∧ target.uid = view.run.uid ∧
    state.run.kind = .provisioningRun ∧ state.run.uid = view.run.uid ∧
    state.provisioning = state.run.status ∧ state.run.status = Json.mergeFields before fields ∧
    phaseOf target.status = phaseOf view.provisioning

theorem Written.held {fields : Object} {state : View} (written : Written trace view fields later state) :
    Held later state := by
  obtain ⟨earlier, target, before, _, rfl, _, _, kind, _, same, _⟩ := written
  exact ⟨Api.seen_last (List.mem_singleton.mpr rfl), kind, same⟩

theorem Checkpointed.calm {source : Phase} {fields : Object} {state : View}
    (written : Checkpointed trace view fields later state) (found : phaseOf view.provisioning = some source) :
    Written trace view fields later state := by
  obtain ⟨middle, earlier, latest, before, gently, revalidated, shape, _, merged⟩ := written.written
  have reached : Gently trace earlier := gently.trans revalidated.plainly.gently
  have calm := reached.calm
  obtain ⟨_, _, fresh, unchanged⟩ := revalidated
  refine ⟨earlier, latest.run, before, calm, shape, fresh.kind, unchanged.run, written.bound.kind,
    written.run, written.bound.same, merged, ?_⟩
  rw [← fresh.same, unchanged.phaseOf found, found]

theorem patchStatus_meets {run : Resource} {status : Object}
    (permitted : Permitted trace (.patchStatus run status)) :
    (Api.patchStatus run status).Meets discipline trace
      (fun later updated => later = trace ++ [⟨.patchStatus run status, .ok updated⟩] ∧
        updated.kind = run.kind ∧ updated.name = run.name ∧ updated.uid = run.uid ∧
        ∃ before, updated.status = Json.mergeFields before status)
      (fun later _ => Calm trace later) :=
  (discipline_trusting.patchStatus permitted).mono (fun _ _ _ patched => patched)
    fun _ _ _ gently => gently.calm

theorem checkpoint_meets {phase : Json} {source : Phase} {fields : Object}
    (found : phaseOf view.provisioning = some source)
    (permit : ∀ later target, Calm trace later → Seen later target →
      target.kind = .provisioningRun → target.uid = view.run.uid → phaseOf target.status = some source →
      ∃ move, Writes target move (checkpointFields phase fields) ∧ Evidence later target move) :
    (checkpoint phase fields).Meets discipline trace view
      (fun later _ state => Written trace view (checkpointFields phase fields) later state)
      (fun later _ state => Calm trace later ∧ state = view) := by
  refine (discipline_lenient.checkpoint discipline_trusting found
    fun later target gently seen kind uid status => ?_).mono (fun _ _ _ _ written => written.calm found)
      fun _ _ _ _ kept => ⟨kept.1.calm, kept.2⟩
  obtain ⟨move, writes, evidence⟩ := permit later target gently.calm seen kind uid status
  exact permitted_run seen kind writes evidence

/-- The phase and the record a written checkpoint leaves. -/
theorem Written.phase {fields : Object} {phase : Phase} {state : View}
    (written : Written trace view (checkpointFields phase.json fields) later state)
    (distinct : ("phase" :: "currentStage" :: fields.map Prod.fst).Nodup) :
    phaseOf state.provisioning = some phase := by
  obtain ⟨_, _, before, _, _, _, _, _, _, same, merged, _⟩ := written
  rw [same, merged]
  exact congrArg Record.phase (record_checkpoint before fields phase distinct)

/-! ## Stages -/

theorem runStage_meets {env : Environment} {known : KnownHosts} {stage : String}
    (backed : StageBacked trace stage view.run.uid) :
    (runStage env view known stage).Meets discipline trace
      (fun later _ => Staged trace stage view.run.uid later)
      (fun later _ => Extends (isStage stage view.run.uid) trace later) := by
  refine discipline_lenient.runStage fun later argv files drafts found other uid same => ?_
  obtain ⟨rfl, rfl⟩ := Prod.mk.inj (Option.some.inj (found.symm.trans same))
  exact backed.reads drafts.plainly.reads

theorem permitted_other (argv : List String) {files : List (String × Json)}
    (other : stageOf files = none) : Permitted trace (.host (.spawn argv files)) := by
  intro stage uid found
  rw [other] at found
  contradiction

theorem runPlay_meets {env : Environment} {server : Resource} {host : String} {known : KnownHosts}
    {play : String} {playVars : Object} (other : playVars.get? "provision_stage" = none) :
    (runPlay env server host known play playVars).Meets discipline trace
      (fun later _ => Extends isPlay trace later) (fun later _ => Extends isPlay trace later) :=
  discipline_lenient.runPlay other fun _ argv _ unstaged => permitted_other argv unstaged

end Homelab.Provisioning
