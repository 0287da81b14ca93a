import Homelab.Operators.Provisioning.Rehearsal

namespace Homelab.Provisioning

open Json (Object)
open Interaction (Program Execution Moment Happening localTrace localTrace_append worldAfter
  worldAfter_append)

/-! # The destructive stage

The stage `install` of a run is started by one pass at most, and that pass has
moved the persisted run into Installing itself.
-/

/-- A start of the destructive stage of this run. -/
def startsInstall (uid : String) (moment : Moment interface Store) : Bool :=
  match moment.happening with
  | .act _ ⟨.host (.spawn _ files), _⟩ => stageOf files == some ("install", uid)
  | _ => false

/-- The marks of a run in a whole history, each with the pass that left it. -/
def marks (uid : String) (history : List (Moment interface Store)) : List (Nat × Mark) :=
  history.filterMap fun moment =>
    match moment.happening with
    | .act actor event => (installMark uid event).map fun mark => (actor, mark)
    | _ => none

theorem marks_append (uid : String) (first second : List (Moment interface Store)) :
    marks uid (first ++ second) = marks uid first ++ marks uid second := by
  simp [marks]

@[simp] theorem marks_act (uid : String) (actor : Nat) (event : Event) (after : Store) :
    marks uid [⟨.act actor event, after⟩] =
      ((installMark uid event).map fun mark => (actor, mark)).toList := by
  cases mark : installMark uid event <;> simp [marks, mark]

/-- A pass finds its own marks in its own trace. -/
theorem installLog_localTrace (uid : String) (actor : Nat) (history : List (Moment interface Store)) :
    installLog uid (localTrace actor history) =
      (marks uid history).filterMap fun entry => if entry.1 = actor then some entry.2 else none := by
  simp only [installLog, localTrace, marks, List.filterMap_filterMap]
  refine List.filterMap_congr fun moment _ => ?_
  obtain ⟨happening, after⟩ := moment
  cases happening with
  | outside => rfl
  | start => rfl
  | act who event =>
      by_cases same : who = actor
      · cases mark : installMark uid event <;> simp [Moment.event?, same, mark]
      · cases mark : installMark uid event <;> simp [Moment.event?, same, mark]

theorem startsInstall_iff {uid : String} {moment : Moment interface Store} :
    startsInstall uid moment = true ↔ ∃ actor argv files reply after,
      moment = ⟨.act actor ⟨.host (.spawn argv files), reply⟩, after⟩ ∧
        stageOf files = some ("install", uid) := by
  obtain ⟨happening, after⟩ := moment
  constructor
  · intro starts
    unfold startsInstall at starts
    split at starts
    · rename_i actor argv files reply shape
      exact ⟨actor, argv, files, reply, after, by simpa using shape, by simpa using starts⟩
    · simp at starts
  · rintro ⟨actor, argv, files, reply, other, same, stage⟩
    cases same
    simp [startsInstall, stage]

theorem installMark_eq_started {uid : String} {event : Event}
    (mark : installMark uid event = some .started) :
    ∃ argv files reply, event = ⟨.host (.spawn argv files), reply⟩ ∧
      stageOf files = some ("install", uid) := by
  unfold installMark at mark
  split at mark
  · split at mark <;> simp at mark
  · split at mark
    · exact ⟨_, _, _, rfl, ‹_›⟩
    · simp at mark
  · simp at mark

theorem installMark_eq_entered {uid : String} {event : Event}
    (mark : installMark uid event = some .entered) :
    ∃ run status updated, event = ⟨.patchStatus run status, .ok updated⟩ ∧
      run.kind = .provisioningRun ∧ run.uid = uid ∧ phaseOf run.status = some .awaitingLive ∧
        status.get? "phase" = some Phase.installing.json := by
  unfold installMark at mark
  split at mark
  · rename_i run status updated
    split at mark
    · rename_i found
      exact ⟨run, status, updated, rfl, found⟩
    · simp at mark
  · split at mark <;> simp at mark
  · simp at mark

/-- A start leaves a mark. -/
theorem countP_startsInstall (uid : String) (history : List (Moment interface Store)) :
    history.countP (startsInstall uid) = ((marks uid history).map Prod.snd).count .started := by
  induction history with
  | nil => rfl
  | cons moment rest ih =>
      have one : marks uid (moment :: rest) = marks uid [moment] ++ marks uid rest :=
        marks_append uid [moment] rest
      rw [List.countP_cons, ih, one, List.map_append, List.count_append, Nat.add_comm]
      congr 1
      by_cases starts : startsInstall uid moment
      · obtain ⟨actor, argv, files, reply, after, rfl, stage⟩ := startsInstall_iff.mp starts
        have mark : installMark uid ⟨.host (.spawn argv files), reply⟩ = some .started := by
          simp [installMark, stage]
        simp [mark, starts]
      · rw [if_neg starts]
        obtain ⟨happening, after⟩ := moment
        cases happening with
        | outside => rfl
        | start => rfl
        | act actor event =>
            cases mark : installMark uid event with
            | none => simp [mark]
            | some found =>
                cases found with
                | entered => simp [mark]
                | started =>
                    obtain ⟨argv, files, reply, rfl, stage⟩ := installMark_eq_started mark
                    exact absurd (startsInstall_iff.mpr ⟨_, _, _, _, _, rfl, stage⟩) starts

/-- A write of the phase Installing by a pass that had read AwaitingLive. -/
theorem Writes.installs {run : Resource} {move : Move} {fields : Object} (writes : Writes run move fields)
    (awaiting : phaseOf run.status = some .awaitingLive)
    (phase : fields.get? "phase" = some Phase.installing.json) : ∃ text,
      fields = checkpointFields Phase.installing.json [("message", .str text)] := by
  cases writes with
  | install found => exact ⟨_, rfl⟩
  | remark found member =>
      rw [awaiting] at found
      cases found
      simp [checkpointFields, Phase.json, Phase.text] at phase
  | _ => simp [checkpointFields, claimFields, Phase.json, Phase.text] at phase

/-- The pass has moved the persisted run from AwaitingLive to Installing with a
checkpoint of its own. -/
def EnteredBy (initial : Store) (uid : String) (actor : Nat) (history : List (Moment interface Store)) :
    Prop :=
  ∃ past run status updated after later,
    history = past ++ ⟨.act actor ⟨.patchStatus run status, .ok updated⟩, after⟩ :: later ∧
      run ∈ (worldAfter initial past).objects ∧ run.kind = .provisioningRun ∧ run.uid = uid ∧
      phaseOf run.status = some .awaitingLive ∧
      updated ∈ after.objects ∧ updated.kind = .provisioningRun ∧ updated.uid = uid ∧
      phaseOf updated.status = some .installing

theorem EnteredBy.mono {initial : Store} {uid : String} {actor : Nat}
    {history later : List (Moment interface Store)} (entered : EnteredBy initial uid actor history) :
    EnteredBy initial uid actor (history ++ later) := by
  obtain ⟨past, run, status, updated, after, rest, rfl, facts⟩ := entered
  exact ⟨past, run, status, updated, after, rest ++ later, by simp, facts⟩

variable {outside : Store → Store → Prop} {initial before world : Store} {uid : String}
  {history : List (Moment interface Store)} {moment : Moment interface Store}
  {programs running : List (Program interface (Except Exn Nat))}

/-- The marks of a run and where its record must be by then. -/
structure Marked (initial : Store) (uid : String) (history : List (Moment interface Store))
    (world : Store) : Prop where
  marks : ∃ actor, EnteredBy initial uid actor history ∧
    (marks uid history = [(actor, .entered)] ∨ marks uid history = [(actor, .entered), (actor, .started)])
  issued : uid ∈ world.issued
  entered : ∀ run ∈ world.objects, run.kind = .provisioningRun → run.uid = uid →
    (record run.status).entered

theorem Passes.entered_kept (execution : Passes outside initial (history ++ [moment]) world running)
    (past : Passes outside initial history before programs) (kept : RunsKept outside)
    (start : initial.WellFormed Resource.schema) (begins : Begins outside initial uid Record.fresh)
    (issued : uid ∈ before.issued)
    (entered : ∀ run ∈ before.objects, run.kind = .provisioningRun → run.uid = uid →
      (record run.status).entered) :
    uid ∈ world.issued ∧ ∀ run ∈ world.objects, run.kind = .provisioningRun → run.uid = uid →
      (record run.status).entered := by
  refine ⟨(Api.Execution.last_advances execution past kept.orderly start).issued issued, ?_⟩
  intro run stored kind same
  rcases Passes.appeared execution past kept.orderly start stored with
    ⟨old, member, key, uid⟩ | ⟨_, absent⟩
  · have oldKind : old.kind = .provisioningRun := (congrArg Prod.fst key).trans kind
    have named := stored_named (Api.Execution.formed past kept.orderly start) member
    obtain ⟨_, _, _, reaches⟩ :=
      Passes.continues_step execution past kept start member stored key uid oldKind named
    have sound := Passes.sound past kept start begins member oldKind (uid.trans same)
    exact Record.Reaches.entered reaches sound (entered old member oldKind (uid.trans same))
  · exact absurd issued (same ▸ absent)

/-- A checkpoint of Installing leaves the persisted run in that phase, still
under maintenance. -/
theorem Passes.enters {actor : Nat} {run updated : Resource} {status : Object} {after : Store}
    (execution : Passes outside initial
      (history ++ [⟨.act actor ⟨.patchStatus run status, .ok updated⟩, after⟩]) world running)
    (past : Passes outside initial history before programs) (kept : RunsKept outside)
    (start : initial.WellFormed Resource.schema) (begins : Begins outside initial uid Record.fresh)
    (kind : run.kind = .provisioningRun) (same : run.uid = uid)
    (awaiting : phaseOf run.status = some .awaitingLive)
    (phase : status.get? "phase" = some Phase.installing.json) :
    run ∈ before.objects ∧ updated ∈ world.objects ∧ updated.kind = .provisioningRun ∧
      updated.uid = uid ∧ phaseOf updated.status = some .installing ∧ (record updated.status).entered := by
  obtain ⟨applied, rfl⟩ := Passes.acknowledged execution past kept.orderly start
  have stored := applied.stored
  have allowed := applied.permitted
  simp only [Permitted, kind] at allowed
  obtain ⟨_, move, writes, _⟩ := allowed
  obtain ⟨text, rfl⟩ := writes.installs awaiting phase
  have sound := Passes.sound past kept start begins stored kind same
  have held := sound.maintenance (Record.active_of_phase awaiting (by simp [ACTIVE]))
  have named := stored_named (Api.Execution.formed past kept.orderly start) stored
  have merged : record (Json.mergeFields run.status
      (checkpointFields Phase.installing.json [("message", .str text)])) =
        { record run.status with phase := some .installing } := by
    rw [record_checkpoint _ _ _ (by simp), record_merge _ _ (by simp)]
    rfl
  have present : Api.patched before run
      (checkpointFields Phase.installing.json [("message", .str text)]) ∈ world.objects := by
    rw [applied.written]
    exact Versioned.Store.mem_put.mpr (.inl ⟨run, stored, rfl, rfl⟩)
  refine ⟨stored, present, kind, same, congrArg Record.phase merged, ?_⟩
  rw [Api.patched, merged]
  exact .inr ⟨held, .inl rfl⟩

/-- Whoever is about to start the stage has left the only mark so far. -/
theorem Passes.starts_alone (past : Passes outside initial history before programs)
    (inherited : marks uid history = [] ∨ Marked initial uid history before) {actor : Nat}
    {argv : List String} {files : List (String × Json)}
    {resume : Except Exn Unit → Program interface (Except Exn Nat)}
    (pending : programs[actor]? = some (.call (.host (.spawn argv files)) resume))
    (stage : stageOf files = some ("install", uid)) :
    EnteredBy initial uid actor history ∧ marks uid history = [(actor, .entered)] ∧
      Marked initial uid history before := by
  have guard := (Passes.permitted past pending "install" uid stage).1 rfl
  rw [installLog_localTrace] at guard
  have marked := inherited.resolve_left fun none => by simp [none] at guard
  obtain ⟨owner, entry, found⟩ := marked.marks
  have same : owner = actor := by
    by_contra different
    rcases found with found | found <;> simp [found, different] at guard
  subst same
  rcases found with found | found
  · exact ⟨entry, found, marked⟩
  · simp [found] at guard

/-- A run is marked by one pass only, first by its checkpoint, then by the start
of the stage. -/
theorem Passes.marked (execution : Passes outside initial history world running)
    (kept : RunsKept outside) (start : initial.WellFormed Resource.schema)
    (begins : Begins outside initial uid Record.fresh) :
    marks uid history = [] ∨ Marked initial uid history world := by
  induction history using List.reverseRecOn generalizing world running with
  | nil => exact .inl rfl
  | append_singleton earlier moment ih =>
      obtain ⟨before, programs, past, _⟩ := execution.last_cases
      have inherited := ih past
      have silent (none : marks uid [moment] = []) :
          marks uid (earlier ++ [moment]) = [] ∨ Marked initial uid (earlier ++ [moment]) world := by
        rw [marks_append, none, List.append_nil]
        refine inherited.imp id fun marked => ?_
        obtain ⟨issued, entered⟩ :=
          Passes.entered_kept execution past kept start begins marked.issued marked.entered
        obtain ⟨actor, entry, found⟩ := marked.marks
        refine ⟨⟨actor, entry.mono, ?_⟩, issued, entered⟩
        rwa [marks_append, none, List.append_nil]
      obtain ⟨happening, after⟩ := moment
      cases happening with
      | outside => exact silent rfl
      | start => exact silent rfl
      | act actor event =>
          cases mark : installMark uid event with
          | none => exact silent (by simp [mark])
          | some found =>
              right
              cases found with
              | entered =>
                  obtain ⟨run, status, updated, rfl, kind, same, awaiting, phase⟩ :=
                    installMark_eq_entered mark
                  obtain ⟨stored, present, newKind, newUid, newPhase, entered⟩ :=
                    Passes.enters execution past kept start begins kind same awaiting phase
                  have none : marks uid earlier = [] := by
                    refine inherited.resolve_right fun marked => ?_
                    rcases marked.entered run stored kind same with ended | ⟨_, ended⟩ <;>
                      simp [record, awaiting] at ended
                  have formed := Api.Execution.formed execution kept.orderly start
                  have left := execution.world_eq
                  rw [worldAfter_append] at left
                  subst left
                  refine ⟨⟨actor, ?_, .inl (by rw [marks_append, none, marks_act, mark]; rfl)⟩,
                    newUid ▸ formed.issued updated present, fun other member _ uid => ?_⟩
                  · exact ⟨earlier, run, status, updated, world, [], rfl, past.world_eq ▸ stored, kind,
                      same, awaiting, present, newKind, newUid, newPhase⟩
                  · rw [formed.identical member present (uid.trans newUid.symm)]
                    exact entered
              | started =>
                  obtain ⟨argv, files, reply, rfl, stage⟩ := installMark_eq_started mark
                  obtain ⟨store, _, _, first, pending, _⟩ := execution.act_cases
                  obtain rfl := past.world_unique first
                  obtain ⟨entry, found, marked⟩ := Passes.starts_alone first inherited pending stage
                  obtain ⟨issued, entered⟩ :=
                    Passes.entered_kept execution past kept start begins marked.issued marked.entered
                  exact ⟨⟨actor, entry.mono, .inr (by rw [marks_append, found, marks_act, mark]; rfl)⟩,
                    issued, entered⟩

/-- The destructive stage of a run is started at most once in its lifetime, and
only by the pass whose own checkpoint moved the persisted run from AwaitingLive
to Installing. -/
theorem install_started_once (execution : Passes outside initial history world running)
    (kept : RunsKept outside) (start : initial.WellFormed Resource.schema)
    (begins : Begins outside initial uid Record.fresh) :
    history.countP (startsInstall uid) ≤ 1 ∧
      ∀ past actor argv files reply after later,
        history = past ++ ⟨.act actor ⟨.host (.spawn argv files), reply⟩, after⟩ :: later →
          stageOf files = some ("install", uid) → EnteredBy initial uid actor past := by
  constructor
  · rw [countP_startsInstall]
    rcases Passes.marked execution kept start begins with none | marked
    · simp [none]
    · obtain ⟨actor, _, found | found⟩ := marked.marks <;> simp [found]
  · rintro past actor argv files reply after later rfl stage
    rw [List.append_cons] at execution
    obtain ⟨_, upTo⟩ := Execution.before execution
    obtain ⟨_, _, _, first, pending, _⟩ := upTo.act_cases
    exact (Passes.starts_alone first (Passes.marked first kept start begins) pending stage).1

/-- The rehearsed pass starts the stage once, after its own checkpoint. -/
theorem install_started_once_rehearsed :
    ∃ play, Rehearsal.rehearse Rehearsal.deployment ["group"] Rehearsal.installing = some play ∧
      play.history.countP (startsInstall (Rehearsal.uidOf "run")) = 1 ∧
      ∀ past actor argv files reply after later,
        play.history = past ++ ⟨.act actor ⟨.host (.spawn argv files), reply⟩, after⟩ :: later →
          stageOf files = some ("install", Rehearsal.uidOf "run") →
            EnteredBy Rehearsal.deployment (Rehearsal.uidOf "run") actor past := by
  have once : (Rehearsal.rehearse Rehearsal.deployment ["group"] Rehearsal.installing).any
      (fun play => play.history.countP (startsInstall (Rehearsal.uidOf "run")) == 1) = true := by
    decide +kernel
  obtain ⟨play, found, count⟩ := (Option.any_eq_true _ _).mp once
  exact ⟨play, found, by simpa using count, (install_started_once (Rehearsal.passes found) runsKept_alone
    Rehearsal.deployment_formed ((Rehearsal.begins_pending _).mono fun _ => Or.inr)).2⟩

end Homelab.Provisioning
