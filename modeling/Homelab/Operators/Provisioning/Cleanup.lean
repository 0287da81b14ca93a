import Homelab.Operators.Provisioning.Rehearsal

namespace Homelab.Provisioning

open Json (Object)
open Api (Seen)
open Interaction (Program Execution Moment Happening localTrace worldAfter)

/-! # Giving a Server up

A failed attempt that frees its Server has either removed the boot selection in
the source session of the host, or decides by a view in which none is armed.
-/

/-- A start of a stage that selects or enters the live boot. -/
def StartsLive (uid : String) (moment : Moment interface Store) : Prop :=
  ∃ actor argv files reply stage,
    moment.happening = .act actor ⟨.host (.spawn argv files), reply⟩ ∧
      stageOf files = some (stage, uid) ∧ stage ∈ liveStages

/-- The fields by which a failed attempt frees its Server. -/
def GivesUp (fields : Object) : Prop :=
  fields.get? "phase" = some Phase.blocked.json ∧ fields.get? "maintenance" = some (.bool false)

/-- The pass frees the Server of the stored run, after `past`. -/
structure GivenUp (initial : Store) (past : List (Moment interface Store)) (actor : Nat) (run : Resource)
    (moment : Moment interface Store) : Prop where
  stored : run ∈ (worldAfter initial past).objects
  kind : run.kind = .provisioningRun
  request : ∃ fields reply, moment.happening = .act actor ⟨.patchStatus run fields, reply⟩ ∧ GivesUp fields

/-- Whenever a failure handler frees a Server without having started a clearing
stage, the persisted run still stands before the arming of the boot. -/
def Unselected (initial : Store) (uid : String) (history : List (Moment interface Store)) : Prop :=
  ∀ past moment later actor run, history = past ++ moment :: later →
    GivenUp initial past actor run moment → run.uid = uid →
      (∀ rest, Since (localTrace actor past) rest →
        ∀ event ∈ rest, startsClearing uid event.request = false) →
        phaseOf run.status = some .preparingBoot ∧ holds run.status "netbootArmed" = false

/-- What follows the last report of a failure. -/
def afterWarning (trace : Trace) : Trace :=
  (trace.reverse.takeWhile fun event => !isWarning event.request).reverse

theorem Since.eq_afterWarning {trace rest : Trace} (since : Since trace rest) :
    rest = afterWarning trace := by
  obtain ⟨earlier, warning, rfl, warned, quiet⟩ := since
  have silent : ∀ event ∈ rest.reverse, (!isWarning event.request) = true := fun event member => by
    simp [quiet event (List.mem_reverse.mp member)]
  rw [afterWarning, List.reverse_append, List.reverse_cons, List.append_assoc,
    List.takeWhile_append_of_pos silent]
  simp [warned]

theorem Writes.givesUp {run : Resource} {move : Move} {fields : Object} (writes : Writes run move fields)
    (gives : GivesUp fields) : move = .block false := by
  obtain ⟨phase, maintenance⟩ := gives
  cases writes with
  | block found entered =>
      simp [checkpointFields, blockedFields] at maintenance
      rw [maintenance]
  | remark found member =>
      simp [checkpointFields] at maintenance
  | _ => simp [checkpointFields, claimFields, Phase.json, Phase.text] at phase maintenance

theorem Writes.blocks {run : Resource} {keep : Bool} {fields : Object}
    (writes : Writes run (.block keep) fields) : phaseOf run.status = some .preparingBoot ∨
      phaseOf run.status = some .awaitingLive ∨ phaseOf run.status = some .installing := by
  cases writes with
  | block found entered => exact found

variable {outside : Store → Store → Prop} {initial before world : Store} {uid : String}
  {history : List (Moment interface Store)} {moment : Moment interface Store}
  {programs running : List (Program interface (Except Exn Nat))}

/-- Once a live stage was started, the stored run shows it. -/
theorem Passes.selected (execution : Passes outside initial history world running)
    (kept : RunsKept outside) (start : initial.WellFormed Resource.schema)
    (begins : Begins outside initial uid Record.fresh) (member : moment ∈ history)
    (live : StartsLive uid moment) {run : Resource} (stored : run ∈ world.objects)
    (same : run.uid = uid) : (record run.status).selected := by
  obtain ⟨actor, argv, files, reply, stage, shape, found, inside⟩ := live
  obtain ⟨past, later, rfl⟩ := List.append_of_mem member
  obtain ⟨happening, after⟩ := moment
  dsimp only at shape
  subst shape
  have whole := execution
  rw [List.append_cons] at whole
  obtain ⟨_, upTo⟩ := Execution.before whole
  obtain ⟨_, _, _, first, pending, _⟩ := upTo.act_cases
  obtain ⟨seen, read, kind, seenUid, selected⟩ := (Passes.permitted first pending stage uid found).2 inside
  have sound := Passes.seen_sound first kept start begins read kind seenUid
  have named := stored_named (Api.Execution.formed execution kept.orderly start) stored
  have uids : seen.uid = run.uid := seenUid.trans same.symm
  rw [← uids] at named
  obtain ⟨_, _, _, reaches⟩ :=
    Passes.continues_seen execution kept start read.append stored uids kind named
  exact Record.Reaches.selected reaches sound selected

instance (fields : Object) : Decidable (GivesUp fields) := inferInstanceAs (Decidable (_ ∧ _))

/-- Whether a moment frees a Server, if at all, from before the arming. -/
def freesUnarmed (moment : Moment interface Store) : Bool :=
  match moment.happening with
  | .act _ ⟨.patchStatus run fields, _⟩ =>
      !decide (GivesUp fields) ||
        phaseOf run.status == some .preparingBoot && !holds run.status "netbootArmed"
  | _ => true

theorem unselected_of_freesUnarmed (unarmed : ∀ moment ∈ history, freesUnarmed moment = true) :
    Unselected initial uid history := by
  rintro past moment later actor run rfl ⟨_, _, fields, reply, shape, gives⟩ _ _
  have found := unarmed moment (by simp)
  simpa [freesUnarmed, shape, gives] using found

/-- Whether a pass is about to free the Server of its run, and will be obeyed. -/
def isFreeing (play : Api.Play (Except Exn Nat)) (actor : Nat) (uid : String) : Bool :=
  match play.running[actor]? with
  | some (.call (.patchStatus run fields) _) =>
      run.kind == .provisioningRun && run.uid == uid && decide (GivesUp fields) &&
        (Api.patch play.world run fields).isSome
  | _ => false

theorem givenUp_of_isFreeing {play next : Api.Play (Except Exn Nat)} {actor : Nat} {answer : Api.Turn}
    (passes : Passes outside initial play.history play.world play.running)
    (orderly : Api.Orderly outside) (start : initial.WellFormed Resource.schema)
    (freeing : isFreeing play actor uid = true) (turn : play.turn actor answer = some next) :
    ∃ moment run, next.history = play.history ++ [moment] ∧
      GivenUp initial play.history actor run moment ∧ run.uid = uid := by
  unfold isFreeing at freeing
  split at freeing
  · rename_i run fields resume pending
    simp only [Bool.and_eq_true, beq_iff_eq, decide_eq_true_eq, Option.isSome_iff_exists] at freeing
    obtain ⟨⟨⟨kind, same⟩, gives⟩, ⟨updated, after⟩, written⟩ := freeing
    obtain ⟨applied, _⟩ := Passes.applied passes orderly start pending written
    simp only [Api.Play.turn, pending, Option.some.injEq] at turn
    subst turn
    exact ⟨_, run, rfl, ⟨passes.world_eq ▸ applied.stored, kind, fields, _, rfl, gives⟩, same⟩
  · simp at freeing

def isProbe : Request → Bool
  | .host (.probe ..) => true
  | _ => false

theorem Cleared.probed {rest : Trace} {source : Json} (cleared : Cleared rest uid source) :
    ∃ event ∈ rest, isProbe event.request = true := by
  obtain ⟨_, event, _, _, _, _, rfl, ⟨_, _, rfl⟩, _⟩ := cleared
  exact ⟨_, List.mem_append_right _ List.mem_cons_self, rfl⟩

/-- Whether a stage that selects or enters the live boot is started. -/
def startsLive (uid : String) (moment : Moment interface Store) : Bool :=
  match moment.happening with
  | .act _ ⟨.host (.spawn _ files), _⟩ => liveStages.any fun stage => stageOf files == some (stage, uid)
  | _ => false

theorem StartsLive.of_startsLive (starts : startsLive uid moment = true) : StartsLive uid moment := by
  unfold startsLive at starts
  split at starts
  · rename_i actor argv files reply shape
    obtain ⟨stage, member, found⟩ := List.any_eq_true.mp starts
    exact ⟨actor, argv, files, reply, stage, shape, by simpa using found, member⟩
  · simp at starts

end Homelab.Provisioning
