import Homelab.Operators.Provisioning.Rehearsal

namespace Homelab.Provisioning

open Json (Object)
open Api (Seen)
open Interaction (Program Execution Moment Happening localTrace localTrace_append localTrace_eq_append
  worldAfter worldAfter_append)

/-! # Progress of a run

No interleaving takes a persisted run back, and none completes it without the
installation and an accepted inspection.
-/

variable {outside : Store → Store → Prop} {initial before world : Store} {uid : String}
  {history : List (Moment interface Store)} {moment : Moment interface Store}
  {programs running : List (Program interface (Except Exn Nat))}

/-- Some pass has seen the stage `install` of this run return success. -/
def Installed (uid : String) (history : List (Moment interface Store)) : Prop :=
  ∃ installer, StageDone (localTrace installer history) uid "install"

theorem Installed.mono {later : List (Moment interface Store)} (installed : Installed uid history) :
    Installed uid (history ++ later) := by
  obtain ⟨installer, done⟩ := installed
  refine ⟨installer, done.mono ?_⟩
  rw [localTrace_append]
  exact (List.prefix_append _ _).isInfix

/-- The stage of this run returned success, and later an inspection of the host
was accepted against this snapshot. -/
def Attested (uid : String) (snapshot : Option Json) (history : List (Moment interface Store)) : Prop :=
  ∃ past actor event after later facts view,
    history = past ++ ⟨.act actor event, after⟩ :: later ∧ Installed uid past ∧ Probed facts event ∧
      view.run.uid = uid ∧ view.provisioning.get? "snapshot" = snapshot ∧
      verifyInstalled view facts = .ok ()

/-- No run that began in Pending is past the installation without it. -/
theorem Passes.installed (execution : Passes outside initial history world running)
    (kept : RunsKept outside) (start : initial.WellFormed Resource.schema)
    (begins : Begins outside initial uid fun record => record.phase = some .pending) {run : Resource}
    (stored : run ∈ world.objects) (kind : run.kind = .provisioningRun) (same : run.uid = uid)
    (inside : (record run.status).installed) : Installed uid history := by
  refine Passes.every_run execution kept start begins
    (fun history run => (record run.status).installed → Installed uid history)
    (fun _ run found inside => ?_) (fun _ _ _ _ inherited _ _ status _ inside => ?_) ?_ stored kind same
    inside
  · rcases inside with inside | inside | inside <;> simp [found] at inside
  · exact (inherited (status ▸ inside)).mono
  · intro history moment actor old status new before programs past member uid _ _ inherited written inside
    obtain ⟨move, writes, evidence⟩ := written.move
    have named := stored_named (Api.Execution.formed past kept.orderly start) member
    rw [written.merged] at inside
    rcases (writes.refines named).installed inside with earlier | rfl
    · exact (inherited earlier).mono
    · exact Installed.mono ⟨actor, uid ▸ evidence⟩

/-- What backs the write of Succeeded, seen from the whole history. -/
theorem Passes.attested (execution : Passes outside initial history world running)
    (kept : RunsKept outside) (start : initial.WellFormed Resource.schema)
    (begins : Begins outside initial uid fun record => record.phase = some .pending) {actor : Nat}
    {run : Resource} (stored : run ∈ world.objects) (same : run.uid = uid)
    (verified : Verified (localTrace actor history) uid) :
    Attested uid (run.status.get? "snapshot") history := by
  obtain ⟨earlier, event, later, facts, view, split, probed, seen, kind, viewUid, phase, fields, accepted⟩ :=
    verified
  obtain ⟨past, after, rest, whole, first, _⟩ := localTrace_eq_append split
  subst whole
  obtain ⟨_, upTo⟩ := Execution.before execution
  rw [← first] at seen
  obtain ⟨read, unread, _, rfl, reading, member⟩ := Api.Execution.seen_stored upTo kept.orderly start seen
  have installed := Passes.installed reading kept start begins member kind viewUid (.inr (.inl phase))
  have fresh : Begins outside initial uid Record.fresh := begins.mono fun _ => Or.inr
  have sound := Passes.sound reading kept start fresh member kind viewUid
  rw [List.append_assoc] at execution
  obtain ⟨_, _, _, reaches⟩ := Passes.continues execution reading kept start member stored
    (viewUid.trans same.symm) kind (stored_named (Api.Execution.formed reading kept.orderly start) member)
  have started : ¬ (record view.run.status).fresh := by
    rintro (absent | pending)
    · simp [record, phase] at absent
    · simp [record, phase] at pending
  have pinned := (Record.Reaches.pinned reaches sound started).1
  refine ⟨read ++ unread, actor, event, after, rest, facts, view, rfl, installed.mono, probed, viewUid, ?_,
    accepted⟩
  rw [fields]
  exact (congrArg Prod.fst pinned).symm

/-- How a stored run may differ after one moment. -/
structure Progress (history : List (Moment interface Store)) (old new : Resource) : Prop where
  phase : phaseOf new.status = phaseOf old.status ∨
    ∃ earlier later, phaseOf old.status = some earlier ∧ phaseOf new.status = some later ∧
      Phase.Next earlier later
  succeeded : phaseOf new.status = some .succeeded → phaseOf old.status ≠ some .succeeded →
    Attested old.uid (old.status.get? "snapshot") history

/-- What never changes again in a stored run, whatever follows. -/
structure Kept (old new : Resource) : Prop where
  terminal : phaseOf old.status = some .succeeded ∨ phaseOf old.status = some .blocked →
    phaseOf new.status = phaseOf old.status
  pinned : phaseOf old.status ≠ some .pending →
    new.status.get? "snapshot" = old.status.get? "snapshot" ∧
      new.status.get? "attemptID" = old.status.get? "attemptID" ∧
      new.status.get? "sourceBootID" = old.status.get? "sourceBootID"

theorem Passes.progress (execution : Passes outside initial (history ++ [moment]) world running)
    (past : Passes outside initial history before programs) (kept : RunsKept outside)
    (start : initial.WellFormed Resource.schema)
    (begins : Begins outside initial uid fun record => record.phase = some .pending)
    {old new : Resource} (stored : old ∈ before.objects) (present : new ∈ world.objects)
    (kind : old.kind = .provisioningRun) (same : old.uid = uid) (later : new.uid = uid) :
    Progress history old new := by
  have uids : old.uid = new.uid := same.trans later.symm
  have key := Passes.same_key execution past kept.orderly start stored present uids
  rcases Passes.run_step execution past kept start stored present key uids kind with
    ⟨status, _⟩ | ⟨actor, status, _, _, written, _⟩
  · exact ⟨.inl (congrArg phaseOf status), fun ended moved => absurd (status ▸ ended) moved⟩
  · obtain ⟨move, writes, evidence⟩ := written.move
    have formed := Api.Execution.formed past kept.orderly start
    have step := writes.refines (stored_named formed stored)
    rw [← written.merged] at step
    have fresh : Begins outside initial uid Record.fresh := begins.mono fun _ => Or.inr
    have sound := Passes.sound past kept start fresh stored kind same
    refine ⟨step.phase sound (Passes.known past kept start begins stored kind same), ?_⟩
    intro ended moved
    obtain rfl := step.succeeds ended moved
    subst same
    exact Passes.attested past kept start begins stored rfl evidence

end Homelab.Provisioning
