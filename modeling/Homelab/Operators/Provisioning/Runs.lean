import Homelab.Operators.Provisioning.PassConduct

namespace Homelab.Provisioning

open Json (Object)
open Api (Seen)
open Interaction (Program Execution Moment Happening localTrace worldAfter)

/-! # Executions of many passes

Any number of passes over any capture groups, interleaved with each other and
with everyone else who writes to the API.  A pass may stop at any point, and a
write may be applied although the pass never learns of it.
-/

/-- A pass of the provisioning operator, as some executor starts it. -/
def IsPass (program : Program interface (Except Exn Nat)) : Prop :=
  ∃ env preflight, program = main env preflight

/-- Nobody but the operator writes the status or the request of a run. -/
structure RunsKept (outside : Store → Store → Prop) : Prop where
  orderly : Api.Orderly outside
  kept : ∀ before after, outside before after → ∀ old ∈ before.objects, ∀ new ∈ after.objects,
    Resource.schema.key old = Resource.schema.key new → old.uid = new.uid →
      old.kind = .provisioningRun → new.status = old.status ∧ new.spec = old.spec

/-- The run of this identity begins with such a record, be it stored at first or
created later. -/
structure Begins (outside : Store → Store → Prop) (initial : Store) (uid : String)
    (first : Record → Prop) : Prop where
  initial : ∀ run ∈ initial.objects, run.kind = .provisioningRun → run.uid = uid →
    first (record run.status)
  created : ∀ before after, outside before after → ∀ run ∈ after.objects,
    run.kind = .provisioningRun → run.uid = uid → uid ∉ before.issued → first (record run.status)

theorem Begins.mono {outside : Store → Store → Prop} {initial : Store} {uid : String}
    {first weaker : Record → Prop} (begins : Begins outside initial uid first)
    (weaken : ∀ record, first record → weaker record) : Begins outside initial uid weaker :=
  ⟨fun run stored kind same => weaken _ (begins.initial run stored kind same),
    fun before after changed run stored kind same absent =>
      weaken _ (begins.created before after changed run stored kind same absent)⟩

abbrev Passes (outside : Store → Store → Prop) (initial : Store) (history : List (Moment interface Store))
    (world : Store) (running : List (Program interface (Except Exn Nat))) : Prop :=
  Execution (Api.surroundings outside) IsPass initial history world running

variable {outside : Store → Store → Prop} {initial before world : Store}
  {history : List (Moment interface Store)} {moment : Moment interface Store}
  {programs running : List (Program interface (Except Exn Nat))}

/-- Whatever a pass is about to request is permitted by what it has done itself. -/
theorem Passes.permitted (execution : Passes outside initial history world running) {actor : Nat}
    {request : Request} {resume : interface.Reply request → Program interface (Except Exn Nat)}
    (pending : running[actor]? = some (.call request resume)) :
    Permitted (localTrace actor history) request := by
  have meets : ∀ program, IsPass program → program.Meets discipline [] fun _ _ => True := by
    rintro program ⟨env, preflight, rfl⟩
    exact Program.Meets.mono (main_meets env preflight) fun _ _ _ _ => True.intro
  exact Execution.guarded execution (fun _ _ _ _ served => Api.Serve.honest served) meets pending

/-- A write of a pass that took effect, on the very resource the pass had read. -/
structure Applied (before : Store) (trace : Trace) (target : Resource) (status : Object)
    (world : Store) : Prop where
  stored : target ∈ before.objects
  permitted : Permitted trace (.patchStatus target status)
  written : world = before.put Resource.schema (Api.patched before target status)

theorem release_idle {store : Store} {updated : Resource} (kind : updated.kind ≠ .operation) :
    Api.release store updated = store := by
  simp [Api.release, kind]

theorem permitted_kind {trace : Trace} {target : Resource} {status : Object}
    (permitted : Permitted trace (.patchStatus target status)) :
    target.kind = .provisioningRun ∨ target.kind = .server := by
  have allowed := permitted.2
  cases kind : target.kind <;> simp [kind] at allowed ⊢

/-- A write that takes effect is one that its pass is permitted to make. -/
theorem Passes.applied (past : Passes outside initial history before programs)
    (orderly : Api.Orderly outside) (start : initial.WellFormed Resource.schema) {actor : Nat}
    {target updated : Resource} {status : Object}
    {resume : Except Exn Resource → Program interface (Except Exn Nat)}
    (pending : programs[actor]? = some (.call (.patchStatus target status) resume))
    (written : Api.patch before target status = some (updated, world)) :
    Applied before (localTrace actor history) target status world ∧
      updated = Api.patched before target status := by
  have permitted := Passes.permitted past pending
  obtain ⟨current, found, rfl, rfl⟩ := Api.patch_eq_some written
  have agrees := (Api.Execution.agrees past orderly start permitted.1).1
  obtain rfl := agrees.current found
  have kind : (Api.patched before current status).kind ≠ .operation := by
    rcases permitted_kind permitted with kind | kind <;> simp [Api.patched, kind]
  exact ⟨⟨(Versioned.Store.mem_of_current? found).1, permitted, by rw [release_idle kind]⟩, rfl⟩

theorem Passes.acknowledged {actor : Nat} {target updated : Resource} {status : Object}
    {after : Store}
    (execution : Passes outside initial
      (history ++ [⟨.act actor ⟨.patchStatus target status, .ok updated⟩, after⟩]) world running)
    (past : Passes outside initial history before programs) (orderly : Api.Orderly outside)
    (start : initial.WellFormed Resource.schema) :
    Applied before (localTrace actor history) target status world ∧
      updated = Api.patched before target status := by
  obtain ⟨prior, _, _, first, pending, served, _⟩ := execution.act_cases
  obtain rfl := past.world_unique first
  cases served with
  | applied written => exact Passes.applied first orderly start pending written

/-- What one moment does to the store: nothing, a change by others, or a write
that a pass is permitted to make. -/
theorem Passes.last (execution : Passes outside initial (history ++ [moment]) world running)
    (past : Passes outside initial history before programs) (orderly : Api.Orderly outside)
    (start : initial.WellFormed Resource.schema) :
    world = before ∨ outside before world ∨
      ∃ actor target status reply, moment = ⟨.act actor ⟨.patchStatus target status, reply⟩, world⟩ ∧
        Applied before (localTrace actor history) target status world ∧
        ((∃ failure, reply = .error failure) ∨ reply = .ok (Api.patched before target status)) := by
  obtain ⟨prior, earlier, first, after, step⟩ := execution.last_cases
  obtain rfl := past.world_unique first
  rcases step with ⟨actor, request, resume, reply, acted, pending, served, _⟩ | ⟨_, changed, _⟩ |
    ⟨_, same, _⟩
  · have shape : moment = ⟨.act actor ⟨request, reply⟩, world⟩ := by
      cases moment
      simp_all
    have permitted := Passes.permitted first pending
    cases served with
    | @applied _ target updated status written =>
        obtain ⟨applied, rfl⟩ := Passes.applied first orderly start pending written
        exact .inr (.inr ⟨actor, target, status, _, shape, applied, .inr rfl⟩)
    | @lost _ target updated status failure written =>
        obtain ⟨applied, rfl⟩ := Passes.applied first orderly start pending written
        exact .inr (.inr ⟨actor, target, status, _, shape, applied, .inl ⟨failure, rfl⟩⟩)
    | created => exact permitted.elim
    | createdLost => exact permitted.elim
    | _ => exact .inl rfl
  · exact .inr (.inl changed)
  · exact .inl same

/-- The write of a pass to the run that is stored. -/
structure RunWritten (trace : Trace) (old : Resource) (status : Object) (new : Resource) : Prop where
  seen : Seen trace old
  kind : old.kind = .provisioningRun
  merged : new.status = Json.mergeFields old.status status
  spec : new.spec = old.spec
  move : ∃ move, Writes old move status ∧ Evidence trace old move

/-- One moment leaves a run alone, or makes one backed move of it. -/
theorem Passes.run_step (execution : Passes outside initial (history ++ [moment]) world running)
    (past : Passes outside initial history before programs) (kept : RunsKept outside)
    (start : initial.WellFormed Resource.schema) {old new : Resource} (stored : old ∈ before.objects)
    (present : new ∈ world.objects) (key : Resource.schema.key old = Resource.schema.key new)
    (uid : old.uid = new.uid) (kind : old.kind = .provisioningRun) :
    new.status = old.status ∧ new.spec = old.spec ∨
      ∃ actor status reply, moment = ⟨.act actor ⟨.patchStatus old status, reply⟩, world⟩ ∧
        RunWritten (localTrace actor history) old status new ∧
        ((∃ failure, reply = .error failure) ∨ reply = .ok new) := by
  have formed := Api.Execution.formed past kept.orderly start
  rcases Passes.last execution past kept.orderly start with rfl | changed |
    ⟨actor, target, status, reply, shape, applied, answered⟩
  · obtain rfl := formed.unique stored present key
    exact .inl ⟨rfl, rfl⟩
  · exact .inl (kept.kept _ _ changed old stored new present key uid kind)
  · have written := present
    rw [applied.written] at written
    rcases Versioned.Store.mem_put.mp written with ⟨other, member, same, rfl⟩ | ⟨member, different⟩
    · obtain rfl := formed.unique stored applied.stored (key.trans rfl)
      have allowed := applied.permitted
      simp only [Permitted, kind] at allowed
      exact .inr ⟨actor, status, reply, shape, ⟨allowed.1, kind, rfl, rfl, allowed.2⟩, answered⟩
    · obtain rfl := formed.unique stored member key
      exact .inl ⟨rfl, rfl⟩

/-- Two versions of one run: the later one has the same request, and its record
is where moves of passes lead. -/
def Continues (old new : Resource) : Prop :=
  old.kind = .provisioningRun → old.uid ≠ "" →
    new.kind = .provisioningRun ∧ new.uid = old.uid ∧ new.spec = old.spec ∧
      Record.Reaches (record old.status) (record new.status)

theorem Continues.trans {first second third : Resource} (left : Continues first second)
    (right : Continues second third) : Continues first third := by
  intro kind named
  obtain ⟨kind', uid, spec, reaches⟩ := left kind named
  obtain ⟨kind'', uid', spec', reaches'⟩ := right kind' (uid ▸ named)
  exact ⟨kind'', uid'.trans uid, spec'.trans spec, Relation.ReflTransGen.trans reaches reaches'⟩

theorem Passes.continues_step (execution : Passes outside initial (history ++ [moment]) world running)
    (past : Passes outside initial history before programs) (kept : RunsKept outside)
    (start : initial.WellFormed Resource.schema) {old new : Resource} (stored : old ∈ before.objects)
    (present : new ∈ world.objects) (key : Resource.schema.key old = Resource.schema.key new)
    (uid : old.uid = new.uid) : Continues old new := by
  intro kind named
  have newKind : new.kind = .provisioningRun := (congrArg Prod.fst key).symm.trans kind
  rcases Passes.run_step execution past kept start stored present key uid kind with
    ⟨status, spec⟩ | ⟨_, status, _, _, written, _⟩
  · exact ⟨newKind, uid.symm, spec, status ▸ Relation.ReflTransGen.refl⟩
  · obtain ⟨move, writes, _⟩ := written.move
    have step := writes.refines named
    rw [← written.merged] at step
    exact ⟨newKind, uid.symm, written.spec, .single ⟨move, step⟩⟩

/-- What was stored of a run is where a later version of it comes from. -/
theorem Passes.continues {past later : List (Moment interface Store)}
    (execution : Passes outside initial (past ++ later) world running)
    (earlier : Passes outside initial past before programs) (kept : RunsKept outside)
    (start : initial.WellFormed Resource.schema) {old new : Resource} (stored : old ∈ before.objects)
    (present : new ∈ world.objects) (uid : old.uid = new.uid) : Continues old new := by
  refine Api.Execution.carries (fun _ version => Continues old version) kept.orderly start ?_
    execution earlier stored present uid fun kind _ => ⟨kind, rfl, rfl, Relation.ReflTransGen.refl⟩
  intro past moment before after programs resumed first second version member next stored key same before
  exact before.trans (Passes.continues_step second first kept start member stored key same)

/-- So is what a pass has read of it. -/
theorem Passes.continues_seen (execution : Passes outside initial history world running)
    (kept : RunsKept outside) (start : initial.WellFormed Resource.schema) {actor : Nat}
    {seen run : Resource} (read : Seen (localTrace actor history) seen) (stored : run ∈ world.objects)
    (uid : seen.uid = run.uid) : Continues seen run := by
  obtain ⟨past, later, programs, rfl, earlier, member⟩ :=
    Api.Execution.seen_stored execution kept.orderly start read
  exact Passes.continues execution earlier kept start member stored uid

theorem stored_named {store : Store} (formed : store.WellFormed Resource.schema) {resource : Resource}
    (stored : resource ∈ store.objects) : resource.uid ≠ "" := by
  intro empty
  exact formed.named (empty ▸ formed.issued resource stored)

/-- A stored object was stored before, or others have just created it. -/
theorem Passes.appeared (execution : Passes outside initial (history ++ [moment]) world running)
    (past : Passes outside initial history before programs) (orderly : Api.Orderly outside)
    (start : initial.WellFormed Resource.schema) {new : Resource} (present : new ∈ world.objects) :
    (∃ old ∈ before.objects, Resource.schema.key old = Resource.schema.key new ∧ old.uid = new.uid) ∨
      outside before world ∧ new.uid ∉ before.issued := by
  by_cases known : new.uid ∈ before.issued
  · exact .inl ((Api.Execution.last_advances execution past orderly start).identities new present known)
  · refine .inr ⟨?_, known⟩
    rcases Passes.last execution past orderly start with rfl | changed |
      ⟨_, target, status, _, _, applied, _⟩
    · exact absurd ((Api.Execution.formed past orderly start).issued new present) known
    · exact changed
    · rw [applied.written] at present
      rcases Versioned.Store.mem_put.mp present with ⟨_, _, _, rfl⟩ | ⟨member, _⟩
      · exact absurd ((Api.Execution.formed past orderly start).issued target applied.stored) known
      · exact absurd ((Api.Execution.formed past orderly start).issued new member) known

/-- One identity stays under one name. -/
theorem Passes.same_key (execution : Passes outside initial (history ++ [moment]) world running)
    (past : Passes outside initial history before programs) (orderly : Api.Orderly outside)
    (start : initial.WellFormed Resource.schema) {old new : Resource} (stored : old ∈ before.objects)
    (present : new ∈ world.objects) (uid : old.uid = new.uid) :
    Resource.schema.key old = Resource.schema.key new := by
  have formed := Api.Execution.formed past orderly start
  rcases Passes.appeared execution past orderly start present with ⟨other, member, key, same⟩ | ⟨_, absent⟩
  · rw [formed.identical stored member (uid.trans same.symm)]
    exact key
  · rw [← uid] at absent
    exact absurd (formed.issued old stored) absent

/-- What holds of a run as it begins, and what every moment preserves, holds in
every world an execution leads to. -/
theorem Passes.every_run (execution : Passes outside initial history world running)
    (kept : RunsKept outside) (start : initial.WellFormed Resource.schema) {uid : String}
    {first : Record → Prop} (begins : Begins outside initial uid first)
    (holds : List (Moment interface Store) → Resource → Prop)
    (begin : ∀ history run, first (record run.status) → holds history run)
    (silent : ∀ history moment old new, holds history old →
      Resource.schema.key old = Resource.schema.key new → old.uid = new.uid →
      new.status = old.status → new.spec = old.spec → holds (history ++ [moment]) new)
    (write : ∀ history moment actor old status new before programs,
      Passes outside initial history before programs → old ∈ before.objects → old.uid = uid →
      Resource.schema.key old = Resource.schema.key new → old.uid = new.uid →
      holds history old → RunWritten (localTrace actor history) old status new →
      holds (history ++ [moment]) new)
    {run : Resource} (stored : run ∈ world.objects) (kind : run.kind = .provisioningRun)
    (same : run.uid = uid) : holds history run := by
  induction history using List.reverseRecOn generalizing world running run with
  | nil =>
      rw [execution.nil_world] at stored
      exact begin _ _ (begins.initial run stored kind same)
  | append_singleton earlier moment ih =>
      obtain ⟨before, programs, past, _⟩ := execution.last_cases
      rcases Passes.appeared execution past kept.orderly start stored with
        ⟨old, member, key, uid⟩ | ⟨changed, absent⟩
      · have oldKind : old.kind = .provisioningRun := (congrArg Prod.fst key).trans kind
        have inherited := ih past member oldKind (uid.trans same)
        rcases Passes.run_step execution past kept start member stored key uid oldKind with
          ⟨status, spec⟩ | ⟨_, _, _, _, written, _⟩
        · exact silent _ _ _ _ inherited key uid status spec
        · exact write _ _ _ _ _ _ _ _ past member (uid.trans same) key uid inherited written
      · exact begin _ _ (begins.created _ _ changed run stored kind same (same ▸ absent))

/-- A run that began in Pending is always in a phase. -/
theorem Passes.known (execution : Passes outside initial history world running)
    (kept : RunsKept outside) (start : initial.WellFormed Resource.schema) {uid : String}
    (begins : Begins outside initial uid fun record => record.phase = some .pending) {run : Resource}
    (stored : run ∈ world.objects) (kind : run.kind = .provisioningRun) (same : run.uid = uid) :
    phaseOf run.status ≠ none := by
  refine Passes.every_run execution kept start begins (fun _ run => phaseOf run.status ≠ none)
    (fun _ _ found => ?_) (fun _ _ _ _ known _ _ status _ => status ▸ known) ?_ stored kind same
  · exact Option.ne_none_iff_exists'.mpr ⟨_, found⟩
  · intro history moment actor old status new before programs past member _ _ _ known written
    obtain ⟨move, writes, _⟩ := written.move
    have named := stored_named (Api.Execution.formed past kept.orderly start) member
    rw [written.merged]
    exact (writes.refines named).known known

/-- A run that began unclaimed stays sound. -/
theorem Passes.sound (execution : Passes outside initial history world running)
    (kept : RunsKept outside) (start : initial.WellFormed Resource.schema) {uid : String}
    (begins : Begins outside initial uid Record.fresh) {run : Resource} (stored : run ∈ world.objects)
    (kind : run.kind = .provisioningRun) (same : run.uid = uid) : (record run.status).Sound := by
  refine Passes.every_run execution kept start begins (fun _ run => (record run.status).Sound)
    (fun _ _ => Record.Sound.fresh) (fun _ _ _ _ sound _ _ status _ => ?_) ?_ stored kind same
  · exact status ▸ sound
  · intro history moment actor old status new before programs past member _ _ _ sound written
    obtain ⟨move, writes, _⟩ := written.move
    have named := stored_named (Api.Execution.formed past kept.orderly start) member
    rw [written.merged]
    exact (writes.refines named).sound sound

theorem Passes.seen_sound (execution : Passes outside initial history world running)
    (kept : RunsKept outside) (start : initial.WellFormed Resource.schema) {uid : String}
    (begins : Begins outside initial uid Record.fresh) {actor : Nat} {seen : Resource}
    (read : Seen (localTrace actor history) seen) (kind : seen.kind = .provisioningRun)
    (same : seen.uid = uid) : (record seen.status).Sound := by
  obtain ⟨past, later, _, rfl, earlier, member⟩ :=
    Api.Execution.seen_stored execution kept.orderly start read
  exact Passes.sound earlier kept start begins member kind same

end Homelab.Provisioning
