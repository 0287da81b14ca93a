import Homelab.Operators.Provisioning.Rehearsal

namespace Homelab.Provisioning

open Json (Object)
open Api (Seen)
open Interaction (Program Execution Moment Happening localTrace worldAfter)

/-! # Ownership of a Server

A run holds its Server from its claim on.  The reservation is written by the
others only while it is unset, and given back by a pass only for a run that it
has read as ended.
-/

/-- Nobody but the operator edits a reservation that is set. -/
def ReservationsKept (outside : Store → Store → Prop) : Prop :=
  ∀ before after, outside before after → ∀ old ∈ before.objects, ∀ new ∈ after.objects,
    Resource.schema.key old = Resource.schema.key new → old.uid = new.uid →
      old.kind = .server → activeRef old ≠ [] → activeRef new = activeRef old

/-- The Server this run was created for. -/
def Serves (run server : Resource) : Prop :=
  server.kind = .server ∧
    ∃ serverRef, run.spec.get? "serverRef" = some serverRef ∧ Json.Same serverRef server.reference

/-- Some pass has read that the run of this identity has ended without
retaining maintenance. -/
def Ended (uid : String) (history : List (Moment interface Store)) : Prop :=
  ∃ actor run, Seen (localTrace actor history) run ∧ run.kind = .provisioningRun ∧ run.uid = uid ∧
    (phaseOf run.status = some .succeeded ∨ phaseOf run.status = some .blocked) ∧
    holds run.status "maintenance" = false

theorem Ended.mono {uid : String} {history later : List (Moment interface Store)}
    (ended : Ended uid history) : Ended uid (history ++ later) := by
  obtain ⟨actor, run, seen, facts⟩ := ended
  exact ⟨actor, run, seen.append, facts⟩

theorem reference_fields {fields : Object} {resource : Resource}
    (same : Json.Same (.obj fields) resource.reference) :
    fields.get? "name" = some (.str resource.name) ∧ fields.get? "uid" = some (.str resource.uid) :=
  ⟨same.get?_str rfl, same.get?_str rfl⟩

theorem reference_uid {left right : Resource} (same : Json.Same left.reference right.reference) :
    left.uid = right.uid := by
  have uid := (reference_fields same).2
  simpa [Object.get?] using uid

variable {outside : Store → Store → Prop} {initial before world : Store} {uid : String}
  {history : List (Moment interface Store)} {moment : Moment interface Store}
  {programs running : List (Program interface (Except Exn Nat))}

/-- A run that was read as ended is stored as such ever since. -/
theorem Passes.ended (execution : Passes outside initial history world running)
    (kept : RunsKept outside) (start : initial.WellFormed Resource.schema) (ended : Ended uid history)
    {run : Resource} (stored : run ∈ world.objects) (same : run.uid = uid) :
    (phaseOf run.status = some .succeeded ∨ phaseOf run.status = some .blocked) ∧
      holds run.status "maintenance" = false := by
  obtain ⟨actor, seen, read, kind, seenUid, phase, free⟩ := ended
  have named := stored_named (Api.Execution.formed execution kept.orderly start) stored
  have uids : seen.uid = run.uid := seenUid.trans same.symm
  rw [← uids] at named
  obtain ⟨_, _, _, reaches⟩ := Passes.continues_seen execution kept start read stored uids kind named
  have equal := Record.Reaches.terminal reaches phase
  have phases : phaseOf run.status = phaseOf seen.status := congrArg Record.phase equal
  have maintenance : run.status.get? "maintenance" = seen.status.get? "maintenance" :=
    congrArg Record.maintenance equal
  exact ⟨phases ▸ phase, by rw [holds, maintenance]; exact free⟩

/-- One moment leaves a reservation alone, or gives it back for a run that ended. -/
theorem Passes.reserved_step (execution : Passes outside initial (history ++ [moment]) world running)
    (past : Passes outside initial history before programs) (kept : RunsKept outside)
    (reserved : ReservationsKept outside) (start : initial.WellFormed Resource.schema)
    {old new run : Resource} (stored : old ∈ before.objects) (present : new ∈ world.objects)
    (uid : old.uid = new.uid) (kind : old.kind = .server) (names : Names old run) :
    Names new run ∨ Ended run.uid history := by
  have formed := Api.Execution.formed past kept.orderly start
  have key := Passes.same_key execution past kept.orderly start stored present uid
  rcases Passes.last execution past kept.orderly start with rfl | changed |
    ⟨actor, target, status, reply, shape, applied, _⟩
  · obtain rfl := formed.identical stored present uid
    exact .inl names
  · have set : activeRef old ≠ [] := fun empty => by simp [Names, empty] at names
    have same := reserved _ _ changed old stored new present key uid kind set
    exact .inl (by rwa [Names, same])
  · rw [applied.written] at present
    rcases Versioned.Store.mem_put.mp present with ⟨other, member, same, rfl⟩ | ⟨member, different⟩
    · obtain rfl := formed.unique stored applied.stored (key.trans rfl)
      have allowed := applied.permitted
      simp only [Permitted, kind] at allowed
      obtain ⟨ended, phase, seen, endedKind, found, terminal, free, ref, _⟩ := allowed.2
      have uids : ended.uid = run.uid := by
        have given := (reference_fields ref).2
        rw [names.2] at given
        simpa using given.symm
      exact .inr ⟨actor, ended, seen, endedKind, uids,
        terminal.imp (found.trans <| congrArg some ·) (found.trans <| congrArg some ·), free⟩
    · obtain rfl := formed.unique stored member key
      exact .inl names

theorem Passes.reserved {past later : List (Moment interface Store)}
    (execution : Passes outside initial (past ++ later) world running)
    (earlier : Passes outside initial past before programs) (kept : RunsKept outside)
    (reserved : ReservationsKept outside) (start : initial.WellFormed Resource.schema)
    {old new run : Resource} (stored : old ∈ before.objects) (present : new ∈ world.objects)
    (uid : old.uid = new.uid) (kind : old.kind = .server) (names : Names old run) :
    Names new run ∨ Ended run.uid (past ++ later) := by
  refine (Api.Execution.carries
    (fun history version => version.kind = .server ∧ (Names version run ∨ Ended run.uid history))
    kept.orderly start ?_ execution earlier stored present uid ⟨kind, .inl names⟩).2
  rintro history moment before after programs resumed first second version member next present key same
    ⟨kind, names | ended⟩
  · exact ⟨(congrArg Prod.fst key).symm.trans kind,
      (Passes.reserved_step second first kept reserved start member present same kind names).imp id
        Ended.mono⟩
  · exact ⟨(congrArg Prod.fst key).symm.trans kind, .inr ended.mono⟩

/-- A run that is claimed was claimed for a Server that named it. -/
def Claimed (history : List (Moment interface Store)) (run : Resource) : Prop :=
  ∃ actor server, Seen (localTrace actor history) server ∧ Serves run server ∧ Names server run

theorem Claimed.mono {later : List (Moment interface Store)} {old new : Resource}
    (claimed : Claimed history old) (key : Resource.schema.key old = Resource.schema.key new)
    (uid : old.uid = new.uid) (spec : new.spec = old.spec) : Claimed (history ++ later) new := by
  obtain ⟨actor, server, seen, serves, names⟩ := claimed
  refine ⟨actor, server, seen.append, ?_, ?_⟩
  · rwa [Serves, spec]
  · have name : old.name = new.name := congrArg Prod.snd key
    rwa [Names, ← name, ← uid]

theorem Passes.claimed (execution : Passes outside initial history world running)
    (kept : RunsKept outside) (start : initial.WellFormed Resource.schema)
    (begins : Begins outside initial uid Record.fresh) {run : Resource} (stored : run ∈ world.objects)
    (kind : run.kind = .provisioningRun) (same : run.uid = uid)
    (started : ¬ (record run.status).fresh) : Claimed history run := by
  refine Passes.every_run execution kept start begins
    (fun history run => ¬ (record run.status).fresh → Claimed history run)
    (fun _ _ fresh started => absurd fresh started)
    (fun _ _ _ _ inherited key uid status spec started =>
      (inherited (status ▸ started)).mono key uid spec) ?_ stored kind same started
  intro history moment actor old status new before programs past member same key uid inherited written started
  by_cases fresh : (record old.status).fresh
  · obtain ⟨move, writes, evidence⟩ := written.move
    have named := stored_named (Api.Execution.formed past kept.orderly start) member
    rw [written.merged] at started
    obtain rfl := (writes.refines named).claims fresh started
    obtain ⟨server, seen, serverKind, names, ref, _⟩ := evidence
    exact Claimed.mono ⟨actor, server, seen, ⟨serverKind, ref⟩, names⟩ key uid written.spec
  · exact (inherited fresh).mono key uid written.spec

/-- A run that is claimed and has not ended is named by its Server. -/
theorem Passes.names (execution : Passes outside initial history world running)
    (kept : RunsKept outside) (reserved : ReservationsKept outside)
    (start : initial.WellFormed Resource.schema) (begins : Begins outside initial uid Record.fresh)
    {run server : Resource} (stored : run ∈ world.objects) (kind : run.kind = .provisioningRun)
    (same : run.uid = uid) (started : ¬ (record run.status).fresh)
    (held : holds run.status "maintenance" = true) (present : server ∈ world.objects)
    (serves : Serves run server) : Names server run := by
  obtain ⟨actor, claimant, seen, ⟨claimantKind, ref, found, sameRef⟩, names⟩ :=
    Passes.claimed execution kept start begins stored kind same started
  obtain ⟨serverKind, other, otherFound, otherRef⟩ := serves
  obtain rfl : ref = other := Option.some.inj (found.symm.trans otherFound)
  have uids : claimant.uid = server.uid := reference_uid (sameRef.symm.trans otherRef)
  obtain ⟨past, later, _, rfl, earlier, member⟩ :=
    Api.Execution.seen_stored execution kept.orderly start seen
  refine (Passes.reserved execution earlier kept reserved start member present uids claimantKind
    names).resolve_right fun ended => ?_
  have free := (Passes.ended execution kept start ended stored rfl).2
  simp [held] at free

/-- A write that records on a Server that this run has provisioned it. -/
def RecordsSuccess (run : Resource) (request : Request) : Prop :=
  ∃ (server : Resource) (status fields : Object), request = .patchStatus server status ∧ server.kind = .server ∧
    status.get? "provisioning" = some (.obj fields) ∧ fields.get? "provisioned" = some (.bool true) ∧
    fields.get? "lastSuccessfulRunRef" = some run.reference

theorem Passes.records (execution : Passes outside initial history world running)
    (kept : RunsKept outside) (start : initial.WellFormed Resource.schema) {actor : Nat}
    {request : Request} {resume : interface.Reply request → Program interface (Except Exn Nat)}
    (pending : running[actor]? = some (.call request resume)) {run : Resource}
    (stored : run ∈ world.objects) (records : RecordsSuccess run request) :
    phaseOf run.status = some .succeeded := by
  obtain ⟨server, status, fields, rfl, kind, found, provisioned, successful⟩ := records
  have allowed := Passes.permitted execution pending
  simp only [Permitted, kind] at allowed
  obtain ⟨ended, phase, seen, endedKind, phaseFound, terminal, _, _, rfl⟩ := allowed.2
  obtain rfl : releaseFields ended phase.json = fields := by simpa [Object.get?] using found
  rcases terminal with rfl | rfl
  · have same : ended.reference = run.reference := by
      simpa [releaseFields, Object.get?] using successful
    have uids : ended.uid = run.uid := reference_uid (by rw [same]; exact Json.Same.refl _)
    have named := stored_named (Api.Execution.formed execution kept.orderly start) stored
    rw [← uids] at named
    obtain ⟨_, _, _, reaches⟩ :=
      Passes.continues_seen execution kept start seen stored uids endedKind named
    have equal := Record.Reaches.terminal reaches (.inl phaseFound)
    exact (congrArg Record.phase equal).trans phaseFound
  · simp [releaseFields, Object.get?, Phase.json, Phase.text] at provisioned

/-- Once a run was in Installing, its Server stays reserved for it under
maintenance until it has succeeded, and success is recorded on the Server only
for a run that is stored as Succeeded. -/
theorem ownership_retained (execution : Passes outside initial history world running)
    (kept : RunsKept outside) (reserved : ReservationsKept outside)
    (start : initial.WellFormed Resource.schema) (begins : Begins outside initial uid Record.fresh) :
    (∀ past later, history = past ++ later →
      ∀ old ∈ (worldAfter initial past).objects, ∀ new ∈ world.objects,
        old.kind = .provisioningRun → old.uid = uid → new.uid = uid →
          phaseOf old.status = some .installing → phaseOf new.status ≠ some .succeeded →
            new.status.get? "maintenance" = some (.bool true) ∧
              ∀ server ∈ world.objects, Serves new server → Names server new) ∧
    (∀ (actor : Nat) (request : Request) resume, running[actor]? = some (Program.call request resume) →
      ∀ run ∈ world.objects, RecordsSuccess run request → phaseOf run.status = some .succeeded) := by
  constructor
  · rintro past later rfl old stored new present kind same newUid installing unfinished
    obtain ⟨_, earlier⟩ := Execution.before execution
    have named := stored_named (Api.Execution.formed earlier kept.orderly start) stored
    obtain ⟨newKind, _, _, reaches⟩ := Passes.continues execution earlier kept start stored present
      (same.trans newUid.symm) kind named
    have sound := Passes.sound earlier kept start begins stored kind same
    have held := sound.maintenance (Record.active_of_phase installing (by simp [ACTIVE]))
    have entered := reaches.entered sound (.inr ⟨held, .inl installing⟩)
    obtain ⟨maintenance, phase⟩ := entered.resolve_left unfinished
    have maintained : holds new.status "maintenance" = true := by
      simp only [holds, show new.status.get? "maintenance" = _ from maintenance]
      rfl
    have started : ¬ (record new.status).fresh := by
      rintro (absent | pending)
      · simp [absent] at phase
      · simp [pending] at phase
    exact ⟨maintenance, fun server member serves =>
      Passes.names execution kept reserved start begins present newKind newUid started maintained member
        serves⟩
  · intro actor request resume pending run stored records
    exact Passes.records execution kept start pending stored records

theorem reservationsKept_alone : ReservationsKept alone := fun _ _ changed => changed.elim

/-- The rehearsed run is stored in Installing. -/
theorem ownership_retained_rehearsed :
    ∃ play, Rehearsal.rehearse Rehearsal.deployment ["group"] Rehearsal.installing = some play ∧
      Rehearsal.standsIn "run" .installing play = true ∧
      ∀ past later, play.history = past ++ later →
        ∀ old ∈ (worldAfter Rehearsal.deployment past).objects, ∀ new ∈ play.world.objects,
          old.kind = .provisioningRun → old.uid = Rehearsal.uidOf "run" →
            new.uid = Rehearsal.uidOf "run" → phaseOf old.status = some .installing →
              phaseOf new.status ≠ some .succeeded →
                new.status.get? "maintenance" = some (.bool true) ∧
                  ∀ server ∈ play.world.objects, Serves new server → Names server new := by
  have enters : (Rehearsal.rehearse Rehearsal.deployment ["group"] Rehearsal.installing).any
      (Rehearsal.standsIn "run" .installing) = true := by
    decide +kernel
  obtain ⟨play, found, stands⟩ := (Option.any_eq_true _ _).mp enters
  exact ⟨play, found, stands, (ownership_retained (Rehearsal.passes found) runsKept_alone
    reservationsKept_alone Rehearsal.deployment_formed
    ((Rehearsal.begins_pending _).mono fun _ => Or.inr)).1⟩

end Homelab.Provisioning
