import Homelab.Operators.Provisioning.Ownership

namespace Homelab.Provisioning

open Json (Object)
open Api (Seen)
open Interaction (Program Execution Moment Happening localTrace localTrace_append localTrace_eq_append
  mem_localTrace worldAfter worldAfter_append worldAfter_append_append)

/-! # One attempt at a time

A pass checks every other Server and then claims its own run, by a conditional
write that does not cover what it has checked.  The exclusion holds as long as
nothing else is claimed between the check and the claim.
-/

/-- The Server has an active run that retains maintenance. -/
structure Busy (store : Store) (server run : Resource) : Prop where
  serverStored : server ∈ store.objects
  runStored : run ∈ store.objects
  kind : run.kind = .provisioningRun
  serves : Serves run server
  names : Names server run
  held : (record run.status).held

def AtMostOne (store : Store) : Prop :=
  ∀ server run other another, Busy store server run → Busy store other another → server = other

/-- Others create runs unclaimed, and reserve Servers for unclaimed runs only. -/
structure OthersIdle (outside : Store → Store → Prop) : Prop where
  created : ∀ before after, outside before after → ∀ run ∈ after.objects,
    run.kind = .provisioningRun → run.uid ∉ before.issued →
      (record run.status).fresh ∧ holds run.status "maintenance" = false
  reserved : ∀ before after, outside before after → ∀ server ∈ after.objects, ∀ run ∈ after.objects,
    (record run.status).held → Names server run →
      ∃ old ∈ before.objects, Resource.schema.key old = Resource.schema.key server ∧
        old.uid = server.uid ∧ Names old run

/-- The request that claims a run. -/
def ClaimBy (actor : Nat) (run : Resource) (moment : Moment interface Store) : Prop :=
  ∃ fields reply, moment.happening = .act actor ⟨.patchStatus run fields, reply⟩ ∧
    run.kind = .provisioningRun ∧ (fields.get? "attemptID").isSome

/-- No claim takes effect in this part of a history. -/
def Unclaimed (store : Store) (history : List (Moment interface Store)) : Prop :=
  ∀ earlier moment later actor run, history = earlier ++ moment :: later → ClaimBy actor run moment →
    moment.after = worldAfter store earlier

/-- No claim takes effect between the check that a pass makes of the other
Servers and its own claim. -/
def Undisturbed (history : List (Moment interface Store)) : Prop :=
  ∀ past actor servers listed between claim later run,
    history = past ++ ⟨.act actor ⟨.list .server, .ok servers⟩, listed⟩ :: (between ++ claim :: later) →
      (∀ event ∈ localTrace actor between, isListing event.request = false) →
        ClaimBy actor run claim → Unclaimed listed between

theorem Undisturbed.before {history later : List (Moment interface Store)}
    (undisturbed : Undisturbed (history ++ later)) : Undisturbed history := by
  rintro past actor servers listed between claim rest run rfl
  exact undisturbed past actor servers listed between claim (rest ++ later) run (by simp)

theorem Unclaimed.append {store : Store} {first second : List (Moment interface Store)}
    (unclaimed : Unclaimed store (first ++ second)) :
    Unclaimed store first ∧ Unclaimed (worldAfter store first) second := by
  constructor
  · rintro earlier moment later actor run rfl claim
    exact unclaimed earlier moment (later ++ second) actor run (by simp) claim
  · rintro earlier moment later actor run rfl claim
    rw [← worldAfter_append_append]
    exact unclaimed (first ++ earlier) moment later actor run (by simp) claim

theorem Writes.claims {run : Resource} {fields : Object} (writes : Writes run .claim fields) :
    (fields.get? "attemptID").isSome := by
  cases writes
  simp [claimFields]

/-- A reservation that was given back names nobody. -/
theorem activeRef_released (store : Store) (server run : Resource) (phase : Json) :
    activeRef (Api.patched store server [("provisioning", .obj (releaseFields run phase))]) = [] := by
  have distinct : ((releaseFields run phase).map Prod.fst).Nodup := by
    unfold releaseFields
    split <;> simp
  have cleared : (releaseFields run phase).get? "activeRunRef" = some .null := by
    simp [releaseFields]
  simp only [activeRef, Api.patched, value, Json.mergeFields_obj, Json.mergeFields_nil,
    Object.get?_set_self, Option.getD_some, Json.fields]
  rw [Json.get?_mergeFields _ _ distinct, cleared]
  rfl

variable {outside : Store → Store → Prop} {initial before world : Store}
  {history : List (Moment interface Store)} {moment : Moment interface Store}
  {programs running : List (Program interface (Except Exn Nat))}

/-- Attempts under way retain maintenance if they did so at first. -/
theorem Passes.maintained (execution : Passes outside initial history world running)
    (kept : RunsKept outside) (idle : OthersIdle outside) (start : initial.WellFormed Resource.schema)
    (maintained : ∀ run ∈ initial.objects, run.kind = .provisioningRun → (record run.status).maintained)
    {run : Resource} (stored : run ∈ world.objects) (kind : run.kind = .provisioningRun) :
    (record run.status).maintained := by
  have begins : Begins outside initial run.uid Record.maintained := by
    refine ⟨fun other member otherKind _ => maintained other member otherKind, ?_⟩
    intro before after changed other member otherKind same absent
    have fresh := (idle.created before after changed other member otherKind (same ▸ absent)).1
    exact fun active => (Record.Sound.fresh fresh).maintenance active ▸ rfl
  refine Passes.every_run execution kept start begins (fun _ run => (record run.status).maintained)
    (fun _ _ => id) (fun _ _ _ _ inherited _ _ status _ => status ▸ inherited) ?_ stored kind rfl
  intro history moment actor old status new before programs past member _ _ _ inherited written
  obtain ⟨move, writes, _⟩ := written.move
  have named := stored_named (Api.Execution.formed past kept.orderly start) member
  rw [written.merged]
  exact (writes.refines named).maintained inherited

/-- A run that retains maintenance did so before, or has just been claimed. -/
theorem Passes.held_step (execution : Passes outside initial (history ++ [moment]) world running)
    (past : Passes outside initial history before programs) (kept : RunsKept outside)
    (idle : OthersIdle outside) (start : initial.WellFormed Resource.schema)
    (maintained : ∀ run ∈ initial.objects, run.kind = .provisioningRun → (record run.status).maintained)
    {new : Resource} (present : new ∈ world.objects) (kind : new.kind = .provisioningRun)
    (held : (record new.status).held) :
    ∃ old ∈ before.objects, Resource.schema.key old = Resource.schema.key new ∧ old.uid = new.uid ∧
      new.spec = old.spec ∧
        ((record old.status).held ∨ ∃ actor, ClaimBy actor old moment ∧ world ≠ before ∧
          ClaimBacked (localTrace actor history) old) := by
  by_cases same : world = before
  · exact ⟨new, same ▸ present, rfl, rfl, rfl, .inl held⟩
  · rcases Passes.appeared execution past kept.orderly start present with
      ⟨old, stored, key, uid⟩ | ⟨changed, absent⟩
    · have oldKind : old.kind = .provisioningRun := (congrArg Prod.fst key).trans kind
      rcases Passes.run_step execution past kept start stored present key uid oldKind with
        ⟨status, spec⟩ | ⟨actor, status, reply, shape, written, _⟩
      · exact ⟨old, stored, key, uid, spec, .inl (status ▸ held)⟩
      · refine ⟨old, stored, key, uid, written.spec, ?_⟩
        obtain ⟨move, writes, evidence⟩ := written.move
        have step := writes.refines (stored_named (Api.Execution.formed past kept.orderly start) stored)
        rw [← written.merged] at step
        refine (step.held (Passes.maintained past kept idle start maintained stored oldKind) held).imp id ?_
        rintro rfl
        exact ⟨actor, ⟨status, reply, shape ▸ rfl, oldKind, writes.claims⟩, same, evidence⟩
    · have free := (idle.created _ _ changed new present kind absent).2
      have maintenance : holds new.status "maintenance" = true := held.2
      simp [free] at maintenance

/-- A Server whose run retains maintenance was busy before, or the run has just
been claimed. -/
theorem Passes.busy_step (execution : Passes outside initial (history ++ [moment]) world running)
    (past : Passes outside initial history before programs) (kept : RunsKept outside)
    (idle : OthersIdle outside) (start : initial.WellFormed Resource.schema)
    (maintained : ∀ run ∈ initial.objects, run.kind = .provisioningRun → (record run.status).maintained)
    {server run : Resource} (busy : Busy world server run) :
    (∃ server' run', Busy before server' run' ∧ server'.uid = server.uid ∧ run'.uid = run.uid) ∨
      ∃ actor old, ClaimBy actor old moment ∧ world ≠ before ∧ old.uid = run.uid ∧ old ∈ before.objects ∧
        run.spec = old.spec ∧ ClaimBacked (localTrace actor history) old := by
  obtain ⟨old, stored, key, uid, spec, held | ⟨actor, claim, changed, backed⟩⟩ :=
    Passes.held_step execution past kept idle start maintained busy.runStored busy.kind busy.held
  · left
    have name : old.name = run.name := congrArg Prod.snd key
    have oldKind : old.kind = .provisioningRun := (congrArg Prod.fst key).trans busy.kind
    have named : ∃ server' ∈ before.objects,
        Resource.schema.key server' = Resource.schema.key server ∧ server'.uid = server.uid ∧
          Names server' run := by
      rcases Passes.last execution past kept.orderly start with rfl | changed |
        ⟨actor, target, status, _, _, applied, _⟩
      · exact ⟨server, busy.serverStored, rfl, rfl, busy.names⟩
      · exact idle.reserved _ _ changed server busy.serverStored run busy.runStored busy.held busy.names
      · have present := busy.serverStored
        rw [applied.written] at present
        rcases Versioned.Store.mem_put.mp present with ⟨_, _, _, rfl⟩ | ⟨member, _⟩
        · exfalso
          have targetKind : target.kind = .server := busy.serves.1
          have allowed := applied.permitted
          simp only [Permitted, targetKind] at allowed
          obtain ⟨ended, phase, _, _, _, _, _, _, rfl⟩ := allowed.2
          have names := busy.names.1
          rw [activeRef_released] at names
          simp at names
        · exact ⟨server, member, rfl, rfl, busy.names⟩
    obtain ⟨server', member, sameKey, sameUid, names⟩ := named
    obtain ⟨serverKind, ref, found, sameRef⟩ := busy.serves
    have serverName : server'.name = server.name := congrArg Prod.snd sameKey
    refine ⟨server', old, ⟨member, stored, oldKind, ⟨(congrArg Prod.fst sameKey).trans serverKind, ref,
      spec ▸ found, ?_⟩, ?_, held⟩, sameUid, uid⟩
    · rwa [Resource.reference, serverName, sameUid]
    · rwa [Names, name, uid]
  · exact .inr ⟨actor, old, claim, changed, uid, stored, spec, backed⟩

/-- As long as nothing is claimed, whoever is busy was busy before. -/
theorem Passes.busy_back {past later : List (Moment interface Store)}
    (execution : Passes outside initial (past ++ later) world running)
    (earlier : Passes outside initial past before programs) (kept : RunsKept outside)
    (idle : OthersIdle outside) (start : initial.WellFormed Resource.schema)
    (maintained : ∀ run ∈ initial.objects, run.kind = .provisioningRun → (record run.status).maintained)
    (unclaimed : Unclaimed before later) {server run : Resource} (busy : Busy world server run) :
    ∃ server' run', Busy before server' run' ∧ server'.uid = server.uid ∧ run'.uid = run.uid := by
  induction later using List.reverseRecOn generalizing world running server run with
  | nil =>
      rw [List.append_nil] at execution
      obtain rfl := execution.world_unique earlier
      exact ⟨server, run, busy, rfl, rfl⟩
  | append_singleton middle moment ih =>
      rw [← List.append_assoc] at execution
      obtain ⟨store, _, first, after, _⟩ := execution.last_cases
      rcases Passes.busy_step execution first kept idle start maintained busy with
        ⟨server', run', inside, serverUid, runUid⟩ | ⟨actor, old, claim, changed, _⟩
      · obtain ⟨server'', run'', inside, serverUid', runUid'⟩ := ih first unclaimed.append.1 inside
        exact ⟨server'', run'', inside, serverUid'.trans serverUid, runUid'.trans runUid⟩
      · have same := unclaimed middle moment [] actor old rfl claim
        rw [earlier.world_eq, ← worldAfter_append_append, ← first.world_eq, after] at same
        exact absurd same changed

theorem eligible_of_names {server run : Resource} (names : Names server run) :
    eligible server = .ok true := by
  have found := names.1
  unfold activeRef at found
  cases provisioning : server.status.get? "provisioning" with
  | none => simp [value, provisioning, Json.fields] at found
  | some member =>
      cases member with
      | obj fields =>
          cases ref : Object.get? fields "activeRunRef" with
          | none => simp [value, provisioning, ref, Json.fields] at found
          | some reference =>
              cases reference with
              | obj entries =>
                  cases entries with
                  | nil => simp [value, provisioning, ref, Json.fields] at found
                  | cons entry rest =>
                      simp [eligible, Homelab.member, provisioning, asObject, holds, ref, Json.truthy,
                        bind, Except.bind, pure, Except.pure]
              | _ => simp [value, provisioning, ref, Json.fields] at found
      | _ => simp [value, provisioning, Json.fields] at found

/-- Whoever is busy when a run is claimed was busy when the pass looked, and the
pass would have found its run. -/
theorem Passes.claim_alone (past : Passes outside initial history before programs)
    (kept : RunsKept outside) (idle : OthersIdle outside) (start : initial.WellFormed Resource.schema)
    (maintained : ∀ run ∈ initial.objects, run.kind = .provisioningRun → (record run.status).maintained)
    {actor : Nat} {run : Resource} {claim : Moment interface Store}
    (undisturbed : Undisturbed (history ++ [claim])) (claimed : ClaimBy actor run claim)
    (backed : ClaimBacked (localTrace actor history) run) {server another : Resource}
    (busy : Busy before server another) :
    ∃ claimant, Serves run claimant ∧ server.uid = claimant.uid := by
  obtain ⟨claimant, _, claimantKind, _, ref, earlier, servers, checked, split, unlisted, others⟩ := backed
  by_cases same : server.uid = claimant.uid
  · exact ⟨claimant, ⟨claimantKind, ref⟩, same⟩
  · exfalso
    obtain ⟨first, listed, rest, rfl, _, trace⟩ := localTrace_eq_append split
    subst trace
    have unclaimed := undisturbed first actor servers listed rest claim [] run (by simp) unlisted claimed
    rw [List.append_cons] at past
    obtain ⟨_, upTo⟩ := Execution.before past
    rw [worldAfter_append] at upTo
    obtain ⟨server', run', inside, serverUid, runUid⟩ :=
      Passes.busy_back past upTo kept idle start maintained unclaimed busy
    obtain ⟨_, _, _, _, _, served, _⟩ := upTo.act_cases
    obtain ⟨rfl, kept'⟩ := Api.Serve.listed_eq served
    dsimp only at kept'
    subst kept'
    have member : server' ∈ List.filter (fun resource => resource.kind = .server) listed.objects := by
      simp [inside.serverStored, inside.serves.1]
    obtain ⟨seen, name, read, seenKind, seenNames, free⟩ :=
      others server' member (serverUid ▸ same) (eligible_of_names inside.names)
    obtain ⟨found, fetched⟩ := mem_localTrace.mp read
    obtain ⟨between, after, rfl⟩ := List.append_of_mem fetched
    -- the pass has read the run of that Server after the listing, and before the claim
    rw [List.append_cons between] at past unclaimed
    rw [← List.append_assoc] at past
    obtain ⟨_, reading⟩ := Execution.before past
    have quiet := unclaimed.append.2
    rw [worldAfter_append] at quiet
    rw [← List.append_assoc, worldAfter_append] at reading
    obtain ⟨server'', run'', again, _, runUid'⟩ :=
      Passes.busy_back past (by simpa using reading) kept idle start maintained quiet busy
    obtain ⟨_, _, _, _, _, answered, _⟩ := reading.act_cases
    obtain ⟨present, kept'⟩ := Api.Serve.found_eq answered
    dsimp only at kept'
    subst kept'
    have uids : seen.uid = run'.uid := by
      have names := seenNames.2
      rw [inside.names.2] at names
      simpa using names.symm
    obtain rfl : run'' = seen :=
      (Api.Execution.formed reading kept.orderly start).identical again.runStored
        (Versioned.Store.mem_of_find? present).1 (runUid'.trans (runUid.symm.trans uids.symm))
    rcases free with pending | free
    · exact again.held.1 pending
    · have held : holds run''.status "maintenance" = true := again.held.2
      simp [free] at held

/-- From a state with at most one such Server, no two Servers ever have an active
run that retains maintenance, as long as nothing is claimed between a check of
the other Servers and the claim made on its strength. -/
theorem one_attempt_at_a_time (execution : Passes outside initial history world running)
    (kept : RunsKept outside) (idle : OthersIdle outside) (start : initial.WellFormed Resource.schema)
    (maintained : ∀ run ∈ initial.objects, run.kind = .provisioningRun → (record run.status).maintained)
    (single : AtMostOne initial) (undisturbed : Undisturbed history) : AtMostOne world := by
  induction history using List.reverseRecOn generalizing world running with
  | nil => exact execution.nil_world ▸ single
  | append_singleton earlier moment ih =>
      obtain ⟨before, programs, past, _⟩ := execution.last_cases
      have formed := Api.Execution.formed execution kept.orderly start
      have inherited := ih past undisturbed.before
      have alone : ∀ {server run other another actor old}, Busy world server run →
          Busy world other another → ClaimBy actor old moment → old.uid = run.uid →
          run.spec = old.spec → ClaimBacked (localTrace actor earlier) old →
          ∀ {other' another'}, Busy before other' another' → other'.uid = other.uid → server = other := by
        intro server run other another actor old busy second claim uid spec backed other' another' was same
        obtain ⟨claimant, ⟨_, ref, found, sameRef⟩, uids⟩ :=
          Passes.claim_alone past kept idle start maintained undisturbed claim backed was
        obtain ⟨_, ref', found', sameRef'⟩ := busy.serves
        rw [spec, found] at found'
        obtain rfl := Option.some.inj found'
        have own := reference_uid (sameRef.symm.trans sameRef')
        exact formed.identical busy.serverStored second.serverStored
          (own.symm.trans (uids.symm.trans same))
      intro server run other another first second
      rcases Passes.busy_step execution past kept idle start maintained first with
        ⟨server', run', was, serverUid, _⟩ | ⟨actor, old, claim, _, uid, _, spec, backed⟩
      · rcases Passes.busy_step execution past kept idle start maintained second with
          ⟨other', another', were, otherUid, _⟩ | ⟨actor, old, claim, _, uid, _, spec, backed⟩
        · have same := inherited _ _ _ _ was were
          exact formed.identical first.serverStored second.serverStored
            (serverUid.symm.trans ((congrArg Resource.uid same).trans otherUid))
        · exact (alone second first claim uid spec backed was serverUid).symm
      · rcases Passes.busy_step execution past kept idle start maintained second with
          ⟨other', another', were, otherUid, _⟩ | ⟨actor', old', claim', _, uid', _, spec', _⟩
        · exact alone first second claim uid spec backed were otherUid
        · obtain ⟨_, _, shape, _⟩ := claim
          obtain ⟨_, _, shape', _⟩ := claim'
          rw [shape] at shape'
          obtain ⟨rfl, requests⟩ := Happening.act.inj shape'
          obtain rfl : old = old' := by
            have same := congrArg Interaction.Event.request requests
            exact (Request.patchStatus.inj same).1
          obtain rfl := formed.identical first.runStored second.runStored (uid.symm.trans uid')
          obtain ⟨_, ref, found, sameRef⟩ := first.serves
          obtain ⟨_, ref', found', sameRef'⟩ := second.serves
          obtain rfl := Option.some.inj (found.symm.trans found')
          exact formed.identical first.serverStored second.serverStored
            (reference_uid (sameRef.symm.trans sameRef'))

theorem othersIdle_alone : OthersIdle alone :=
  ⟨fun _ _ changed => changed.elim, fun _ _ changed => changed.elim⟩

/-- Whether a request claims a run. -/
def claimsRun (moment : Moment interface Store) : Bool :=
  match moment.happening with
  | .act _ ⟨.patchStatus run fields, _⟩ =>
      run.kind == .provisioningRun && (fields.get? "attemptID").isSome
  | _ => false

theorem ClaimBy.claimsRun {actor : Nat} {run : Resource} (claim : ClaimBy actor run moment) :
    claimsRun moment = true := by
  obtain ⟨fields, reply, shape, kind, named⟩ := claim
  simp [Provisioning.claimsRun, shape, kind, named]

/-- A single claim is not disturbed. -/
theorem undisturbed_of_single (single : history.countP claimsRun ≤ 1) : Undisturbed history := by
  rintro past actor servers listed between claim later run rfl _ first earlier moment rest who target rfl second
  simp only [List.countP_append, List.countP_cons, first.claimsRun, second.claimsRun] at single
  simp only [if_true] at single
  omega

instance (server run : Resource) : Decidable (Names server run) :=
  inferInstanceAs (Decidable (_ ∧ _))

instance (record : Record) : Decidable record.held := inferInstanceAs (Decidable (_ ∧ _))

instance (run server : Resource) : Decidable (Serves run server) :=
  match found : run.spec.get? "serverRef" with
  | none => isFalse fun serves => by simp [Serves, found] at serves
  | some serverRef =>
      decidable_of_iff (server.kind = .server ∧ Json.Same serverRef server.reference) (by simp [Serves, found])

/-- Whether the Server of this name is busy. -/
def isBusyNamed (store : Store) (name : String) : Bool :=
  store.objects.any fun server => server.name == name && store.objects.any fun run =>
    decide (run.kind = .provisioningRun ∧ Serves run server ∧ Names server run ∧ (record run.status).held)

theorem busy_of_isBusyNamed {store : Store} {name : String} (found : isBusyNamed store name = true) :
    ∃ server run, server.name = name ∧ Busy store server run := by
  simp only [isBusyNamed, List.any_eq_true, Bool.and_eq_true, beq_iff_eq, decide_eq_true_eq] at found
  obtain ⟨server, serverStored, named, run, runStored, kind, serves, names, held⟩ := found
  exact ⟨server, run, named, serverStored, runStored, kind, serves, names, held⟩

theorem pair_idle : AtMostOne Rehearsal.pair := by
  intro server run _ _ busy
  exact absurd (Rehearsal.pair_pending run busy.runStored busy.kind) busy.held.1

/-- The second pass looks after the first one has claimed, and finds it. -/
theorem one_attempt_at_a_time_rehearsed :
    ∃ play, Rehearsal.rehearse Rehearsal.pair ["group", "pool"]
        (Rehearsal.steps 15 0 (Rehearsal.source "first") ++
          Rehearsal.steps 15 1 (Rehearsal.source "second")) = some play ∧
      isBusyNamed play.world "first" = true ∧ AtMostOne play.world := by
  have single : (Rehearsal.rehearse Rehearsal.pair ["group", "pool"]
      (Rehearsal.steps 15 0 (Rehearsal.source "first") ++
        Rehearsal.steps 15 1 (Rehearsal.source "second"))).any
      (fun play => isBusyNamed play.world "first" && decide (play.history.countP claimsRun ≤ 1)) = true := by
    decide +kernel
  obtain ⟨play, found, facts⟩ := (Option.any_eq_true _ _).mp single
  simp only [Bool.and_eq_true, decide_eq_true_eq] at facts
  refine ⟨play, found, facts.1, one_attempt_at_a_time (Rehearsal.passes found) runsKept_alone
    othersIdle_alone Rehearsal.pair_formed (fun run stored kind active => ?_) pair_idle
    (undisturbed_of_single facts.2)⟩
  have fresh : (record run.status).fresh := .inr (Rehearsal.pair_pending run stored kind)
  exact (Record.Sound.fresh fresh).maintenance active ▸ rfl

/-- Two passes that look before either of them claims both claim. -/
theorem both_claim :
    ∃ play, Rehearsal.rehearse Rehearsal.pair ["group", "pool"]
        (Rehearsal.steps 14 0 (Rehearsal.source "first") ++
          Rehearsal.steps 14 1 (Rehearsal.source "second") ++
          [(0, Rehearsal.source "first"), (1, Rehearsal.source "second")]) = some play ∧
      Passes alone Rehearsal.pair play.history play.world play.running ∧
      AtMostOne Rehearsal.pair ∧ ¬ AtMostOne play.world := by
  have race : (Rehearsal.rehearse Rehearsal.pair ["group", "pool"]
      (Rehearsal.steps 14 0 (Rehearsal.source "first") ++
        Rehearsal.steps 14 1 (Rehearsal.source "second") ++
        [(0, Rehearsal.source "first"), (1, Rehearsal.source "second")])).any
      (fun play => isBusyNamed play.world "first" && isBusyNamed play.world "second") = true := by
    decide +kernel
  obtain ⟨play, found, both⟩ := (Option.any_eq_true _ _).mp race
  obtain ⟨first, second⟩ := Bool.and_eq_true_iff.mp both
  obtain ⟨server, run, named, busy⟩ := busy_of_isBusyNamed first
  obtain ⟨other, another, otherNamed, second⟩ := busy_of_isBusyNamed second
  refine ⟨play, found, Rehearsal.passes found, pair_idle, fun single => ?_⟩
  obtain rfl := single server run other another busy second
  exact absurd (named.symm.trans otherNamed) (by decide)

end Homelab.Provisioning
