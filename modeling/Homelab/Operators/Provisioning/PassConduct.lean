import Homelab.Operators.Provisioning.Conduct

namespace Homelab.Provisioning

open Json (Object)
open Api (Seen)
open Interaction (Op Action Contract Extends)

/-! # Whole passes keep to the discipline -/

variable {trace later : Trace} {view : View}

def isFetch : Request → Bool
  | .get .. => true
  | _ => false

theorem reading_of_fetch {request : Request} (fetch : isFetch request = true) :
    isReading request = true := by
  cases request <;> simp_all [isFetch, isReading]

theorem listing_of_fetch {request : Request} (fetch : isFetch request = true) :
    isListing request = false := by
  cases request <;> simp_all [isFetch, isListing]

theorem checkOthers_meets (others : List Resource) :
    (checkOthers view others).Meets discipline trace
      (fun later _ => ∃ events, later = trace ++ events ∧
        (∀ event ∈ events, isFetch event.request = true) ∧
        ∀ other ∈ others, other.uid ≠ view.server.uid → eligible other = .ok true → Checked events other)
      (fun later _ => Reads trace later) := by
  induction others generalizing trace with
  | nil => exact ⟨[], by simp⟩
  | cons other rest ih =>
      have rest_meets : ∀ {before : Trace} {events : Trace}, before = trace ++ events →
          (∀ event ∈ events, isFetch event.request = true) →
          (other.uid ≠ view.server.uid → eligible other = .ok true → Checked events other) →
          (checkOthers view rest).Meets discipline before
            (fun later _ => ∃ events, later = trace ++ events ∧
              (∀ event ∈ events, isFetch event.request = true) ∧
              ∀ one ∈ other :: rest, one.uid ≠ view.server.uid → eligible one = .ok true →
                Checked events one)
            (fun later _ => Reads trace later) := by
        rintro before events rfl fetching checked
        refine ih.mono (fun later _ _ done => ?_) fun _ _ _ reads =>
          .trans ⟨events, rfl, fun event member => reading_of_fetch (fetching event member)⟩ reads
        obtain ⟨more, rfl, fetchingMore, checkedRest⟩ := done
        refine ⟨events ++ more, by simp, fun event member => ?_, fun one member different reserved => ?_⟩
        · exact (List.mem_append.mp member).elim (fetching event) (fetchingMore event)
        · rcases List.mem_cons.mp member with rfl | member
          · obtain ⟨run, name, read, found⟩ := checked different reserved
            exact ⟨run, name, List.mem_append_left _ read, found⟩
          · obtain ⟨run, name, read, found⟩ := checkedRest one member different reserved
            exact ⟨run, name, List.mem_append_right _ read, found⟩
      refine Op.Meets.check (fun reserved eligibility => ?_) fun _ => .refl _
      split
      · refine Op.Meets.bind bindRun_meets (fun later bound _ read => ?_) fun _ _ _ reads => reads
        obtain ⟨name, rfl, _, kind, same, names, _⟩ := read
        refine Op.Meets.check (fun _ passed => ?_) fun _ => .event _ rfl
        refine rest_meets rfl (by simp [isFetch]) fun _ _ => ⟨bound.run, name, by simp, kind, names, ?_⟩
        have free := demand_ok passed
        rw [same] at free
        simpa [phaseOf_eq_some] using free
      · rename_i skipped
        refine rest_meets (List.append_nil trace).symm (by simp) fun different reservation => ?_
        rw [eligibility] at reservation
        exact absurd ⟨different, Except.ok.inj reservation⟩ skipped

theorem claimable_of_view {view : View} (same : view.provisioning = view.run.status)
    (available : value view.provisioning "phase" ≠ Phase.succeeded.json ∧
      value view.provisioning "phase" ≠ Phase.blocked.json ∧
      value view.provisioning "phase" ≠ Phase.installing.json)
    (free : (!holds view.provisioning "attemptID" || !isActive (value view.provisioning "phase")) = true) :
    (record view.run.status).claimable := by
  rw [same] at available free
  simp only [Record.claimable, record, ne_eq, phaseOf_eq_some]
  refine ⟨available.1, available.2.1, available.2.2, ?_⟩
  rcases Bool.or_eq_true_iff.mp free with unclaimed | idle
  · exact .inl (by simpa [Record.claimed, holds] using unclaimed)
  · refine .inr fun active => ?_
    rw [isActive_iff.mpr active] at idle
    simp at idle

theorem list_meets {kind : Kind} :
    (Api.list kind).Meets discipline trace
      (fun later resources => later = trace ++ [⟨.list kind, .ok resources⟩]) (fun _ _ => True) :=
  Op.meets_perform.mpr ⟨True.intro, fun _ _ => rfl, fun _ _ => True.intro⟩

theorem claimRun_meets {env : Environment} {facts : Object} {snapshot : Json} (fresh : Fresh trace view)
    (free : (record view.run.status).claimable) (checked : OthersChecked trace view.server) :
    (claimRun env view facts snapshot).Meets discipline trace
      (fun later result => Seen later result ∧ result.kind = .provisioningRun)
      (fun _ _ => True) := by
  refine Op.meets_bind.mpr (Op.meets_perform.mpr ⟨True.intro, fun startedAt _ => ?_, fun _ _ => True.intro⟩)
  have now : trace <+: trace ++ [⟨Request.host .now, .ok startedAt⟩] := List.prefix_append _ _
  refine Op.Meets.check (fun observed _ => ?_) fun _ => True.intro
  refine Op.Meets.check (fun bootID _ => ?_) fun _ => True.intro
  obtain ⟨earlier, servers, events, rfl, unlisted, others⟩ := checked
  have unlisted : ∀ event ∈ events ++ [⟨Request.host .now, .ok startedAt⟩],
      isListing event.request = false := by
    intro event member
    rcases List.mem_append.mp member with member | last
    · exact unlisted event member
    · rw [List.mem_singleton.mp last]
      rfl
  have backing : ClaimBacked _ view.run := ⟨view.server, fresh.server.mono now, fresh.serverKind,
    fresh.names, fresh.reference, earlier, servers, events ++ [⟨.host .now, .ok startedAt⟩], by simp,
    unlisted, fun other member different reserved => ?_⟩
  · refine (patchStatus_meets (permitted_run (fresh.run.mono now) fresh.kind (.claim free) backing)).mono
      (fun later result _ written => ?_) fun _ _ _ _ => True.intro
    obtain ⟨rfl, kind, _⟩ := written
    exact ⟨Api.seen_last (List.mem_singleton.mpr rfl), kind.trans fresh.kind⟩
  · obtain ⟨run, name, read, found⟩ := others other member different reserved
    exact ⟨run, name, List.mem_append_left _ read, found⟩

/-- Claiming writes the run that was bound, once every other Server was checked. -/
theorem prepareAttempt_meets {env : Environment} {hostVars : Object} {revision : String}
    {preflight : Bool} (fresh : Fresh trace view) (free : (record view.run.status).claimable) :
    (prepareAttempt env hostVars revision preflight).Meets discipline trace view
      (fun later _ state => Held later state) (fun later _ state => Held later state) := by
  refine Action.Meets.load (Action.Meets.check (fun allowed _ => ?_) fun _ => fresh.toHeld)
  split
  · refine Action.Meets.run (meets_of_quiet (examine_plain _ _ _ _).quiet)
      (fun examined found extended _ => ?_) fun _ _ extended _ => fresh.toHeld.mono extended
    obtain ⟨facts, snapshot⟩ := found
    have kept := fresh.mono extended
    cases preflight with
    | true => exact kept.toHeld
    | false =>
        refine Action.Meets.run list_meets (fun listed servers more last => ?_)
          fun _ _ more _ => kept.toHeld.mono more
        subst last
        refine Action.Meets.run (checkOthers_meets servers) (fun checked _ on done => ?_)
          fun _ _ on _ => (kept.mono more).toHeld.mono on
        obtain ⟨events, rfl, fetching, others⟩ := done
        have before := kept.mono (more.trans on)
        have unlisted := fun event member => listing_of_fetch (fetching event member)
        refine Action.Meets.run
          (claimRun_meets before free ⟨examined, servers, events, by simp, unlisted, others⟩)
          (fun claimed result last written => ?_) fun _ _ last _ => before.toHeld.mono last
        exact ⟨written.1, written.2, rfl⟩
  · exact fresh.toHeld

/-! ## Preparing the boot -/

theorem stageBacked_plain {stage uid : String} (plain : stage ≠ "install") (idle : stage ∉ liveStages) :
    StageBacked trace stage uid :=
  ⟨fun same => absurd same plain, fun live => absurd live idle⟩

theorem stageBacked_live {stage : String} (held : Held trace view)
    (selected : (record view.run.status).selected) (plain : stage ≠ "install") :
    StageBacked trace stage view.run.uid :=
  ⟨fun same => absurd same plain, fun _ => ⟨view.run, held.run, held.kind, rfl, selected⟩⟩

theorem selected_of_phase {status : Object} {phase : Phase} (found : phaseOf status = some phase)
    (started : phase ≠ .pending) (departed : phase ≠ .preparingBoot) : (record status).selected :=
  ⟨phase, found, started, fun same => absurd same departed⟩

theorem Written.selected {state : View}
    (written : Written trace view
      (checkpointFields Phase.preparingBoot.json [("netbootArmed", .bool true)]) later state) :
    (record state.run.status).selected := by
  obtain ⟨_, _, before, _, _, _, _, _, _, _, merged, _⟩ := written
  rw [merged, record_checkpoint _ _ _ (by simp), record_merge _ _ (by simp)]
  exact ⟨_, rfl, by simp, by simp [Json.truthy]⟩

/-- A checkpoint leaves a view of the same run in the phase it wrote. -/
theorem checkpoint_held {phase source : Phase} {fields : Object} (held : Held trace view)
    (found : phaseOf view.provisioning = some source)
    (distinct : ("phase" :: "currentStage" :: fields.map Prod.fst).Nodup)
    (permit : ∀ later target, Calm trace later → Seen later target →
      target.kind = .provisioningRun → target.uid = view.run.uid → phaseOf target.status = some source →
      ∃ move, Writes target move (checkpointFields phase.json fields) ∧ Evidence later target move) :
    (checkpoint phase.json fields).Meets discipline trace view
      (fun later _ state => Held later state ∧ phaseOf state.provisioning = some phase ∧
        Written trace view (checkpointFields phase.json fields) later state)
      (fun later _ state => Held later state) := by
  refine (checkpoint_meets found permit).mono (fun later _ state _ written => ?_)
    fun later _ state extended kept => ?_
  · exact ⟨written.held, written.phase distinct, written⟩
  · rw [kept.2]
    exact held.mono extended

theorem current_held {allowPaused allowNetworkPending : Bool} (held : Held trace view) :
    (current view allowPaused allowNetworkPending).Meets discipline trace
      (fun later _ => Held later view) (fun later _ => Held later view) :=
  (meets_of_quiet (current_plain _ _ _).quiet).mono (fun _ _ extended _ => held.mono extended)
    fun _ _ extended _ => held.mono extended

theorem runStage_held {env : Environment} {known : KnownHosts} {stage : String} (held : Held trace view)
    (backed : StageBacked trace stage view.run.uid) :
    (runStage env view known stage).Meets discipline trace
      (fun later _ => Held later view) (fun later _ => Held later view) :=
  (runStage_meets backed).mono (fun _ _ extended _ => held.mono extended)
    fun _ _ extended _ => held.mono extended

/-- Hand the host over to the live boot. -/
theorem prepareBoot_meets {env : Environment} {known : KnownHosts} (held : Held trace view)
    (found : phaseOf view.provisioning = some .preparingBoot) :
    (prepareBoot env known).Meets discipline trace view
      (fun later _ state => Held later state) (fun later _ state => Held later state) := by
  refine Action.Meets.load (Action.Meets.run (meets_of_quiet (inspect_plain _ _ _).quiet)
    (fun now facts extended _ => ?_) fun _ _ extended _ => held.mono extended)
  replace held := held.mono extended
  refine Action.Meets.check (fun _ _ => ?_) fun _ => held
  refine Action.Meets.check (fun _ _ => ?_) fun _ => held
  refine Action.Meets.check (fun _ _ => ?_) fun _ => held
  refine Action.Meets.check (fun _ _ => ?_) fun _ => held
  refine Action.Meets.check (fun _ _ => ?_) fun _ => held
  refine Action.Meets.check (fun _ _ => ?_) fun _ => held
  refine Action.Meets.check (fun _ _ => ?_) fun _ => held
  refine Action.Meets.run (meets_of_quiet (artifactPreflight_plain _ _).quiet)
    (fun now _ more _ => ?_) fun _ _ more _ => held.mono more
  replace held := held.mono more
  refine Action.Meets.check (fun live _ => ?_) fun _ => held
  have prime : ∀ {before : Trace} {state : View}, StageBacked before "prime" state.run.uid :=
    stageBacked_plain (by decide) (by decide)
  split
  · refine Action.Meets.run (runStage_held held prime) (fun now _ _ held => ?_) fun _ _ _ held => held
    refine Action.Meets.bind (checkpoint_held held found (by simp)
      fun _ _ _ _ _ _ phase => ⟨.arm, .arm phase, True.intro⟩)
      (fun now _ armed _ written => ?_) fun _ _ _ _ held => held
    obtain ⟨held, found, written⟩ := written
    have selected := written.selected
    refine Action.Meets.load (Action.Meets.run
      (runStage_held held (stageBacked_live held selected (by decide)))
      (fun now _ _ held => ?_) fun _ _ _ held => held)
    refine Action.Meets.run (current_held held) (fun now _ _ held => ?_) fun _ _ _ held => held
    refine Action.Meets.bind (checkpoint_held held found (by simp)
      fun _ _ _ _ _ _ phase => ⟨.await, .refresh phase, True.intro⟩)
      (fun now _ awaiting _ written => ?_) fun _ _ _ _ held => held
    obtain ⟨held, found, _⟩ := written
    rw [held.same] at found
    have departed := selected_of_phase found (by simp) (by simp)
    refine Action.Meets.load (Action.Meets.run (current_held held) (fun now _ _ held => ?_)
      fun _ _ _ held => held)
    exact Action.meets_lift.mpr (runStage_held held (stageBacked_live held departed (by decide)))
  · refine Action.Meets.check (fun _ _ => ?_) fun _ => held
    refine Action.Meets.check (fun _ _ => ?_) fun _ => held
    refine Action.Meets.run (runStage_held held prime) (fun now _ _ held => ?_) fun _ _ _ held => held
    refine Action.Meets.bind (checkpoint_held held found (by simp)
      fun _ _ _ _ _ _ phase => ⟨.await, .await phase, True.intro⟩)
      (fun now _ awaiting _ written => ?_) fun _ _ _ _ held => held
    obtain ⟨held, found, _⟩ := written
    rw [held.same] at found
    have departed := selected_of_phase found (by simp) (by simp)
    refine Action.Meets.load (Action.Meets.run (current_held held) (fun now _ _ held => ?_)
      fun _ _ _ held => held)
    refine Action.Meets.run (runStage_held held (stageBacked_live held departed (by decide)))
      (fun now _ _ held => ?_) fun _ _ _ held => held
    refine Action.Meets.run (current_held held) (fun now _ _ held => ?_) fun _ _ _ held => held
    exact Action.meets_lift.mpr (runStage_held held (stageBacked_live held departed (by decide)))

/-! ## Boot sessions -/

/-- The view stands for a run the pass has read in this phase. -/
structure Reached (phase : Phase) (trace : Trace) (view : View) : Prop extends Held trace view where
  found : phaseOf view.provisioning = some phase

theorem Reached.mono {phase : Phase} (reached : Reached phase trace view) (extended : trace <+: later) :
    Reached phase later view :=
  ⟨reached.toHeld.mono extended, reached.found⟩

theorem Reached.quiet {phase : Phase} {α : Type} {body : Task α} (reached : Reached phase trace view)
    (quiet : Quiet body) :
    body.Meets discipline trace (fun later _ => Reached phase later view)
      (fun later _ => Reached phase later view) :=
  (meets_of_quiet quiet).mono (fun _ _ extended _ => reached.mono extended)
    fun _ _ extended _ => reached.mono extended

theorem firstContact_meets {env : Environment} (reached : Reached .awaitingLive trace view) :
    (firstContact env).Meets discipline trace view
      (fun later _ state => Reached .awaitingLive later state)
      (fun later _ state => Reached .awaitingLive later state) := by
  refine Action.Meets.load (Action.Meets.run (reached.quiet (run_plain (.writeText _ _) rfl).quiet)
    (fun now _ _ reached => ?_) fun _ _ _ reached => reached)
  refine Action.Meets.check (fun host _ => ?_) fun _ => reached
  refine Action.Meets.run (reached.quiet (sshProbe_plain _ _ _ _ _).quiet) (fun now known _ reached => ?_)
    fun _ _ _ reached => reached
  refine Action.Meets.check (fun pin _ => ?_) fun _ => reached
  refine Action.Meets.run (reached.quiet (inspect_plain _ _ _).quiet) (fun now facts _ reached => ?_)
    fun _ _ _ reached => reached
  refine Action.Meets.check (fun _ _ => ?_) fun _ => reached
  refine Action.Meets.check (fun _ _ => ?_) fun _ => reached
  refine Action.Meets.bind (checkpoint_meets reached.found
    fun _ _ _ _ _ _ phase => ⟨.pin, .pin phase, True.intro⟩)
    (fun now _ state _ written => ?_) fun _ _ state extended kept => ?_
  · exact ⟨written.held, written.phase (by simp)⟩
  · rw [kept.2]
    exact reached.mono extended

theorem contact_meets {env : Environment} {live : Bool} {phase : Phase}
    (reached : Reached phase trace view) (liveOnly : live = true → phase = .awaitingLive) :
    (contact env live).Meets discipline trace view
      (fun later _ state => Reached phase later state)
      (fun later _ state => Reached phase later state) := by
  refine Action.Meets.load (Action.Meets.run (reached.quiet (knownFile_plain _ _ _).quiet)
    (fun now known _ reached => ?_) fun _ _ _ reached => reached)
  refine Action.Meets.run (reached.quiet (inspect_plain _ _ _).quiet).attempt
    (fun now inspected _ outcome => ?_) fun _ _ _ impossible => impossible.elim
  cases inspected with
  | ok facts => exact outcome
  | error failure =>
      have reached : Reached phase now view := outcome
      dsimp only
      generalize (if live = true then value view.provisioning "bootstrapPublicKey" else Json.null) = pin
      split
      · split
        · rename_i unpinned
          obtain rfl := liveOnly (Bool.and_eq_true_iff.mp unpinned).1
          refine Action.meets_tryCatch.mpr (Action.Meets.bind (firstContact_meets reached)
            (fun now _ state _ reached => ?_) fun now failure state _ reached => ?_)
          · exact reached
          split
          · exact reached
          · exact reached
        · exact reached
      · exact reached

theorem awaitRounds_meets {env : Environment} {live : Bool} {phase : Phase} (rounds : Nat)
    (reached : Reached phase trace view) (liveOnly : live = true → phase = .awaitingLive) :
    (awaitRounds env live rounds).Meets discipline trace view
      (fun later _ state => Reached phase later state)
      (fun later _ state => Reached phase later state) := by
  induction rounds generalizing trace view with
  | zero => exact reached
  | succ rounds ih =>
      refine Action.Meets.load (Action.Meets.run current_meets (fun now latest extended read => ?_)
        fun _ _ extended _ => reached.mono extended)
      obtain ⟨_, fresh, same⟩ := read
      have kept : Reached phase now latest := ⟨fresh.toHeld, same.phase phase reached.found⟩
      refine Action.Meets.store ?_
      split
      · exact ih kept
      · exact kept
      · refine Action.Meets.bind (contact_meets kept liveOnly) (fun now contacted state _ kept => ?_)
          fun _ _ _ _ kept => kept
        cases contacted with
        | none => exact ih kept
        | some session =>
            refine Action.Meets.check (fun accepted _ => ?_) fun _ => kept
            split
            · exact kept
            · exact ih kept

theorem awaitSession_meets {env : Environment} {live : Bool} {phase : Phase}
    (reached : Reached phase trace view) (liveOnly : live = true → phase = .awaitingLive) :
    (awaitSession env live).Meets discipline trace view
      (fun later _ state => Reached phase later state)
      (fun later _ state => Reached phase later state) :=
  Action.Meets.run (reached.quiet (run_plain .rounds rfl).quiet)
    (fun _ rounds _ reached => awaitRounds_meets rounds reached liveOnly) fun _ _ _ reached => reached

/-- Enrolling delivers the managed key and disarms the attempt. -/
theorem enrollLive_meets {env : Environment} {facts : Object} {known : KnownHosts}
    (reached : Reached .awaitingLive trace view) :
    (enrollLive env facts known).Meets discipline trace view
      (fun later _ state => Reached .awaitingLive later state)
      (fun later _ state => Held later state) := by
  refine Action.Meets.load (Action.Meets.check (fun _ _ => ?_) fun _ => reached.toHeld)
  refine Action.Meets.check (fun _ _ => ?_) fun _ => reached.toHeld
  refine Action.Meets.check (fun _ _ => ?_) fun _ => reached.toHeld
  refine Action.Meets.check (fun _ _ => ?_) fun _ => reached.toHeld
  refine Action.Meets.check (fun _ _ => ?_) fun _ => reached.toHeld
  refine Action.Meets.run (reached.quiet (current_plain _ _ _).quiet) (fun now _ _ reached => ?_)
    fun _ _ _ reached => reached.toHeld
  refine Action.Meets.run (reached.quiet (hostPrivateKey_quiet _ _)) (fun now key _ reached => ?_)
    fun _ _ _ reached => reached.toHeld
  refine Action.Meets.run (reached.quiet (run_plain (.writeText _ _) rfl).quiet) (fun now _ _ reached => ?_)
    fun _ _ _ reached => reached.toHeld
  refine Action.Meets.run (reached.quiet (checkOutput_plain _).quiet) (fun now derived _ reached => ?_)
    fun _ _ _ reached => reached.toHeld
  refine Action.Meets.check (fun _ _ => ?_) fun _ => reached.toHeld
  refine Action.Meets.check (fun _ _ => ?_) fun _ => reached.toHeld
  refine Action.Meets.check (fun _ _ => ?_) fun _ => reached.toHeld
  refine Action.Meets.check (fun _ _ => ?_) fun _ => reached.toHeld
  refine Action.Meets.run (reached.quiet (current_plain _ _ _).quiet) (fun now _ _ reached => ?_)
    fun _ _ _ reached => reached.toHeld
  refine Action.Meets.check (fun _ _ => ?_) fun _ => reached.toHeld
  refine Action.Meets.run (reached.quiet (run_plain (.readText _) rfl).quiet) (fun now trusted _ reached => ?_)
    fun _ _ _ reached => reached.toHeld
  refine Action.Meets.run (reached.quiet (extendTrust_plain _ _ _).quiet) (fun now known _ reached => ?_)
    fun _ _ _ reached => reached.toHeld
  refine Action.Meets.check (fun _ _ => ?_) fun _ => reached.toHeld
  refine Action.Meets.run (runPlay_meets (by simp)) (fun now _ played _ => ?_)
    fun _ _ played _ => reached.toHeld.mono played
  replace reached := reached.mono played
  refine Action.Meets.run (reached.quiet (knownFile_plain _ _ _).quiet) (fun now known _ reached => ?_)
    fun _ _ _ reached => reached.toHeld
  refine Action.Meets.run (reached.quiet (sshProbe_plain _ _ _ _ _).quiet) (fun now known _ reached => ?_)
    fun _ _ _ reached => reached.toHeld
  refine Action.Meets.check (fun _ _ => ?_) fun _ => reached.toHeld
  refine Action.Meets.bind (checkpoint_held reached.toHeld reached.found (by simp)
    fun _ _ _ _ _ _ phase => ⟨.enroll, .enroll phase, True.intro⟩)
    (fun now _ state _ written => ⟨written.1, written.2.1⟩) fun _ _ _ _ held => held

/-! ## Giving a reservation back -/

theorem permitted_release {latest run : Resource} {phase : Phase} (seen : Seen trace latest)
    (kind : latest.kind = .server) (read : Seen trace run) (runKind : run.kind = .provisioningRun)
    (found : phaseOf run.status = some phase) (ended : phase = .succeeded ∨ phase = .blocked)
    (idle : holds run.status "maintenance" = false)
    (same : Json.Same (.obj (activeRef latest)) run.reference) :
    Permitted trace (.patchStatus latest [("provisioning", .obj (releaseFields run phase.json))]) := by
  refine ⟨seen, ?_⟩
  rw [kind]
  exact ⟨run, phase, read, runKind, found, ended, idle, same, rfl⟩

theorem releaseReservation_meets {run : Resource} {phase : Phase} (attempts : Nat)
    (read : Seen trace run) (runKind : run.kind = .provisioningRun)
    (found : phaseOf run.status = some phase) (ended : phase = .succeeded ∨ phase = .blocked)
    (idle : holds run.status "maintenance" = false) :
    (releaseReservation view run phase.json attempts).Meets discipline trace
      (fun _ _ => True) (fun _ _ => True) := by
  induction attempts generalizing trace with
  | zero => exact True.intro
  | succ attempts ih =>
      refine Op.meets_bind.mpr (Op.meets_perform.mpr
        ⟨True.intro, fun latest honest => ?_, fun _ _ => True.intro⟩)
      obtain ⟨kind, _⟩ : latest.kind = .server ∧ latest.name = view.server.name := honest
      refine Op.Meets.check (fun _ _ => ?_) fun _ => True.intro
      refine Op.Meets.check (fun reserved reservation => ?_) fun _ => True.intro
      refine Op.Meets.check (fun _ matched => ?_) fun _ => True.intro
      have same : Json.Same (.obj (activeRef latest)) run.reference := by
        have equal : Json.Same (value reserved "activeRunRef") run.reference := by
          simpa using demand_ok matched
        obtain ⟨others, shape⟩ := Json.Same.obj equal
        rw [activeRef, member_ok reservation, shape]
        rwa [shape] at equal
      have seen := Api.seen_get trace .server view.server.name latest
      have kept := read.mono (List.prefix_append trace [⟨.get .server view.server.name, .ok latest⟩])
      refine Op.Meets.bind (patchStatus_meets
        (permitted_release seen kind kept runKind found ended idle same)).attempt
        (fun now result extended _ => ?_) fun _ _ _ _ => True.intro
      split
      · exact True.intro
      · exact ih (kept.mono extended)
      · exact True.intro

theorem releaseRun_meets :
    (releaseRun view).Meets discipline trace (fun _ _ => True) (fun _ _ => True) := by
  refine Op.meets_bind.mpr (Op.meets_perform.mpr
    ⟨True.intro, fun run honest => ?_, fun _ _ => True.intro⟩)
  obtain ⟨kind, _⟩ : run.kind = .provisioningRun ∧ run.name = view.run.name := honest
  have seen := Api.seen_get trace .provisioningRun view.run.name run
  split
  · exact True.intro
  · rename_i free
    simp only [not_or, Bool.not_eq_true] at free
    refine Op.Meets.check (fun phase found => ?_) fun _ => True.intro
    have status : value run.status "phase" = phase := by simp [value, item_ok found]
    split
    · rename_i ended
      rcases ended with rfl | rfl
      · exact releaseReservation_meets 5 seen kind (phaseOf_eq_some.mpr status) (.inl rfl) free.2.1
      · exact releaseReservation_meets 5 seen kind (phaseOf_eq_some.mpr status) (.inr rfl) free.2.1
    · exact True.intro

theorem releaseRun_held (held : Held trace view) {released : View} :
    (releaseRun released).Meets discipline trace (fun later _ => Held later view)
      (fun later _ => Held later view) :=
  releaseRun_meets.mono (fun _ _ extended _ => held.mono extended) fun _ _ extended _ => held.mono extended

/-! ## The destructive stage and completion -/

theorem Written.entered {fields : Object} {state : View}
    (written : Written trace view (checkpointFields Phase.installing.json fields) later state)
    (found : phaseOf view.provisioning = some .awaitingLive) :
    (installLog state.run.uid later).getLast? = some .entered := by
  obtain ⟨earlier, target, before, _, rfl, kind, uid, _, same, _, _, phase⟩ := written
  have mark : installMark state.run.uid
      ⟨.patchStatus target (checkpointFields Phase.installing.json fields), .ok state.run⟩ =
        some .entered := by
    simp [installMark, kind, uid, same, phase, found, checkpointFields]
  simp [installLog, mark]

theorem reachLive_meets {env : Environment} {known : KnownHosts}
    (reached : Reached .awaitingLive trace view) :
    (reachLive env known).Meets discipline trace view
      (fun later _ state => Reached .awaitingLive later state)
      (fun later _ state => Held later state) := by
  refine Action.Meets.load ?_
  split
  · refine Action.Meets.run (reached.quiet (inspect_plain _ _ _).quiet) (fun now facts _ reached => ?_)
      fun _ _ _ reached => reached.toHeld
    exact Action.Meets.check (fun _ _ => reached) fun _ => reached.toHeld
  · exact (awaitSession_meets reached fun _ => rfl).mono (fun _ _ _ _ reached => reached)
      fun _ _ _ _ reached => reached.toHeld

/-- The destructive stage is started right after its own acknowledged checkpoint. -/
theorem installLive_meets {env : Environment} {known : KnownHosts}
    (reached : Reached .awaitingLive trace view) :
    (installLive env known).Meets discipline trace view
      (fun later _ state => Held later state) (fun later _ state => Held later state) := by
  refine Action.Meets.bind (reachLive_meets reached) (fun now session view _ reached => ?_)
    fun _ _ _ _ held => held
  refine Action.Meets.bind (enrollLive_meets reached) (fun now known view _ reached => ?_)
    fun _ _ _ _ held => held
  refine Action.Meets.load (Action.Meets.run (reached.quiet (verifyDependencies_plain _).quiet)
    (fun now _ _ reached => ?_) fun _ _ _ reached => reached.toHeld)
  refine Action.Meets.run (reached.quiet (current_plain _ _ _).quiet) (fun now _ _ reached => ?_)
    fun _ _ _ reached => reached.toHeld
  refine Action.Meets.bind (checkpoint_held reached.toHeld reached.found (by simp)
    fun _ _ _ _ _ _ phase => ⟨.install, .install phase, True.intro⟩)
    (fun now _ installing _ written => ?_) fun _ _ _ _ held => held
  obtain ⟨held, found, written⟩ := written
  have backed : StageBacked now "install" installing.run.uid :=
    ⟨fun _ => written.entered reached.found, fun live => absurd live (by decide)⟩
  refine Action.Meets.load (Action.Meets.run (runStage_meets backed) (fun now _ extended staged => ?_)
    fun _ _ extended _ => held.mono extended)
  replace held := held.mono extended
  have done : StageDone now installing.run.uid "install" := by
    obtain ⟨earlier, argv, files, diagnostic, output, timeout, _, stage, rfl⟩ := staged
    exact ⟨argv, files, diagnostic, output, timeout, stage, (List.suffix_append _ _).isInfix⟩
  refine Action.Meets.bind (checkpoint_held held found (by simp)
    fun later target calm _ _ uid phase => ⟨.finish, .finish phase, ?_⟩)
    (fun now _ state _ written => written.1) fun _ _ _ _ held => held
  rw [Evidence, uid]
  exact done.mono calm.prefix.isInfix

/-- The final reboot is only asked for from the phase after the installation. -/
theorem finishBoot_meets {env : Environment} {known : KnownHosts}
    (reached : Reached .awaitingInstalled trace view) :
    (finishBoot env known).Meets discipline trace view
      (fun later _ state => Held later state) (fun later _ state => Held later state) := by
  refine Action.Meets.load (Action.Meets.run (reached.quiet (inspect_plain _ _ _).quiet).attempt
    (fun now inspected _ outcome => ?_) fun _ _ _ impossible => impossible.elim)
  have complete : ∀ {before : Trace}, Reached .awaitingInstalled before view →
      Action.Meets discipline (do
        let found ← awaitSession env false
        let reached ← Action.load
        verifyInstalled reached found.1
        checkpoint Phase.verifying.json []
        return found.2 : Pass View KnownHosts) before view
        (fun later _ state => Held later state) (fun later _ state => Held later state) := by
    intro before reached
    refine Action.Meets.bind (awaitSession_meets reached (by simp)) (fun now session state _ reached => ?_)
      fun _ _ _ _ reached => reached.toHeld
    refine Action.Meets.load (Action.Meets.check (fun _ _ => ?_) fun _ => reached.toHeld)
    exact Action.Meets.bind (checkpoint_held reached.toHeld reached.found (by simp)
      fun _ _ _ _ _ _ phase => ⟨.verify, .verify phase, True.intro⟩)
      (fun now _ state _ written => written.1) fun _ _ _ _ held => held
  cases inspected with
  | error failure =>
      have reached : Reached .awaitingInstalled now view := outcome
      dsimp only
      split
      · exact complete reached
      · exact reached.toHeld
  | ok before =>
      have reached : Reached .awaitingInstalled now view := outcome
      refine Action.Meets.check (fun live _ => ?_) fun _ => reached.toHeld
      split
      · refine Action.Meets.check (fun _ _ => ?_) fun _ => reached.toHeld
        refine Action.Meets.run (reached.quiet (current_plain _ _ _).quiet) (fun now _ _ reached => ?_)
          fun _ _ _ reached => reached.toHeld
        have found := reached.found
        rw [reached.same] at found
        have selected := selected_of_phase found (by simp) (by simp)
        refine Action.Meets.run (runStage_meets (stageBacked_live reached.toHeld selected (by decide)))
          (fun now _ extended _ => complete (reached.mono extended))
          fun _ _ extended _ => reached.toHeld.mono extended
      · exact complete reached

theorem inspect_meets {env : Environment} {known : KnownHosts} :
    (inspect env view known).Meets discipline trace
      (fun later facts => ∃ event, later = trace ++ [event] ∧ Probed facts event)
      (fun later _ => Reads trace later) := by
  refine Op.Meets.check (fun host _ => ?_) fun _ => .refl _
  refine Op.Meets.check (fun session _ => ?_) fun _ => .refl _
  refine Op.Meets.check (fun disk _ => ?_) fun _ => .refl _
  refine Op.meets_bind.mpr (Op.meets_perform.mpr ⟨True.intro, fun output _ => ?_, fun _ _ => .event _ rfl⟩)
  cases output with
  | none =>
      have probed : Reads trace (trace ++ [⟨Request.host (.probe session disk), .ok none⟩]) := .event _ rfl
      exact probed
  | some facts =>
      refine Op.meets_ofExcept.mpr ⟨fun fields shape => ?_, fun _ _ => .event _ rfl⟩
      rw [asObject_ok shape]
      exact ⟨_, rfl, session, disk, rfl⟩

theorem Probed.reads {facts : Object} {event : Event} (probed : Probed facts event) :
    Reads trace (trace ++ [event]) := by
  obtain ⟨session, disk, rfl⟩ := probed
  exact .event _ rfl

theorem Verified.mono {uid : String} (verified : Verified trace uid) (extended : trace <+: later) :
    Verified later uid := by
  obtain ⟨earlier, event, rest, facts, inspected, rfl, probed⟩ := verified
  obtain ⟨more, rfl⟩ := extended
  exact ⟨earlier, event, rest ++ more, facts, inspected, by simp, probed⟩

/-- A run is completed only after an inspection that came after it was read in
Verifying. -/
theorem verifyCompletion_meets {env : Environment} {known : KnownHosts}
    (reached : Reached .verifying trace view) :
    (verifyCompletion env known).Meets discipline trace view
      (fun later _ state => Held later state) (fun later _ state => Held later state) := by
  refine Action.Meets.load (Action.Meets.run (reached.quiet (inspect_plain _ _ _).quiet)
    (fun now facts _ reached => ?_) fun _ _ _ reached => reached.toHeld)
  refine Action.Meets.check (fun _ _ => ?_) fun _ => reached.toHeld
  refine Action.Meets.run (reached.quiet (current_plain _ _ _).quiet) (fun now _ _ reached => ?_)
    fun _ _ _ reached => reached.toHeld
  refine Action.Meets.run (runStage_meets (stageBacked_plain (by decide) (by decide)))
    (fun now _ extended _ => ?_) fun _ _ extended _ => reached.toHeld.mono extended
  replace reached := reached.mono extended
  refine Action.Meets.check (fun _ _ => ?_) fun _ => reached.toHeld
  refine Action.Meets.check (fun _ _ => ?_) fun _ => reached.toHeld
  refine Action.Meets.check (fun _ _ => ?_) fun _ => reached.toHeld
  refine Action.Meets.run (reached.quiet (run_plain (.services _ _) rfl).quiet) (fun now _ _ reached => ?_)
    fun _ _ _ reached => reached.toHeld
  refine Action.Meets.check (fun _ _ => ?_) fun _ => reached.toHeld
  refine Action.Meets.run inspect_meets (fun inspected final extended probe => ?_)
    fun _ _ extended _ => reached.toHeld.mono extended
  obtain ⟨event, rfl, probed⟩ := probe
  have earlier := reached
  replace reached := reached.mono extended
  refine Action.Meets.check (fun _ accepted => ?_) fun _ => reached.toHeld
  have phase := earlier.found
  rw [earlier.same] at phase
  have verified : Verified (now ++ [event]) view.run.uid :=
    ⟨now, event, [], final, view, rfl, probed, earlier.run, earlier.kind, rfl, phase, earlier.same,
      accepted⟩
  refine Action.Meets.run (meets_of_quiet (run_plain .now rfl).quiet) (fun now completedAt more _ => ?_)
    fun _ _ more _ => reached.toHeld.mono more
  replace reached := reached.mono more
  replace verified := verified.mono more
  refine Action.Meets.bind (checkpoint_held reached.toHeld reached.found (by simp)
    fun later target calm _ _ uid phase => ⟨.succeed, .succeed phase, ?_⟩)
    (fun now _ state _ written => ?_) fun _ _ _ _ held => held
  · rw [Evidence, uid]
    exact verified.mono calm.prefix
  · exact Action.Meets.load (Action.meets_lift.mpr (releaseRun_held written.1))

/-! ## Passes -/

theorem atPhase_meets {phase : Phase} {known : KnownHosts} {body : KnownHosts → Pass View KnownHosts}
    (held : Held trace view)
    (meets : Reached phase trace view → (body known).Meets discipline trace view
      (fun later _ state => Held later state) (fun later _ state => Held later state)) :
    (atPhase phase known body).Meets discipline trace view
      (fun later _ state => Held later state) (fun later _ state => Held later state) := by
  refine Action.Meets.load (Action.Meets.check (fun reached found => ?_) fun _ => held)
  split
  · rename_i same
    refine meets ⟨held, phaseOf_eq_some.mpr ?_⟩
    simp [value, item_ok found, same]
  · exact held

theorem advance_meets {env : Environment} {revision : String} (held : Held trace view) :
    (advance env revision).Meets discipline trace view
      (fun later _ state => Held later state) (fun later _ state => Held later state) := by
  refine Action.Meets.load (Action.Meets.check (fun _ _ => ?_) fun _ => held)
  refine Action.Meets.check (fun _ _ => ?_) fun _ => held
  refine Action.Meets.check (fun _ _ => ?_) fun _ => held
  refine Action.Meets.check (fun phase _ => ?_) fun _ => held
  refine Action.Meets.run current_meets (fun now latest _ read => ?_)
    fun _ _ extended _ => held.mono extended
  have held : Held now latest := read.2.1.toHeld
  refine Action.Meets.store (Action.Meets.run (meets_of_quiet (verifyDependencies_plain _).quiet)
    (fun now _ extended _ => ?_) fun _ _ extended _ => held.mono extended)
  replace held := held.mono extended
  refine Action.Meets.run (meets_of_quiet drainCommands_plain.quiet) (fun now _ extended _ => ?_)
    fun _ _ extended _ => held.mono extended
  replace held := held.mono extended
  refine Action.Meets.run (meets_of_quiet (knownFile_plain _ _ _).quiet) (fun now known extended _ => ?_)
    fun _ _ extended _ => held.mono extended
  replace held := held.mono extended
  refine Action.Meets.bind (atPhase_meets held fun reached =>
    Action.Meets.bind (prepareBoot_meets reached.toHeld reached.found) (fun _ _ _ _ held => held)
      fun _ _ _ _ held => held) (fun now known view _ held => ?_) fun _ _ _ _ held => held
  refine Action.Meets.bind (atPhase_meets held installLive_meets) (fun now known view _ held => ?_)
    fun _ _ _ _ held => held
  refine Action.Meets.bind (atPhase_meets held finishBoot_meets) (fun now known view _ held => ?_)
    fun _ _ _ _ held => held
  refine Action.Meets.bind (atPhase_meets held fun reached =>
    Action.Meets.bind (verifyCompletion_meets reached) (fun _ _ _ _ held => held)
      fun _ _ _ _ held => held) (fun now known view _ held => held) fun _ _ _ _ held => held

theorem reconcile_meets {env : Environment} {hostVars : Object} {revision : String} {preflight : Bool}
    (fresh : Fresh trace view) :
    (reconcile env hostVars revision preflight).Meets discipline trace view
      (fun later _ state => Held later state) (fun later _ state => Held later state) := by
  have held := fresh.toHeld
  refine Action.Meets.load ?_
  dsimp only
  split
  · refine Action.Meets.check (fun _ _ => ?_) fun _ => held
    split
    · exact held
    · exact Action.meets_lift.mpr (releaseRun_held held)
  · rename_i ended
    split
    · exact held
    · split
      · rename_i installing
        exact (checkpoint_held held (phaseOf_eq_some.mpr installing) (by simp)
          fun _ _ _ _ _ _ phase => ⟨.interrupt, .interrupt phase, True.intro⟩).mono
          (fun _ _ _ _ written => written.1) fun _ _ _ _ held => held
      · rename_i installing
        have claim : (if (!holds view.provisioning "attemptID" ||
              !isActive (value view.provisioning "phase")) = true
            then prepareAttempt env hostVars revision preflight else pure true : Pass View Bool).Meets
              discipline trace view (fun later _ state => Held later state)
              (fun later _ state => Held later state) := by
          split
          · rename_i free
            exact prepareAttempt_meets fresh (claimable_of_view held.same
              ⟨fun same => ended (.inl same), fun same => ended (.inr same), installing⟩ free)
          · exact held
        refine Action.Meets.bind claim (fun now claimed state _ held => ?_) fun _ _ _ _ held => held
        split
        · exact advance_meets held
        · exact held

/-! ## Failures -/

/-- Requests other than reports of a failure. -/
def isSilent (request : Request) : Prop := isWarning request = false

theorem silent_of_reading {request : Request} (reading : isReading request = true) : isSilent request := by
  cases request with
  | host call => cases call <;> first | rfl | simp at reading
  | _ => rfl

theorem silent_of_stage {stage uid : String} {request : Request} (which : isStage stage uid request) :
    isSilent request := by
  rcases which with reading | ⟨_, _, rfl, _⟩
  · exact silent_of_reading reading
  · rfl

theorem reads_silent (reads : Reads trace later) : Extends isSilent trace later :=
  reads.weaken fun _ => silent_of_reading

theorem reading_of_clearing {uid : String} {request : Request} (reading : isReading request = true) :
    startsClearing uid request = false := by
  cases request with
  | host call => cases call <;> first | rfl | simp at reading
  | _ => rfl

theorem StageDone.of_staged {stage uid : String} (staged : Staged trace stage uid later) :
    ∃ events, later = trace ++ events ∧ (∀ event ∈ events, isSilent event.request) ∧
      StageDone events uid stage := by
  obtain ⟨earlier, argv, files, diagnostic, output, timeout, reads, found, rfl⟩ := staged
  obtain ⟨events, rfl, reading⟩ := reads
  refine ⟨events ++ completion argv files diagnostic output timeout, by simp, fun event member => ?_,
    argv, files, diagnostic, output, timeout, found, (List.suffix_append _ _).isInfix⟩
  rcases List.mem_append.mp member with member | member
  · exact silent_of_reading (reading event member)
  · simp only [completion, List.mem_cons, List.not_mem_nil, or_false] at member
    rcases member with rfl | rfl | rfl | rfl <;> rfl

/-- Giving up the boot selection is backed by a cleanup in the source session. -/
theorem clearSelection_meets {env : Environment} :
    (clearSelection env view).Meets discipline trace
      (fun later keep => ∃ rest, later = trace ++ rest ∧ (∀ event ∈ rest, isSilent event.request) ∧
        (keep = false → Cleared rest view.run.uid (value view.provisioning "sourceBootID")))
      (fun later _ => Extends isSilent trace later) := by
  refine Op.Meets.bind current_meets (fun now latest _ read => ?_) fun _ _ _ reads => reads_silent reads
  obtain ⟨reads, fresh, same⟩ := read
  refine Op.Meets.bind (meets_of_quiet (knownFile_plain _ _ _).quiet) (fun now known _ more => ?_)
    fun _ _ _ more => reads_silent (reads.trans more)
  replace reads := reads.trans more
  refine Op.Meets.bind inspect_meets (fun inspected facts _ probe => ?_)
    fun _ _ _ more => reads_silent (reads.trans more)
  obtain ⟨event, rfl, probed⟩ := probe
  have silent : Extends isSilent trace (now ++ [event]) := reads_silent (reads.trans probed.reads)
  obtain ⟨earlier, rfl, reading⟩ := reads
  have plain : ∀ stage ∈ clearingStages, ∀ {before : Trace} {uid : String},
      StageBacked before stage uid := by
    intro stage member before uid
    simp only [clearingStages, List.mem_cons, List.not_mem_nil, or_false] at member
    rcases member with rfl | rfl <;> exact stageBacked_plain (by decide) (by decide)
  refine Op.Meets.check (fun bootID booted => ?_) fun _ => silent
  split
  · obtain ⟨rest, shape, quiet⟩ := silent
    exact ⟨rest, shape, quiet, by simp⟩
  · rename_i source
    refine Op.Meets.check (fun live found => ?_) fun _ => silent
    have prefix_silent : ∀ other ∈ earlier ++ [event], isSilent other.request := by
      obtain ⟨rest, shape, quiet⟩ := silent
      rw [List.append_assoc] at shape
      rwa [List.append_cancel_left shape]
    split
    · rename_i running
      refine Op.Meets.bind (runStage_meets (plain "refresh-clear" (by decide)))
        (fun final _ _ staged => ?_) fun _ _ _ stage => silent.trans (stage.weaken fun _ => silent_of_stage)
      obtain ⟨events, rfl, quiet, done⟩ := StageDone.of_staged staged
      rw [same.uid] at done
      refine ⟨earlier ++ [event] ++ events, by simp, fun other member => ?_, fun _ => ?_⟩
      · exact (List.mem_append.mp member).elim (prefix_silent other) (quiet other)
      · exact ⟨earlier, event, events, facts, bootID, live, by simp, probed, item_ok booted,
          not_not.mp source, item_ok found, .inl ⟨running, done⟩⟩
    · rename_i stopped
      refine Op.Meets.bind (runStage_meets (plain "clear" (by decide))) (fun final _ _ staged => ?_)
        fun _ _ _ stage => silent.trans (stage.weaken fun _ => silent_of_stage)
      obtain ⟨events, rfl, quiet, done⟩ := StageDone.of_staged staged
      rw [same.uid] at done
      have all : Extends isSilent trace (trace ++ earlier ++ [event] ++ events) :=
        silent.trans ⟨events, rfl, quiet⟩
      refine Op.Meets.bind inspect_meets (fun checked cleared _ probe => ?_)
        fun _ _ _ more => all.trans (reads_silent more)
      obtain ⟨check, rfl, confirmed⟩ := probe
      have completed := all.trans (reads_silent confirmed.reads)
      refine Op.Meets.check (fun grub environment => ?_) fun _ => completed
      obtain ⟨rest, shape, quietRest⟩ := completed
      refine ⟨rest, shape, quietRest, fun kept => ?_⟩
      refine ⟨earlier, event, events ++ [check], facts, bootID, live, ?_, probed, item_ok booted,
        not_not.mp source, item_ok found, .inr ⟨by simpa using stopped, events, check, [], cleared, grub,
          rfl, done, confirmed, itemString_ok environment, kept⟩⟩
      simpa using shape.symm

/-- What deciding about ownership has done: without ownership the destructive
stage was not entered, and a boot selection was cleared or never made. -/
def Decided (trace : Trace) (view : View) (later : Trace) (keep : Bool) : Prop :=
  ∃ rest, later = trace ++ rest ∧ (∀ event ∈ rest, isSilent event.request) ∧
    (phaseOf view.provisioning = some .installing → keep = true) ∧
    (keep = false → Cleared rest view.run.uid (value view.provisioning "sourceBootID") ∨
      ∀ event ∈ rest, startsClearing view.run.uid event.request = false)

theorem keepOwnership_meets {env : Environment} :
    (keepOwnership env view).Meets discipline trace (fun later keep => Decided trace view later keep)
      (fun _ _ => True) := by
  have entered : ∀ keep : Bool, phaseOf view.provisioning = some .installing →
      (decide (value view.provisioning "phase" = Phase.installing.json) || keep) = true := by
    intro keep found
    simp [phaseOf_eq_some.mp found]
  unfold keepOwnership
  dsimp only
  split
  · refine Op.Meets.bind (Op.Meets.attempt clearSelection_meets) (fun later outcome _ done => ?_)
      fun _ _ _ _ => True.intro
    cases outcome with
    | ok keep =>
        obtain ⟨rest, shape, silent, cleared⟩ := done
        exact ⟨rest, shape, silent, entered keep, fun free => .inl (cleared (Bool.or_eq_false_iff.mp free).2)⟩
    | error failure =>
        change Extends isSilent trace later at done
        obtain ⟨rest, shape, silent⟩ := done
        dsimp only
        split
        · exact ⟨rest, shape, silent, fun _ => rfl, by simp⟩
        · exact True.intro
  · exact ⟨[], by simp, by simp, by simpa using entered false, fun _ => .inr (by simp)⟩

theorem Cleared.append {rest : Trace} {uid : String} {source : Json} (cleared : Cleared rest uid source)
    (more : Trace) : Cleared (rest ++ more) uid source := by
  obtain ⟨earlier, event, after, facts, bootID, live, rfl, probed, booted, same, found, done⟩ := cleared
  refine ⟨earlier, event, after ++ more, facts, bootID, live, by simp, probed, booted, same, found, ?_⟩
  rcases done with ⟨running, staged⟩ | ⟨stopped, cleaning, check, last, observed, grub, rfl, rest⟩
  · exact .inl ⟨running, staged.mono (List.prefix_append _ _).isInfix⟩
  · exact .inr ⟨stopped, cleaning, check, last ++ more, observed, grub, by simp, rest⟩

theorem calm_silent {uid : String} {request : Request}
    (calm : isReading request = true ∨ ∃ resource status, request = .patchStatus resource status) :
    isSilent request ∧ startsClearing uid request = false := by
  rcases calm with reading | ⟨resource, status, rfl⟩
  · exact ⟨silent_of_reading reading, reading_of_clearing reading⟩
  · exact ⟨rfl, rfl⟩

/-- The decision still backs the write after the reads and refused writes that
come between them. -/
theorem Decided.backs {before now : Trace} {target : Resource} {keep : Bool} {phase : Phase}
    (decided : Decided before view now keep) (held : Held before view) (since : Since before [])
    (found : phaseOf view.provisioning = some phase) (calm : Calm now later)
    (uid : target.uid = view.run.uid) (status : phaseOf target.status = some phase) :
    BlockBacked later target keep := by
  obtain ⟨rest, rfl, silent, _, cleared⟩ := decided
  obtain ⟨more, rfl, quiet⟩ := calm
  obtain ⟨earlier, warning, rfl, warned, _⟩ := since
  refine ⟨rest ++ more, view.run, ⟨earlier, warning, by simp, warned, fun event member => ?_⟩,
    held.run.mono ⟨rest ++ more, by simp⟩, held.kind, uid.symm, ?_, fun free => ?_⟩
  · rcases List.mem_append.mp member with member | member
    · exact silent event member
    · exact (@calm_silent target.uid _ (quiet event member)).1
  · rw [status, ← held.same, found]
  · rw [uid, ← held.same]
    rcases cleared free with cleared | idle
    · exact .inl (cleared.append more)
    · refine .inr fun event member => ?_
      rcases List.mem_append.mp member with member | member
      · exact idle event member
      · exact (calm_silent (quiet event member)).2

/-- A failed attempt is recorded on the run it was made for. -/
theorem handleFailure_meets {env : Environment} {message : String} {reason : Option String}
    (held : Held trace view) (since : Since trace []) :
    (handleFailure env message reason).Meets discipline trace view
      (fun _ _ _ => True) (fun _ _ _ => True) := by
  refine Action.Meets.load ?_
  dsimp only
  split
  · rename_i pending
    rw [held.same] at pending
    exact Action.Meets.run (patchStatus_meets (permitted_run held.run held.kind
      (.note (phaseOf_eq_some.mpr pending)) True.intro)) (fun _ _ _ _ => True.intro) fun _ _ _ _ => True.intro
  · split
    · exact True.intro
    · rename_i active
      have under := not_not.mp active
      simp only [isActive, List.any_eq_true, beq_iff_eq] at under
      obtain ⟨phase, member, same⟩ := under
      have found : phaseOf view.provisioning = some phase := phaseOf_eq_some.mpr same
      have remark : ∀ text, (checkpoint (value view.provisioning "phase") [("message", .str text)]).Meets
          discipline trace view (fun _ _ _ => True) (fun _ _ _ => True) := by
        intro text
        rw [same]
        exact (checkpoint_held held found (by simp)
          fun _ _ _ _ _ _ status => ⟨.remark, .remark status member, True.intro⟩).mono
          (fun _ _ _ _ _ => True.intro) fun _ _ _ _ _ => True.intro
      split
      · exact remark _
      · split
        · exact remark _
        · rename_i early
          rw [same] at early
          simp only [Phase.json_inj, not_or] at early
          refine Action.Meets.run keepOwnership_meets (fun now keep extended decided => ?_)
            fun _ _ _ _ => True.intro
          have destructive : phase = .installing → keep = true := by
            rintro rfl
            obtain ⟨_, _, _, entered, _⟩ := decided
            exact entered found
          have source : phase = .preparingBoot ∨ phase = .awaitingLive ∨ phase = .installing := by
            simp only [ACTIVE, List.mem_cons, List.not_mem_nil, or_false] at member
            rcases member with rfl | rfl | rfl | rfl | rfl <;> simp at early ⊢
          refine Action.Meets.bind (checkpoint_meets found fun later target calm _ _ uid status =>
            ⟨.block keep, .block ?_ ?_, decided.backs held since found calm uid status⟩)
            (fun _ _ _ _ _ => ?_) fun _ _ _ _ _ => True.intro
          · rw [status]
            simpa using source
          · rw [status]
            simpa using destructive
          · exact Action.Meets.load (Action.meets_lift.mpr releaseRun_meets)

/-- Advancing one Server starts from a view that was bound just now. -/
theorem attemptServer_meets {env : Environment} {name : String} {hostVars : Object} {revision : String}
    {preflight : Bool} (fresh : Fresh trace view) :
    (attemptServer env name hostVars revision preflight).Meets discipline trace view
      (fun _ _ _ => True) (fun _ _ _ => True) := by
  have held := fresh.toHeld
  have body : Action.Meets discipline (do
      let observed ← hostAddress view.server
      let captured ← itemString hostVars "ansible_host"
      let expected ← address captured
      demand (observed = expected) (provisioningBlocked "Capture-group management address is stale")
      reconcile env hostVars revision preflight
      return none : Pass View (Option Exn)) trace view
      (fun later _ state => Held later state) (fun later _ state => Held later state) := by
    refine Action.Meets.check (fun _ _ => ?_) fun _ => held
    refine Action.Meets.check (fun _ _ => ?_) fun _ => held
    refine Action.Meets.check (fun _ _ => ?_) fun _ => held
    refine Action.Meets.check (fun _ _ => ?_) fun _ => held
    exact Action.Meets.bind (reconcile_meets fresh) (fun _ _ _ _ held => held) fun _ _ _ _ held => held
  refine Action.Meets.load (Action.meets_tryCatch.mpr (body.mono (fun _ _ _ _ _ => True.intro)
    fun now failure state _ held => ?_))
  split
  · refine Action.meets_bind.mpr (Action.meets_lift.mpr (Op.meets_perform.mpr
      ⟨True.intro, fun _ _ => ?_, fun _ _ => True.intro⟩))
    let warning : Event := ⟨.host (.warn (name ++ ": " ++ failureMessage failure)), .ok ()⟩
    have since : Since (now ++ [warning]) [] := ⟨now, warning, rfl, rfl, by simp⟩
    cases preflight with
    | true => exact True.intro
    | false =>
        exact Action.Meets.bind (handleFailure_meets (held.mono (List.prefix_append now [warning])) since)
          (fun _ _ _ _ _ => True.intro) fun _ _ _ _ _ => True.intro
  · exact True.intro

/-- Every pass keeps to the discipline, whatever it is told by the API and the host. -/
theorem main_meets (env : Environment) (preflight : Bool) :
    (main env preflight).Meets discipline trace (fun _ _ => True) (fun _ _ => True) :=
  discipline_lenient.main discipline_trusting fun _ _ _ fresh => attemptServer_meets fresh

end Homelab.Provisioning
