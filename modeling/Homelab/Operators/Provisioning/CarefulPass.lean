import Homelab.Operators.Provisioning.Safeguards

namespace Homelab.Provisioning

open Json (Object)
open Api (Seen)
open Interaction (Op Action Contract Extends)

/-! # Every pass is careful -/

variable {trace later : Trace} {view : View}

/-! ## Facts and what was made of them -/

theorem validateDisk_ok {facts : Object} {result : Unit} (valid : validateDisk facts true = .ok result) :
    SafeTarget facts := by
  obtain ⟨uefi, foundUefi, valid⟩ := bind_ok valid
  obtain ⟨secureBoot, foundSecure, valid⟩ := bind_ok valid
  obtain ⟨_, firmware, valid⟩ := bind_ok valid
  dsimp only at valid
  rw [if_pos rfl] at valid
  obtain ⟨live, foundLive, valid⟩ := bind_ok valid
  obtain ⟨mounted, foundMounted, valid⟩ := bind_ok valid
  obtain ⟨rootOnTarget, foundRoot, valid⟩ := bind_ok valid
  obtain ⟨_, independent, _⟩ := bind_ok valid
  have firmware := demand_ok firmware
  have independent := demand_ok independent
  simp only [Bool.and_eq_true, decide_eq_true_eq, Bool.not_eq_true'] at firmware independent
  exact {
    unmounted := by rw [item_holds foundMounted, independent.1.2]
    rootless := by rw [item_holds foundRoot, independent.2]
    uefi := by rw [item_holds foundUefi, firmware.1]
    secureBoot := by rw [item_value foundSecure, firmware.2] }

theorem acceptSession_ok {attempt facts : Object} (accepted : acceptSession attempt facts true = .ok true) :
    LiveSession attempt facts := by
  obtain ⟨observed, foundLive, accepted⟩ := bind_ok accepted
  obtain ⟨bootID, foundBoot, accepted⟩ := bind_ok accepted
  simp only [if_true] at accepted
  split at accepted
  · rename_i changed
    obtain ⟨build, foundBuild, accepted⟩ := bind_ok accepted
    obtain ⟨snapshot, foundPlan, accepted⟩ := bind_ok accepted
    obtain ⟨pinned, foundPinned, accepted⟩ := bind_ok accepted
    obtain ⟨_, same, _⟩ := bind_ok accepted
    exact {
      live := by rw [item_holds foundLive, changed.1]; rfl
      build := by
        rw [item_value foundBuild, pinnedPlan, itemObject_fields foundPlan, item_value foundPinned]
        simpa using demand_ok same
      booted := by
        rw [item_value foundBoot]
        simpa using changed.2 }
  · simp [pure, Except.pure] at accepted

theorem confirmLive_ok {attempt facts : Object} {result : Unit}
    (confirmed : confirmLive attempt facts = .ok result) :
    LiveSession attempt facts ∧ Json.Same (value facts "bootID") (value attempt "liveBootID") := by
  obtain ⟨bootID, foundBoot, confirmed⟩ := bind_ok confirmed
  obtain ⟨sourceBootID, foundSource, confirmed⟩ := bind_ok confirmed
  obtain ⟨liveBootID, foundRecorded, confirmed⟩ := bind_ok confirmed
  obtain ⟨live, foundLive, confirmed⟩ := bind_ok confirmed
  obtain ⟨build, foundBuild, confirmed⟩ := bind_ok confirmed
  obtain ⟨snapshot, foundPlan, confirmed⟩ := bind_ok confirmed
  obtain ⟨pinned, foundPinned, confirmed⟩ := bind_ok confirmed
  have checks := demand_ok confirmed
  simp only [Bool.and_eq_true, Bool.not_eq_true', decide_eq_false_iff_not, decide_eq_true_eq] at checks
  obtain ⟨⟨⟨fresh, recorded⟩, running⟩, intended⟩ := checks
  refine ⟨{ live := ?_, build := ?_, booted := ?_ }, ?_⟩
  · rw [item_holds foundLive, running]
  · rwa [item_value foundBuild, pinnedPlan, itemObject_fields foundPlan, item_value foundPinned]
  · rwa [item_value foundBoot, item_value foundSource]
  · rwa [item_value foundBoot, item_value foundRecorded]

/-! ## Views -/

/-- A state that stands for the same run of the same Server. -/
structure Persists (view : View) (trace : Trace) (state : View) : Prop extends Bound trace state where
  sameRun : state.run.uid = view.run.uid
  sameServer : state.server.uid = view.server.uid

theorem Persists.refl (bound : Bound trace view) : Persists view trace view := ⟨bound, rfl, rfl⟩

theorem Persists.mono {state : View} (kept : Persists view trace state) (extended : trace <+: later) :
    Persists view later state :=
  ⟨kept.toBound.mono extended, kept.sameRun, kept.sameServer⟩

theorem Persists.trans {middle state : View} (first : Persists view trace middle) (second : Persists middle later state) :
    Persists view later state :=
  ⟨second.toBound, second.sameRun.trans first.sameRun, second.sameServer.trans first.sameServer⟩

theorem Revalidated.kept {latest : View} (revalidated : Revalidated trace view later latest) :
    Persists view later latest := by
  obtain ⟨_, _, fresh, unchanged⟩ := revalidated
  exact ⟨fresh.bound, unchanged.run, unchanged.server⟩

theorem Checkpointed.kept {fields : Object} {state : View}
    (written : Checkpointed trace view fields later state) : Persists view later state :=
  ⟨written.bound, written.run, written.server⟩

theorem care_current {allowPaused allowNetworkPending : Bool} :
    (current view allowPaused allowNetworkPending).Meets care trace
      (fun later latest => Revalidated trace view later latest ∧
        (allowPaused = false → Enabled latest.server) ∧
        (allowNetworkPending = false → Reported latest.server))
      (fun later _ => Plainly trace later) :=
  care_lenient.current care_trusting

theorem care_checkpoint {phase source : Phase} {fields : Object}
    (found : phaseOf view.provisioning = some source) :
    (checkpoint phase.json fields).Meets care trace view
      (fun later _ state => Checkpointed trace view (checkpointFields phase.json fields) later state)
      (fun later _ state => Gently trace later ∧ state = view) :=
  care_lenient.checkpoint care_trusting found fun _ _ _ _ _ _ _ => True.intro

theorem knownFile_holds {env : Environment} {key : Json} :
    (knownFile env view key).Meets care trace
      (fun later known => Plainly trace later ∧ ∃ text, HoldsKey view.server.uid text known ∧
        ((key.truthy = true ∧ key = .str text) ∨
          value (value view.server.status "hostSSH").fields "publicKey" = .str text))
      (fun later _ => Plainly trace later) := by
  refine Op.Meets.check (fun name named => ?_) fun _ => .refl _
  have origin : ∀ text, (if key.truthy then asString key
      else do
        let host ← itemObject view.server.status "hostSSH"
        itemString host "publicKey" : Except Exn String) = .ok text →
      (key.truthy = true ∧ key = .str text) ∨
        value (value view.server.status "hostSSH").fields "publicKey" = .str text := by
    intro text found
    split at found
    · rename_i given
      exact .inl ⟨given, asString_ok found⟩
    · obtain ⟨host, foundHost, found⟩ := bind_ok found
      right
      rw [itemObject_fields foundHost]
      simp [value, itemString_ok found]
  refine Op.Meets.check (fun text found => ?_) fun _ => .refl _
  refine Op.Meets.check (fun pinned normal => ?_) fun _ => .refl _
  refine Op.meets_bind.mpr (Op.meets_perform.mpr
    ⟨True.intro, fun _ _ => ?_, fun _ _ => .event _ rfl⟩)
  exact ⟨.event _ rfl, text, ⟨name, pinned, named, normal, rfl⟩, origin text found⟩

theorem inspect_strict {env : Environment} {known : KnownHosts} :
    (inspect env view known).Meets care trace
      (fun later facts => ∃ event, later = trace ++ [event] ∧ StrictProbe view known facts event)
      (fun later _ => Plainly trace later) := by
  refine Op.Meets.check (fun host _ => ?_) fun _ => .refl _
  refine Op.Meets.check (fun session built => ?_) fun _ => .refl _
  refine Op.Meets.check (fun disk _ => ?_) fun _ => .refl _
  refine Op.meets_bind.mpr (Op.meets_perform.mpr ⟨True.intro, fun output _ => ?_, fun _ _ => .event _ rfl⟩)
  cases output with
  | none =>
      have probed : Plainly trace (trace ++ [⟨Request.host (.probe session disk), .ok none⟩]) := .event _ rfl
      exact probed
  | some facts =>
      refine Op.meets_ofExcept.mpr ⟨fun fields shape => ?_, fun _ _ => .event _ rfl⟩
      rw [asObject_ok shape]
      exact ⟨_, rfl, env, host, session, disk, built, rfl⟩

theorem StrictProbe.plainly {known : KnownHosts} {facts : Object} {event : Event}
    (probed : StrictProbe view known facts event) : Plainly trace (trace ++ [event]) := by
  obtain ⟨_, _, _, _, _, rfl⟩ := probed
  exact .event _ rfl

/-! ## Sessions -/

/-- The pass got through to the Server of a view that it had read, with a trust
file it had reason to use, and then stands at `state`. -/
def Met (trace later : Trace) (state : View) (facts : Object) (known : KnownHosts) (seen : View) : Prop :=
  ∃ earlier event rest, later = earlier ++ event :: rest ∧ trace <+: earlier ∧ Held earlier seen ∧
    seen.run.uid = state.run.uid ∧ StrictProbe seen known facts event ∧
    Trusted earlier rest seen known ∧ Confirmed later seen state.run

/-- The state is that of the same run and Server, in the same phase. -/
structure Stays (view : View) (phase : Phase) (trace : Trace) (state : View) : Prop
    extends Persists view trace state where
  found : phaseOf state.provisioning = some phase

theorem Stays.mono {phase : Phase} {state : View} (stays : Stays view phase trace state)
    (extended : trace <+: later) : Stays view phase later state :=
  ⟨stays.toPersists.mono extended, stays.found⟩

theorem Stays.trans {phase : Phase} {middle state : View} {start : Trace}
    (first : Stays view phase start middle) (second : Stays middle phase later state) :
    Stays view phase later state :=
  ⟨⟨second.toBound, second.sameRun.trans first.sameRun, second.sameServer.trans first.sameServer⟩,
    second.found⟩

theorem Stays.plain {phase : Phase} {α : Type} {body : Task α} {state : View}
    (stays : Stays view phase trace state) (plain : Plain body) :
    body.Meets care trace (fun later _ => Stays view phase later state ∧ Plainly trace later)
      (fun later _ => Stays view phase later state) :=
  (care_lenient.meets plain).mono (fun _ _ extended plainly => ⟨stays.mono extended, plainly⟩)
    fun _ _ extended _ => stays.mono extended

theorem gentle_secret {request : Request}
    (gentle : isPlain request = true ∨ ∃ resource status, request = .patchStatus resource status) :
    fetchesSecret request = false := by
  rcases gentle with plain | ⟨resource, status, rfl⟩
  · cases request with
    | host call => cases call <;> first | rfl | simp at plain
    | _ => rfl
  · rfl

/-- An acknowledged write is the last event, after no secret was fetched. -/
theorem Checkpointed.acknowledged {fields : Object} {state : View}
    (written : Checkpointed trace view fields later state) :
    ∃ quiet target, later = trace ++ quiet ++ [⟨.patchStatus target fields, .ok state.run⟩] ∧
      (∀ event ∈ quiet, fetchesSecret event.request = false) ∧ target.kind = .provisioningRun ∧
      target.uid = view.run.uid ∧
      Json.Same (value target.status "snapshot") (value view.provisioning "snapshot") := by
  obtain ⟨middle, earlier, latest, before, gently, revalidated, rfl, _, _⟩ := written.written
  obtain ⟨events, rfl, gentle⟩ := gently.trans revalidated.plainly.gently
  obtain ⟨_, _, fresh, unchanged⟩ := revalidated
  refine ⟨events, latest.run, rfl, fun event member => gentle_secret (gentle event member), fresh.kind,
    unchanged.run, ?_⟩
  rw [← fresh.same]
  exact unchanged.snapshot

theorem Checkpointed.gently {fields : Object} {state : View}
    (written : Checkpointed trace view fields later state) : Gently trace later := by
  obtain ⟨middle, earlier, latest, before, gently, revalidated, rfl, _, _⟩ := written.written
  exact (gently.trans revalidated.plainly.gently).trans (.event earlier (.inr ⟨latest.run, fields, rfl⟩))

/-- A first contact is used only once its key has been pinned to the run. -/
theorem firstContact_met {env : Environment} (stays : Stays view .awaitingLive trace view) :
    (firstContact env).Meets care trace view
      (fun later session state => Stays view .awaitingLive later state ∧
        Met trace later state session.1 session.2.1 view)
      (fun later _ state => Stays view .awaitingLive later state) := by
  refine Action.Meets.load (Action.Meets.run (stays.plain (run_plain (.writeText _ _) rfl))
    (fun now _ extended kept => ?_) fun _ _ _ stays => stays)
  replace stays := kept.1
  refine Action.Meets.check (fun host _ => ?_) fun _ => stays
  refine Action.Meets.run (stays.plain (sshProbe_plain _ _ _ _ _)) (fun probed known more kept => ?_)
    fun _ _ _ stays => stays
  replace stays := kept.1
  replace extended := extended.trans more
  refine Action.Meets.check (fun pin only => ?_) fun _ => stays
  refine Action.Meets.run inspect_strict (fun inspected facts more probe => ?_)
    fun _ _ extended _ => stays.mono extended
  obtain ⟨event, rfl, strict⟩ := probe
  have held := stays.toHeld
  replace stays := stays.mono more
  refine Action.Meets.check (fun _ _ => ?_) fun _ => stays
  refine Action.Meets.check (fun _ _ => ?_) fun _ => stays
  refine Action.Meets.bind (care_checkpoint stays.found) (fun final _ state _ written => ?_)
    fun _ _ state extended kept => kept.2 ▸ stays.mono extended
  have done : Stays view .awaitingLive final state := ⟨written.kept, written.phase (by simp)⟩
  obtain ⟨quiet, target, rfl, silent, kind, run, plan⟩ := written.acknowledged
  refine ⟨done, probed, event, quiet ++ [⟨.patchStatus target (checkpointFields Phase.awaitingLive.json
      [("bootstrapPublicKey", .str pin)]), .ok state.run⟩], by simp, extended, held, done.sameRun.symm,
    strict, .contacted only rfl silent kind run rfl, .inr ⟨target, _,
      List.mem_append_right _ (List.mem_singleton.mpr rfl), kind, by simp [checkpointFields], ?_⟩⟩
  rw [← stays.same]
  exact plan

theorem contact_met {env : Environment} {live : Bool} {phase : Phase} (stays : Stays view phase trace view)
    (liveOnly : live = true → phase = .awaitingLive) :
    (contact env live).Meets care trace view
      (fun later reached state => Stays view phase later state ∧
        ∀ session, reached = some session → live = true → Met trace later state session.1 session.2 view)
      (fun later _ state => Stays view phase later state) := by
  refine Action.Meets.load (Action.Meets.run knownFile_holds (fun now known extended trust => ?_)
    fun _ _ extended _ => stays.mono extended)
  obtain ⟨plainly, text, only, origin⟩ := trust
  have bound := stays.toBound
  replace stays := stays.mono extended
  refine Action.Meets.run inspect_strict.attempt (fun inspected outcome more probe => ?_)
    fun _ _ _ impossible => impossible.elim
  cases outcome with
  | ok facts =>
      obtain ⟨event, rfl, strict⟩ := probe
      refine ⟨stays.mono more, fun session found isLive => ?_⟩
      obtain rfl := Option.some.inj found
      refine ⟨now, event, [], rfl, extended, stays.toHeld, rfl, strict, ?_, .inl rfl⟩
      cases origin with
      | inl pinned =>
          rw [isLive, if_pos rfl] at pinned
          refine .pinned ?_ only
          rw [← stays.same]
          exact pinned.2
      | inr managed => exact .managed (bound.server.mono extended) bound.serverKind rfl managed only
  | error failure =>
      replace stays := stays.mono more
      dsimp only
      generalize (if live = true then value view.provisioning "bootstrapPublicKey" else Json.null) = pin
      split
      · split
        · rename_i unpinned
          obtain rfl := liveOnly (Bool.and_eq_true_iff.mp unpinned).1
          refine Action.meets_tryCatch.mpr (Action.Meets.bind (firstContact_met stays)
            (fun final session state further met => ?_) fun final other state _ stays => ?_)
          · refine ⟨met.1, fun session found _ => ?_⟩
            obtain rfl := Option.some.inj found
            obtain ⟨earlier, event, rest, shape, start, others⟩ := met.2
            exact ⟨earlier, event, rest, shape, (extended.trans more).trans start, others⟩
          · split
            · exact ⟨stays, by simp⟩
            · exact stays
        · exact ⟨stays, by simp⟩
      · exact stays

theorem awaitRounds_met {env : Environment} {live : Bool} {phase : Phase} (rounds : Nat)
    (stays : Stays view phase trace view) (liveOnly : live = true → phase = .awaitingLive) :
    (awaitRounds env live rounds).Meets care trace view
      (fun later session state => Stays view phase later state ∧
        (live = true → ∃ seen, Met trace later state session.1 session.2 seen ∧
          LiveSession seen.provisioning session.1))
      (fun later _ state => Stays view phase later state) := by
  -- Every round starts over from a fresh read, of the same run in the same phase.
  suffices general : ∀ (rounds : Nat) (start : Trace) (current : View), trace <+: start →
      Stays view phase start current →
      (awaitRounds env live rounds).Meets care start current
        (fun later session state => Stays view phase later state ∧
          (live = true → ∃ seen, Met trace later state session.1 session.2 seen ∧
            LiveSession seen.provisioning session.1))
        (fun later _ state => Stays view phase later state) from
    general rounds trace view (List.prefix_refl _) stays
  intro rounds
  induction rounds with
  | zero => exact fun _ _ _ stays => stays
  | succ rounds ih =>
      intro start view' extended stays
      refine Action.Meets.load (Action.Meets.run care_current (fun now latest more read => ?_)
        fun _ _ more _ => stays.mono more)
      obtain ⟨revalidated, _, _⟩ := read
      have kept := revalidated.kept
      obtain ⟨_, _, _, unchanged⟩ := revalidated
      have found := unchanged.phaseOf stays.found
      replace stays : Stays view phase now latest := stays.trans ⟨kept, found⟩
      refine Action.Meets.store ?_
      have again := ih now latest (extended.trans more) stays
      split
      · exact again
      · exact stays
      · have own : Stays latest phase now latest := ⟨.refl stays.toBound, found⟩
        refine Action.Meets.bind (contact_met own liveOnly) (fun final reached state further outcome => ?_)
          fun _ _ _ _ failed => stays.trans failed
        obtain ⟨after, met⟩ := outcome
        have stays : Stays view phase final state := stays.trans after
        cases reached with
        | none => exact ih final state ((extended.trans more).trans further) stays
        | some session =>
            obtain ⟨facts, known⟩ := session
            refine Action.Meets.check (fun accepted passed => ?_) fun _ => stays
            split
            · rename_i yes
              refine ⟨stays, fun isLive => ⟨latest, ?_, ?_⟩⟩
              · obtain ⟨earlier, event, rest, shape, before, others⟩ := met _ rfl isLive
                exact ⟨earlier, event, rest, shape, (extended.trans more).trans before, others⟩
              · subst isLive yes
                exact acceptSession_ok passed
            · exact ih final state ((extended.trans more).trans further) stays

theorem awaitSession_stays {env : Environment} {live : Bool} {phase : Phase}
    (stays : Stays view phase trace view) (liveOnly : live = true → phase = .awaitingLive) :
    (awaitSession env live).Meets care trace view
      (fun later _ state => Stays view phase later state)
      (fun later _ state => Stays view phase later state) :=
  Action.Meets.run (stays.plain (run_plain .rounds rfl))
    (fun _ rounds _ kept => (awaitRounds_met rounds kept.1 liveOnly).mono
      (fun _ _ _ _ met => met.1) fun _ _ _ _ stays => stays) fun _ _ _ stays => stays

/-- The facts are those of the intended live session of the run that the pass stands at. -/
def Attesting (trace : Trace) (state : View) (facts : Object) : Prop :=
  ∃ seen earlier event rest known, trace = earlier ++ event :: rest ∧ Held earlier seen ∧
    seen.run.uid = state.run.uid ∧ StrictProbe seen known facts event ∧ Trusted earlier rest seen known ∧
    Recorded earlier seen facts ∧ LiveSession seen.provisioning facts ∧ Confirmed trace seen state.run

/-- The trust file holds the managed key of a Server that the pass has read. -/
def Manages (trace : Trace) (uid : String) (known : KnownHosts) : Prop :=
  ∃ server key, Seen trace server ∧ server.kind = .server ∧ server.uid = uid ∧
    value (value server.status "hostSSH").fields "publicKey" = .str key ∧ HoldsKey uid key known

theorem Manages.mono {uid : String} {known : KnownHosts} (manages : Manages trace uid known)
    (extended : trace <+: later) : Manages later uid known := by
  obtain ⟨server, key, seen, found⟩ := manages
  exact ⟨server, key, seen.mono extended, found⟩

/-- The live session is found either again, as recorded, or by waiting for it. -/
theorem reachLive_attesting {env : Environment} {known : KnownHosts}
    (stays : Stays view .awaitingLive trace view) (manages : Manages trace view.server.uid known) :
    (reachLive env known).Meets care trace view
      (fun later session state => Stays view .awaitingLive later state ∧ Attesting later state session.1)
      (fun later _ state => Stays view .awaitingLive later state) := by
  have found := stays.found
  rw [stays.same] at found
  refine Action.Meets.load ?_
  split
  · refine Action.Meets.run inspect_strict (fun inspected facts extended probe => ?_)
      fun _ _ extended _ => stays.mono extended
    obtain ⟨event, rfl, strict⟩ := probe
    refine Action.Meets.check (fun _ confirmed => ?_) fun _ => stays.mono extended
    obtain ⟨session, recorded⟩ := confirmLive_ok confirmed
    obtain ⟨server, key, seen, kind, same, stored, only⟩ := manages
    rw [stays.same] at recorded
    exact ⟨stays.mono extended, view, trace, event, [], known, rfl, stays.toHeld, rfl, strict,
      .managed seen kind same stored only, ⟨trace, [], view.run, by simp, stays.run, stays.kind, rfl, found,
        .inl rfl, fun _ => ⟨rfl, recorded⟩⟩, session, .inl rfl⟩
  · rename_i unrecorded
    have waiting : (Host.run .rounds : Task Nat).Meets care trace
        (fun later rounds => later = trace ++ [⟨.host .rounds, .ok rounds⟩]) (fun _ _ => True) :=
      Op.meets_perform.mpr ⟨True.intro, fun _ _ => rfl, fun _ _ => True.intro⟩
    refine Action.Meets.run waiting (fun set rounds extended shape => ?_)
      fun _ _ extended _ => stays.mono extended
    subst shape
    have own : Stays view .awaitingLive (trace ++ [⟨Request.host .rounds, .ok rounds⟩]) view :=
      stays.mono extended
    refine (awaitRounds_met rounds own fun _ => rfl).mono (fun later session state _ met => ?_)
      fun _ _ _ _ stays => stays
    obtain ⟨after, met⟩ := met
    obtain ⟨seen, ⟨earlier, event, rest, rfl, start, held, run, strict, trusted, confirmed⟩, live⟩ := met rfl
    obtain ⟨more, rfl⟩ := start
    refine ⟨after, seen, _, event, rest, session.2, rfl, held, run, strict, trusted, ?_, live, confirmed⟩
    refine ⟨trace, _, view.run, List.append_assoc _ _ _, stays.run, stays.kind,
      (run.trans after.sameRun).symm, found, .inr ⟨rounds, more, rfl⟩, fun recorded => ?_⟩
    rw [← stays.same] at recorded
    exact absurd recorded unrecorded

/-- What makes the facts of a live session good enough for its key and its disk. -/
theorem Attesting.deliverable {facts : Object} {snapshot : Object} {disk pinned : Json} {result : Unit}
    (attesting : Attesting trace view facts) (held : Held trace view)
    (safe : validateDisk facts true = .ok result) (plan : itemObject view.provisioning "snapshot" = .ok snapshot)
    (observed : item facts "disk" = .ok disk) (approved : item snapshot "diskIdentity" = .ok pinned)
    (same : Json.Same disk pinned) : Deliverable trace view.run.uid := by
  obtain ⟨seen, earlier, event, rest, known, shape, read, run, strict, trusted, recorded, live, confirmed⟩ :=
    attesting
  refine ⟨seen, view.run, ⟨earlier, event, rest, known, facts, shape, read, strict, trusted, recorded, live,
    validateDisk_ok safe, ?_⟩, confirmed, run⟩
  rw [item_value observed, pinnedPlan, ← held.same, itemObject_fields plan, item_value approved]
  exact same

/-! ## Stages and secrets -/

theorem careful_stage {stage uid : String} (argv : List String) {files : List (String × Json)}
    (found : stageOf files = some (stage, uid))
    (physical : IsPhysical trace stage → (stage = "refresh-prepare" → LastReady trace) → Guarded trace uid)
    (install : stage = "install" → Deliverable trace uid) : Careful trace (.host (.spawn argv files)) := by
  intro other id same
  obtain ⟨rfl, rfl⟩ := Prod.mk.inj (Option.some.inj (found.symm.trans same))
  exact ⟨physical, install⟩

theorem runStage_guarded {env : Environment} {known : KnownHosts} {stage : String}
    (guarded : Guarded trace view.run.uid)
    (install : stage = "install" → Deliverable trace view.run.uid) :
    (runStage env view known stage).Meets care trace (fun _ _ => True) (fun _ _ => True) := by
  refine (care_lenient.runStage fun later argv files drafts found => ?_).mono
    (fun _ _ _ _ => True.intro) fun _ _ _ _ => True.intro
  exact careful_stage argv found (fun _ _ => guarded.gently drafts.plainly.gently)
    fun same => (install same).mono drafts.prefix

/-- A stage that is no physical one needs no guard. -/
theorem runStage_plain {env : Environment} {known : KnownHosts} {stage : String}
    (other : ∀ later, Drafts trace later → ¬ IsPhysical later stage) (plain : stage ≠ "install") :
    (runStage env view known stage).Meets care trace (fun _ _ => True) (fun _ _ => True) := by
  refine (care_lenient.runStage fun later argv files drafts found => ?_).mono
    (fun _ _ _ _ => True.intro) fun _ _ _ _ => True.intro
  exact careful_stage argv found (fun physical => absurd physical (other later drafts))
    fun same => absurd same plain

theorem runOf_secret {event : Event} (asks : asksSecret event.request = true) : runOf event = none := by
  obtain ⟨request, reply⟩ := event
  cases request with
  | get kind name => cases kind <;> first | rfl | simp [asksSecret] at asks
  | host call => rfl
  | _ => simp [asksSecret] at asks

theorem hostPrivateKey_careful {env : Environment} {server : Resource} {uid : String}
    (serving : Serving trace uid) (deliverable : Deliverable trace uid) :
    (hostPrivateKey env server).Meets care trace (fun _ _ => True) (fun _ _ => True) := by
  refine (Op.Confined.meets (hostPrivateKey_secret env server) fun later request asked asks => ?_).mono
    (fun _ _ _ _ => True.intro) fun _ _ _ _ => True.intro
  have served : Serving later uid := by
    obtain ⟨events, rfl, asking⟩ := asked
    have silent : events.filterMap runOf = [] :=
      List.filterMap_eq_nil_iff.mpr fun event member => runOf_secret (asking event member)
    obtain ⟨run, told, same⟩ := serving
    exact ⟨run, by simpa [lastRun, silent] using told, same⟩
  cases request with
  | host call => cases call <;> first | exact True.intro | exact ⟨uid, served, deliverable.mono asked.prefix⟩ |
      simp [asksSecret] at asks
  | get => exact True.intro
  | _ => simp [asksSecret] at asks

/-- The view stays while its host may be handed its key. -/
structure Delivering (view : View) (trace : Trace) : Prop extends Stays view .awaitingLive trace view where
  deliverable : Deliverable trace view.run.uid

theorem Delivering.mono (delivering : Delivering view trace) (extended : trace <+: later) :
    Delivering view later :=
  ⟨delivering.toStays.mono extended, delivering.deliverable.mono extended⟩

theorem Delivering.plain {α : Type} {body : Task α} (delivering : Delivering view trace) (plain : Plain body) :
    body.Meets care trace (fun later _ => Delivering view later) (fun later _ => Persists view later view) :=
  (care_lenient.meets plain).mono (fun _ _ extended _ => delivering.mono extended)
    fun _ _ extended _ => delivering.toPersists.mono extended

/-- Enrolling asks for the key of the host whose session was attested. -/
theorem enrollLive_careful {env : Environment} {facts : Object} {known : KnownHosts}
    (stays : Stays view .awaitingLive trace view) (attesting : Attesting trace view facts) :
    (enrollLive env facts known).Meets care trace view
      (fun later _ state => Stays view .awaitingLive later state ∧ Deliverable later view.run.uid)
      (fun later _ state => Persists view later state) := by
  refine Action.Meets.load (Action.Meets.check (fun snapshot plan => ?_) fun _ => stays.toPersists)
  refine Action.Meets.check (fun _ safe => ?_) fun _ => stays.toPersists
  refine Action.Meets.check (fun disk observed => ?_) fun _ => stays.toPersists
  refine Action.Meets.check (fun pinned approved => ?_) fun _ => stays.toPersists
  refine Action.Meets.check (fun _ same => ?_) fun _ => stays.toPersists
  have ready : Delivering view trace := ⟨stays, attesting.deliverable stays.toHeld safe plan observed
    approved (by simpa using demand_ok same)⟩
  refine Action.Meets.run care_current (fun now latest extended read => ?_)
    fun _ _ extended _ => stays.toPersists.mono extended
  obtain ⟨revalidated, _, _⟩ := read
  replace ready := ready.mono extended
  have serving : Serving now view.run.uid := ⟨latest.run, revalidated.lastRun, revalidated.kept.sameRun⟩
  refine Action.Meets.run (hostPrivateKey_careful serving ready.deliverable) (fun now key extended _ => ?_)
    fun _ _ extended _ => ready.toPersists.mono extended
  replace ready := ready.mono extended
  refine Action.Meets.run (ready.plain (run_plain (.writeText _ _) rfl)) (fun now _ _ ready => ?_)
    fun _ _ _ kept => kept
  refine Action.Meets.run (ready.plain (checkOutput_plain _)) (fun now derived _ ready => ?_)
    fun _ _ _ kept => kept
  refine Action.Meets.check (fun _ _ => ?_) fun _ => ready.toPersists
  refine Action.Meets.check (fun _ _ => ?_) fun _ => ready.toPersists
  refine Action.Meets.check (fun _ _ => ?_) fun _ => ready.toPersists
  refine Action.Meets.check (fun _ _ => ?_) fun _ => ready.toPersists
  refine Action.Meets.run (ready.plain (current_plain _ _ _)) (fun now _ _ ready => ?_)
    fun _ _ _ kept => kept
  refine Action.Meets.check (fun _ _ => ?_) fun _ => ready.toPersists
  refine Action.Meets.run (ready.plain (run_plain (.readText _) rfl)) (fun now trusted _ ready => ?_)
    fun _ _ _ kept => kept
  refine Action.Meets.run (ready.plain (extendTrust_plain _ _ _)) (fun now known _ ready => ?_)
    fun _ _ _ kept => kept
  refine Action.Meets.check (fun _ _ => ?_) fun _ => ready.toPersists
  refine Action.Meets.run (care_lenient.runPlay (by simp) fun later argv files unstaged => ?_)
    (fun now _ extended _ => ?_) fun _ _ extended _ => ready.toPersists.mono extended
  · intro stage uid found
    rw [unstaged] at found
    contradiction
  replace ready := ready.mono extended
  refine Action.Meets.run (ready.plain (knownFile_plain _ _ _)) (fun now known _ ready => ?_)
    fun _ _ _ kept => kept
  refine Action.Meets.run (ready.plain (sshProbe_plain _ _ _ _ _)) (fun now known _ ready => ?_)
    fun _ _ _ kept => kept
  refine Action.Meets.check (fun _ _ => ?_) fun _ => ready.toPersists
  exact Action.Meets.bind (care_checkpoint ready.found)
    (fun _ _ state extended written =>
      ⟨⟨written.kept, written.phase (by simp)⟩, ready.deliverable.mono extended⟩)
    fun _ _ state extended kept => kept.2 ▸ ready.toPersists.mono extended

/-! ## Handover, installation and completion -/

theorem LastReady.of_checkpointed {fields : Object} {state : View} {stage : String}
    (held : Held trace view) (written : Checkpointed trace view fields now state)
    (drafts : Drafts now later) (refresh : stage = "refresh-prepare" → LastReady later)
    (same : stage = "refresh-prepare") : Guarded later state.run.uid := by
  obtain ⟨server, told, enabled, reported⟩ := refresh same
  rw [drafts.lastServer] at told
  obtain ⟨middle, earlier, latest, before, gently, revalidated, rfl, _, _⟩ := written.written
  have read : lastServer (earlier ++ [⟨.patchStatus latest.run fields, .ok state.run⟩]) =
      lastServer earlier := by
    have silent : List.filterMap serverOf [⟨.patchStatus latest.run fields, .ok state.run⟩] = [] := rfl
    rw [lastServer, List.filterMap_append, silent, List.append_nil, lastServer]
  rw [read, revalidated.lastServer] at told
  obtain rfl := Option.some.inj told
  have guarded := Guarded.of_revalidated revalidated (held.mono gently.prefix) enabled reported
  rw [written.run]
  refine guarded.gently (Extends.trans ?_ drafts.plainly.gently)
  exact .event earlier (.inr ⟨latest.run, fields, rfl⟩)

/-- Before every stage of the handover the Server is revalidated, although before
one of them only as far as its last read lets it pass. -/
theorem prepareBoot_careful {env : Environment} {known : KnownHosts}
    (stays : Stays view .preparingBoot trace view) (guarded : Guarded trace view.run.uid) :
    (prepareBoot env known).Meets care trace view
      (fun later _ state => Persists view later state) (fun later _ state => Persists view later state) := by
  refine Action.Meets.load (Action.Meets.run (stays.plain (inspect_plain _ _ _))
    (fun now facts _ kept => ?_) fun _ _ _ stays => stays.toPersists)
  replace stays := kept.1
  replace guarded := guarded.gently kept.2.gently
  refine Action.Meets.check (fun _ _ => ?_) fun _ => stays.toPersists
  refine Action.Meets.check (fun _ _ => ?_) fun _ => stays.toPersists
  refine Action.Meets.check (fun _ _ => ?_) fun _ => stays.toPersists
  refine Action.Meets.check (fun _ _ => ?_) fun _ => stays.toPersists
  refine Action.Meets.check (fun _ _ => ?_) fun _ => stays.toPersists
  refine Action.Meets.check (fun _ _ => ?_) fun _ => stays.toPersists
  refine Action.Meets.check (fun _ _ => ?_) fun _ => stays.toPersists
  refine Action.Meets.run (stays.plain (artifactPreflight_plain _ _)) (fun now _ _ kept => ?_)
    fun _ _ _ stays => stays.toPersists
  replace stays := kept.1
  replace guarded := guarded.gently kept.2.gently
  refine Action.Meets.check (fun live _ => ?_) fun _ => stays.toPersists
  have strict : ∀ {before : Trace} {state : View}, Persists view before state →
      (current state false false).Meets care before
        (fun later _ => Persists view later state ∧ Guarded later state.run.uid)
        (fun later _ => Persists view later state) := by
    intro before state kept
    refine care_current.mono (fun later latest extended read => ?_) fun _ _ extended _ => kept.mono extended
    obtain ⟨revalidated, enabled, reported⟩ := read
    exact ⟨kept.mono extended, .of_revalidated revalidated kept.toHeld (enabled rfl) (reported rfl)⟩
  split
  · refine Action.Meets.run (runStage_guarded guarded (by simp)) (fun now _ extended _ => ?_)
      fun _ _ extended _ => stays.toPersists.mono extended
    replace stays := stays.mono extended
    refine Action.Meets.bind (care_checkpoint stays.found) (fun now _ armed extended written => ?_)
      fun _ _ state extended kept => kept.2 ▸ stays.toPersists.mono extended
    have found := written.phase (by simp)
    have kept := written.kept
    refine Action.Meets.load (Action.Meets.run (care_lenient.runStage fun later argv files drafts staged =>
      careful_stage argv staged (fun _ refresh => LastReady.of_checkpointed stays.toHeld written drafts
        refresh rfl) (by simp)) (fun now _ extended _ => ?_) fun _ _ extended _ => kept.mono extended)
    replace kept := kept.mono extended
    refine Action.Meets.run (strict kept) (fun now _ _ checked => ?_) fun _ _ _ kept => kept
    replace kept := checked.1
    refine Action.Meets.bind (care_checkpoint found) (fun now _ awaiting extended written => ?_)
      fun _ _ state extended unwritten => unwritten.2 ▸ kept.mono extended
    replace kept := kept.trans written.kept
    refine Action.Meets.load (Action.Meets.run (strict kept) (fun now _ _ checked => ?_)
      fun _ _ _ kept => kept)
    exact Action.meets_lift.mpr ((runStage_guarded checked.2 (by simp)).mono
      (fun _ _ extended _ => checked.1.mono extended) fun _ _ extended _ => checked.1.mono extended)
  · refine Action.Meets.check (fun _ _ => ?_) fun _ => stays.toPersists
    refine Action.Meets.check (fun _ _ => ?_) fun _ => stays.toPersists
    refine Action.Meets.run (runStage_guarded guarded (by simp)) (fun now _ extended _ => ?_)
      fun _ _ extended _ => stays.toPersists.mono extended
    replace stays := stays.mono extended
    refine Action.Meets.bind (care_checkpoint stays.found) (fun now _ awaiting extended written => ?_)
      fun _ _ state extended kept => kept.2 ▸ stays.toPersists.mono extended
    refine Action.Meets.load (Action.Meets.run (strict written.kept) (fun now _ _ checked => ?_)
      fun _ _ _ kept => kept)
    obtain ⟨kept, guarded⟩ := checked
    refine Action.Meets.run (runStage_guarded guarded (by simp)) (fun now _ extended _ => ?_)
      fun _ _ extended _ => kept.mono extended
    refine Action.Meets.run (strict (kept.mono extended)) (fun now _ _ checked => ?_) fun _ _ _ kept => kept
    exact Action.meets_lift.mpr ((runStage_guarded checked.2 (by simp)).mono
      (fun _ _ extended _ => checked.1.mono extended) fun _ _ extended _ => checked.1.mono extended)

theorem installLive_careful {env : Environment} {known : KnownHosts}
    (stays : Stays view .awaitingLive trace view) (manages : Manages trace view.server.uid known) :
    (installLive env known).Meets care trace view
      (fun later _ state => Persists view later state) (fun later _ state => Persists view later state) := by
  refine Action.Meets.bind (reachLive_attesting stays manages) (fun now session reached _ met => ?_)
    fun _ _ _ _ stays => stays.toPersists
  obtain ⟨first, attesting⟩ := met
  have own : Stays reached .awaitingLive now reached := ⟨.refl first.toBound, first.found⟩
  refine Action.Meets.bind (enrollLive_careful own attesting) (fun now known state _ enrolled => ?_)
    fun _ _ _ _ kept => first.toPersists.trans kept
  obtain ⟨after, deliverable⟩ := enrolled
  rw [← after.sameRun] at deliverable
  replace first := first.trans after
  have kept := first.toPersists
  refine Action.Meets.load (Action.Meets.run (care_lenient.meets (verifyDependencies_plain _))
    (fun now _ extended _ => ?_) fun _ _ extended _ => kept.mono extended)
  replace deliverable := deliverable.mono extended
  replace kept := kept.mono extended
  refine Action.Meets.run care_current (fun now latest extended read => ?_)
    fun _ _ extended _ => kept.mono extended
  obtain ⟨revalidated, enabled, reported⟩ := read
  have guarded := Guarded.of_revalidated revalidated kept.toHeld (enabled rfl) (reported rfl)
  replace deliverable := deliverable.mono extended
  replace kept := kept.mono extended
  refine Action.Meets.bind (care_checkpoint first.found) (fun now _ installing extended written => ?_)
    fun _ _ state extended unwritten => unwritten.2 ▸ kept.mono extended
  have found := written.phase (by simp)
  replace deliverable := deliverable.mono extended
  replace kept := kept.trans written.kept
  replace guarded := guarded.gently written.gently
  rw [← written.run] at deliverable guarded
  refine Action.Meets.load (Action.Meets.run (runStage_guarded guarded fun _ => deliverable)
    (fun now _ extended _ => ?_) fun _ _ extended _ => kept.mono extended)
  replace kept := kept.mono extended
  exact Action.Meets.bind (care_checkpoint found) (fun _ _ _ _ written => kept.trans written.kept)
    fun _ _ _ extended unwritten => unwritten.2 ▸ kept.mono extended

/-- The final reboot is no part of the handover: the run no longer awaits its live boot. -/
theorem finishBoot_careful {env : Environment} {known : KnownHosts}
    (stays : Stays view .awaitingInstalled trace view) :
    (finishBoot env known).Meets care trace view
      (fun later _ state => Persists view later state) (fun later _ state => Persists view later state) := by
  have complete : ∀ {before : Trace}, Stays view .awaitingInstalled before view →
      Action.Meets care (do
        let found ← awaitSession env false
        let reached ← Action.load
        verifyInstalled reached found.1
        checkpoint Phase.verifying.json []
        return found.2 : Pass View KnownHosts) before view
        (fun later _ state => Persists view later state) (fun later _ state => Persists view later state) := by
    intro before stays
    refine Action.Meets.bind (awaitSession_stays stays (by simp)) (fun now session state _ stays => ?_)
      fun _ _ _ _ stays => stays.toPersists
    refine Action.Meets.load (Action.Meets.check (fun _ _ => ?_) fun _ => stays.toPersists)
    exact Action.Meets.bind (care_checkpoint stays.found)
      (fun _ _ _ _ written => stays.toPersists.trans written.kept)
      fun _ _ _ extended unwritten => unwritten.2 ▸ stays.toPersists.mono extended
  refine Action.Meets.load (Action.Meets.run (stays.plain (inspect_plain _ _ _)).attempt
    (fun now inspected _ outcome => ?_) fun _ _ _ impossible => impossible.elim)
  cases inspected with
  | error failure =>
      have stays : Stays view .awaitingInstalled now view := outcome
      dsimp only
      split
      · exact complete stays
      · exact stays.toPersists
  | ok before =>
      replace stays : Stays view .awaitingInstalled now view := outcome.1
      refine Action.Meets.check (fun live _ => ?_) fun _ => stays.toPersists
      split
      · refine Action.Meets.check (fun _ _ => ?_) fun _ => stays.toPersists
        refine Action.Meets.run care_current (fun now latest extended read => ?_)
          fun _ _ extended _ => stays.toPersists.mono extended
        obtain ⟨revalidated, _, _⟩ := read
        have told := revalidated.lastRun
        obtain ⟨_, _, fresh, unchanged⟩ := revalidated
        have departed : phaseOf latest.run.status = some .awaitingInstalled := by
          rw [← fresh.same]
          exact unchanged.phaseOf stays.found
        replace stays := stays.mono extended
        refine Action.Meets.run (runStage_plain (fun later drafts physical => ?_) (by simp))
          (fun now _ extended _ => complete (stays.mono extended))
          fun _ _ extended _ => stays.toPersists.mono extended
        rcases physical with listed | ⟨_, run, last, awaiting⟩
        · simp [physicalStages] at listed
        · rw [drafts.lastRun, told] at last
          obtain rfl := Option.some.inj last
          simp [departed] at awaiting
      · exact complete stays

/-! ## Passes -/

/-- Requests that neither start a process nor fetch a secret. -/
def isGentle (request : Request) : Prop :=
  isPlain request = true ∨ ∃ resource status, request = .patchStatus resource status

theorem careful_gentle (trace : Trace) {request : Request} (gentle : isGentle request) :
    Careful trace request := by
  rcases gentle with plain | ⟨resource, status, rfl⟩
  · exact care_lenient.plain trace request plain
  · exact True.intro

theorem gentle_meets {α : Type} {body : Task α} (gentle : Op.Confined isGentle body) :
    body.Meets care trace (fun _ _ => True) (fun _ _ => True) :=
  (Op.Confined.meets gentle fun later _ _ kind => careful_gentle later kind).mono
    (fun _ _ _ _ => True.intro) fun _ _ _ _ => True.intro

theorem patchStatus_gentle (resource : Resource) (status : Object) :
    Op.Confined isGentle (Api.patchStatus resource status) := by
  intro trace
  refine Op.Meets.check (fun _ _ => ?_) fun _ => True.intro
  exact Op.meets_perform.mpr ⟨.inr ⟨resource, status, rfl⟩, fun _ _ => True.intro, fun _ _ => True.intro⟩

theorem releaseReservation_gentle (run : Resource) (phase : Json) (attempts : Nat) :
    Op.Confined isGentle (releaseReservation view run phase attempts) := by
  induction attempts with
  | zero => exact fun trace => True.intro
  | succ attempts ih =>
      intro trace
      refine Op.meets_bind.mpr (Op.meets_perform.mpr
        ⟨.inl rfl, fun latest _ => ?_, fun _ _ => True.intro⟩)
      refine Op.Meets.check (fun _ _ => ?_) fun _ => True.intro
      refine Op.Meets.check (fun _ _ => ?_) fun _ => True.intro
      refine Op.Meets.check (fun _ _ => ?_) fun _ => True.intro
      refine Op.Meets.bind (patchStatus_gentle _ _ _).attempt (fun now result _ _ => ?_)
        fun _ _ _ _ => True.intro
      split
      · exact True.intro
      · exact ih now
      · exact True.intro

theorem releaseRun_gentle : Op.Confined isGentle (releaseRun view) := by
  intro trace
  refine Op.meets_bind.mpr (Op.meets_perform.mpr ⟨.inl rfl, fun run _ => ?_, fun _ _ => True.intro⟩)
  split
  · exact True.intro
  · refine Op.Meets.check (fun phase _ => ?_) fun _ => True.intro
    split
    · exact releaseReservation_gentle _ _ _ _
    · exact True.intro

theorem verifyCompletion_careful {env : Environment} {known : KnownHosts}
    (stays : Stays view .verifying trace view) :
    (verifyCompletion env known).Meets care trace view
      (fun later _ state => Persists view later state) (fun later _ state => Persists view later state) := by
  refine Action.Meets.load (Action.Meets.run (stays.plain (inspect_plain _ _ _))
    (fun now facts _ kept => ?_) fun _ _ _ stays => stays.toPersists)
  replace stays := kept.1
  refine Action.Meets.check (fun _ _ => ?_) fun _ => stays.toPersists
  refine Action.Meets.run care_current (fun now latest extended read => ?_)
    fun _ _ extended _ => stays.toPersists.mono extended
  obtain ⟨revalidated, enabled, reported⟩ := read
  replace stays := stays.mono extended
  have guarded := Guarded.of_revalidated revalidated (kept.1.toHeld) (enabled rfl) (reported rfl)
  refine Action.Meets.run (runStage_guarded guarded (by simp)) (fun now _ extended _ => ?_)
    fun _ _ extended _ => stays.toPersists.mono extended
  replace stays := stays.mono extended
  refine Action.Meets.check (fun _ _ => ?_) fun _ => stays.toPersists
  refine Action.Meets.check (fun _ _ => ?_) fun _ => stays.toPersists
  refine Action.Meets.check (fun _ _ => ?_) fun _ => stays.toPersists
  refine Action.Meets.run (stays.plain (run_plain (.services _ _) rfl)) (fun now _ _ kept => ?_)
    fun _ _ _ stays => stays.toPersists
  replace stays := kept.1
  refine Action.Meets.check (fun _ _ => ?_) fun _ => stays.toPersists
  refine Action.Meets.run (stays.plain (inspect_plain _ _ _)) (fun now final _ kept => ?_)
    fun _ _ _ stays => stays.toPersists
  replace stays := kept.1
  refine Action.Meets.check (fun _ _ => ?_) fun _ => stays.toPersists
  refine Action.Meets.run (stays.plain (run_plain .now rfl)) (fun now completedAt _ kept => ?_)
    fun _ _ _ stays => stays.toPersists
  replace stays := kept.1
  refine Action.Meets.bind (care_checkpoint stays.found) (fun now _ state _ written => ?_)
    fun _ _ _ extended unwritten => unwritten.2 ▸ stays.toPersists.mono extended
  have kept := stays.toPersists.trans written.kept
  exact Action.Meets.load (Action.meets_lift.mpr ((gentle_meets releaseRun_gentle).mono
    (fun _ _ extended _ => kept.mono extended) fun _ _ extended _ => kept.mono extended))

theorem atPhase_careful {phase : Phase} {known : KnownHosts} {body : KnownHosts → Pass View KnownHosts}
    {good : KnownHosts → Prop} (bound : Bound trace view) (start : good known)
    (meets : Stays view phase trace view → (body known).Meets care trace view
      (fun later result state => Persists view later state ∧ good result)
      (fun later _ state => Persists view later state)) :
    (atPhase phase known body).Meets care trace view
      (fun later result state => Persists view later state ∧ good result)
      (fun later _ state => Persists view later state) := by
  refine Action.Meets.load (Action.Meets.check (fun reached found => ?_) fun _ => .refl bound)
  split
  · rename_i same
    refine meets ⟨.refl bound, phaseOf_eq_some.mpr ?_⟩
    rw [item_value found, same]
  · exact ⟨.refl bound, start⟩

theorem advance_careful {env : Environment} {revision : String} (bound : Bound trace view) :
    (advance env revision).Meets care trace view
      (fun later _ state => Persists view later state) (fun later _ state => Persists view later state) := by
  have start : Persists view trace view := .refl bound
  refine Action.Meets.load (Action.Meets.check (fun _ _ => ?_) fun _ => start)
  refine Action.Meets.check (fun _ _ => ?_) fun _ => start
  refine Action.Meets.check (fun _ _ => ?_) fun _ => start
  refine Action.Meets.check (fun phase reached => ?_) fun _ => start
  refine Action.Meets.run care_current (fun now latest _ read => ?_)
    fun _ _ extended _ => start.mono extended
  obtain ⟨revalidated, enabled, reported⟩ := read
  have kept := revalidated.kept
  -- The flags were chosen by the phase before the read, which is still the same.
  have guarded : phaseOf latest.provisioning = some .preparingBoot → Guarded now latest.run.uid := by
    intro preparing
    obtain ⟨_, _, _, unchanged⟩ := id revalidated
    have same := unchanged.phase
    rw [phaseOf_eq_some.mp preparing, item_value reached] at same
    have was : phase = Phase.preparingBoot.json := by simpa [Phase.json] using same
    rw [kept.sameRun]
    refine .of_revalidated revalidated bound.toHeld (enabled ?_) (reported ?_)
    · simp [was]
    · simp [was]
  refine Action.Meets.store (Action.Meets.run (care_lenient.meets (verifyDependencies_plain _))
    (fun now _ extended verified => ?_) fun _ _ extended _ => kept.mono extended)
  replace kept := kept.mono extended
  refine Action.Meets.run (care_lenient.meets drainCommands_plain)
    (fun now _ extended drained => ?_) fun _ _ extended _ => kept.mono extended
  replace kept := kept.mono extended
  have seen := kept.toBound
  refine Action.Meets.run knownFile_holds (fun now known extended trust => ?_)
    fun _ _ extended _ => kept.mono extended
  obtain ⟨plainly, text, only, origin⟩ := trust
  replace kept := kept.mono extended
  have plainly := verified.trans (drained.trans plainly)
  have stored : value (value latest.server.status "hostSSH").fields "publicKey" = .str text :=
    origin.resolve_left (by simp [Json.truthy])
  have manages : Manages now latest.server.uid known :=
    ⟨latest.server, text, (seen.mono extended).server, seen.serverKind, rfl, stored, only⟩
  have prepared : (atPhase .preparingBoot known fun known => do
      prepareBoot env known
      return known).Meets care now latest
        (fun later result state => Persists latest later state ∧ result = known)
        (fun later _ state => Persists latest later state) :=
    atPhase_careful kept.toBound rfl fun stays => Action.Meets.bind
      (prepareBoot_careful stays ((guarded stays.found).gently (Extends.weaken plainly fun _ => .inl)))
      (fun _ _ _ _ kept => ⟨kept, rfl⟩) fun _ _ _ _ kept => kept
  refine Action.Meets.bind prepared (fun now same state extended after => ?_)
    fun _ _ _ _ after => kept.trans after
  obtain ⟨after, rfl⟩ := after
  replace kept := kept.trans after
  rw [← after.sameServer] at manages
  have installed : (atPhase .awaitingLive same (installLive env)).Meets care now state
      (fun later result next => Persists state later next ∧ True) (fun later _ next => Persists state later next) :=
    atPhase_careful after.toBound True.intro fun stays =>
      (installLive_careful stays (manages.mono extended)).mono (fun _ _ _ _ kept => ⟨kept, True.intro⟩)
        fun _ _ _ _ kept => kept
  refine Action.Meets.bind installed (fun now known state _ after => ?_) fun _ _ _ _ after => kept.trans after
  replace kept := kept.trans after.1
  have finished : (atPhase .awaitingInstalled known (finishBoot env)).Meets care now state
      (fun later result next => Persists state later next ∧ True) (fun later _ next => Persists state later next) :=
    atPhase_careful after.1.toBound True.intro fun stays =>
      (finishBoot_careful stays).mono (fun _ _ _ _ kept => ⟨kept, True.intro⟩) fun _ _ _ _ kept => kept
  refine Action.Meets.bind finished (fun now known state _ after => ?_) fun _ _ _ _ after => kept.trans after
  replace kept := kept.trans after.1
  have completed : (atPhase .verifying known fun known => do
      verifyCompletion env known
      return known).Meets care now state
        (fun later result next => Persists state later next ∧ True) (fun later _ next => Persists state later next) :=
    atPhase_careful after.1.toBound True.intro fun stays =>
      Action.Meets.bind (verifyCompletion_careful stays) (fun _ _ _ _ kept => ⟨kept, True.intro⟩)
        fun _ _ _ _ kept => kept
  exact Action.Meets.bind completed (fun _ _ _ _ after => kept.trans after.1)
    fun _ _ _ _ after => kept.trans after

theorem prepareAttempt_careful {env : Environment} {hostVars : Object} {revision : String}
    {preflight : Bool} (bound : Bound trace view) :
    (prepareAttempt env hostVars revision preflight).Meets care trace view
      (fun later _ state => Bound later state) (fun later _ state => Bound later state) := by
  refine Action.Meets.load (Action.Meets.check (fun allowed _ => ?_) fun _ => bound)
  split
  · refine Action.Meets.run (care_lenient.meets (examine_plain _ _ _ _)) (fun now found extended _ => ?_)
      fun _ _ extended _ => bound.mono extended
    replace bound := bound.mono extended
    obtain ⟨facts, snapshot⟩ := found
    cases preflight with
    | true => exact bound
    | false =>
        have listing : (Api.list .server).Meets care now (fun _ _ => True) (fun _ _ => True) :=
          Op.meets_perform.mpr ⟨True.intro, fun _ _ => True.intro, fun _ _ => True.intro⟩
        refine Action.Meets.run listing (fun now servers extended _ => ?_)
          fun _ _ extended _ => bound.mono extended
        replace bound := bound.mono extended
        refine Action.Meets.run (care_lenient.meets (checkOthers_plain view servers))
          (fun now _ extended _ => ?_) fun _ _ extended _ => bound.mono extended
        replace bound := bound.mono extended
        have claim : (claimRun env view facts snapshot).Meets care now
            (fun later result => Seen later result ∧ result.kind = .provisioningRun)
            (fun _ _ => True) := by
          refine Op.meets_bind.mpr (Op.meets_perform.mpr
            ⟨True.intro, fun startedAt _ => ?_, fun _ _ => True.intro⟩)
          refine Op.Meets.check (fun observed _ => ?_) fun _ => True.intro
          refine Op.Meets.check (fun bootID _ => ?_) fun _ => True.intro
          refine (care_trusting.patchStatus True.intro).mono (fun later result _ written => ?_)
            fun _ _ _ _ => True.intro
          obtain ⟨rfl, kind, _⟩ := written
          exact ⟨Api.seen_last (List.mem_singleton.mpr rfl), kind.trans bound.kind⟩
        refine Action.Meets.run claim (fun now result extended claimed => ?_)
          fun _ _ extended _ => bound.mono extended
        replace bound := bound.mono extended
        exact ⟨⟨claimed.1, claimed.2, rfl⟩, bound.server, bound.serverKind⟩
  · exact bound

theorem reconcile_careful {env : Environment} {hostVars : Object} {revision : String} {preflight : Bool}
    (bound : Bound trace view) :
    (reconcile env hostVars revision preflight).Meets care trace view
      (fun later _ state => Bound later state) (fun later _ state => Bound later state) := by
  refine Action.Meets.load ?_
  dsimp only
  split
  · refine Action.Meets.check (fun _ _ => ?_) fun _ => bound
    split
    · exact bound
    · exact Action.meets_lift.mpr ((gentle_meets releaseRun_gentle).mono
        (fun _ _ extended _ => bound.mono extended) fun _ _ extended _ => bound.mono extended)
  · split
    · exact bound
    · split
      · rename_i installing
        exact (care_checkpoint (phaseOf_eq_some.mpr installing)).mono (fun _ _ _ _ written => written.bound)
          fun _ _ _ extended unwritten => unwritten.2 ▸ bound.mono extended
      · have claim : (if (!holds view.provisioning "attemptID" ||
              !isActive (value view.provisioning "phase")) = true
            then prepareAttempt env hostVars revision preflight else pure true : Pass View Bool).Meets
              care trace view (fun later _ state => Bound later state)
              (fun later _ state => Bound later state) := by
          split
          · exact prepareAttempt_careful bound
          · exact bound
        refine Action.Meets.bind claim (fun now claimed state _ bound => ?_) fun _ _ _ _ bound => bound
        split
        · exact (advance_careful bound).mono (fun _ _ _ _ kept => kept.toBound)
            fun _ _ _ _ kept => kept.toBound
        · exact bound

/-! ## Failures -/

theorem clearing_plain {stage : String} (clearing : stage ∈ clearingStages) :
    ¬ IsPhysical trace stage ∧ stage ≠ "install" := by
  simp only [clearingStages, List.mem_cons, List.not_mem_nil, or_false] at clearing
  rcases clearing with rfl | rfl <;> simp [IsPhysical, physicalStages]

theorem clearSelection_careful {env : Environment} :
    (clearSelection env view).Meets care trace (fun _ _ => True) (fun _ _ => True) := by
  have clear : ∀ {before : Trace} {latest : View} {known : KnownHosts}, ∀ stage ∈ clearingStages,
      (runStage env latest known stage).Meets care before (fun _ _ => True) (fun _ _ => True) :=
    fun stage member => runStage_plain (fun _ _ => (clearing_plain member).1)
      (@clearing_plain [] stage member).2
  refine Op.Meets.bind (care_lenient.meets (current_plain _ _ _)) (fun now latest _ _ => ?_)
    fun _ _ _ _ => True.intro
  refine Op.Meets.bind (care_lenient.meets (knownFile_plain _ _ _)) (fun now known _ _ => ?_)
    fun _ _ _ _ => True.intro
  refine Op.Meets.bind (care_lenient.meets (inspect_plain _ _ _)) (fun now facts _ _ => ?_)
    fun _ _ _ _ => True.intro
  refine Op.Meets.check (fun bootID _ => ?_) fun _ => True.intro
  split
  · exact True.intro
  · refine Op.Meets.check (fun live _ => ?_) fun _ => True.intro
    split
    · exact Op.Meets.bind (clear "refresh-clear" (by decide)) (fun _ _ _ _ => True.intro)
        fun _ _ _ _ => True.intro
    · refine Op.Meets.bind (clear "clear" (by decide)) (fun now _ _ _ => ?_) fun _ _ _ _ => True.intro
      refine Op.Meets.bind (care_lenient.meets (inspect_plain _ _ _)) (fun now cleared _ _ => ?_)
        fun _ _ _ _ => True.intro
      exact Op.Meets.check (fun _ _ => True.intro) fun _ => True.intro

theorem keepOwnership_careful {env : Environment} :
    (keepOwnership env view).Meets care trace (fun _ _ => True) (fun _ _ => True) := by
  unfold keepOwnership
  dsimp only
  split
  · refine Op.Meets.bind clearSelection_careful.attempt (fun now outcome _ _ => ?_)
      fun _ _ _ _ => True.intro
    cases outcome with
    | ok keep => exact True.intro
    | error failure =>
        dsimp only
        split
        · exact True.intro
        · exact True.intro
  · exact True.intro

theorem handleFailure_careful {env : Environment} {message : String} {reason : Option String} :
    (handleFailure env message reason).Meets care trace view
      (fun _ _ _ => True) (fun _ _ _ => True) := by
  refine Action.Meets.load ?_
  dsimp only
  split
  · exact Action.Meets.run (gentle_meets (patchStatus_gentle _ _)) (fun _ _ _ _ => True.intro)
      fun _ _ _ _ => True.intro
  · split
    · exact True.intro
    · rename_i active
      have under := not_not.mp active
      simp only [isActive, List.any_eq_true, beq_iff_eq] at under
      obtain ⟨phase, member, same⟩ := under
      have found : phaseOf view.provisioning = some phase := phaseOf_eq_some.mpr same
      have remark : ∀ text, (checkpoint (value view.provisioning "phase") [("message", .str text)]).Meets
          care trace view (fun _ _ _ => True) (fun _ _ _ => True) := by
        intro text
        rw [same]
        exact (care_checkpoint found).mono (fun _ _ _ _ _ => True.intro) fun _ _ _ _ _ => True.intro
      split
      · exact remark _
      · split
        · exact remark _
        · refine Action.Meets.run keepOwnership_careful (fun now keep _ _ => ?_) fun _ _ _ _ => True.intro
          refine Action.Meets.bind (care_checkpoint found) (fun now _ blocked _ _ => ?_)
            fun _ _ _ _ _ => True.intro
          exact Action.Meets.load (Action.meets_lift.mpr (gentle_meets releaseRun_gentle))

/-! ## Whole passes -/

theorem attemptServer_careful {env : Environment} {name : String} {hostVars : Object} {revision : String}
    {preflight : Bool} (bound : Bound trace view) :
    (attemptServer env name hostVars revision preflight).Meets care trace view
      (fun _ _ _ => True) (fun _ _ _ => True) := by
  have body : Action.Meets care (do
      let observed ← hostAddress view.server
      let captured ← itemString hostVars "ansible_host"
      let expected ← address captured
      demand (observed = expected) (provisioningBlocked "Capture-group management address is stale")
      reconcile env hostVars revision preflight
      return none : Pass View (Option Exn)) trace view (fun _ _ _ => True) (fun _ _ _ => True) := by
    refine Action.Meets.check (fun _ _ => ?_) fun _ => True.intro
    refine Action.Meets.check (fun _ _ => ?_) fun _ => True.intro
    refine Action.Meets.check (fun _ _ => ?_) fun _ => True.intro
    refine Action.Meets.check (fun _ _ => ?_) fun _ => True.intro
    exact Action.Meets.bind (reconcile_careful bound) (fun _ _ _ _ _ => True.intro)
      fun _ _ _ _ _ => True.intro
  refine Action.Meets.load (Action.meets_tryCatch.mpr (body.mono (fun _ _ _ _ _ => True.intro)
    fun now failure state _ _ => ?_))
  split
  · refine Action.meets_bind.mpr (Action.meets_lift.mpr (Op.meets_perform.mpr
      ⟨True.intro, fun _ _ => ?_, fun _ _ => True.intro⟩))
    cases preflight with
    | true => exact True.intro
    | false =>
        exact Action.Meets.bind handleFailure_careful (fun _ _ _ _ _ => True.intro)
          fun _ _ _ _ _ => True.intro
  · exact True.intro

/-- Every pass is careful, whatever it is told by the API and the host. -/
theorem main_careful (env : Environment) (preflight : Bool) :
    (main env preflight).Meets care trace (fun _ _ => True) (fun _ _ => True) :=
  care_lenient.main care_trusting fun _ _ _ fresh => attemptServer_careful fresh.bound

end Homelab.Provisioning
