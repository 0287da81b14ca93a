import Homelab.Operators.Provisioning.Bodies

namespace Homelab.Provisioning

open Json (Object)
open Api (Seen)
open Interaction (Op Action Contract Extends)

/-! # What comes before a stage and before a secret

A stage that touches the host follows a strict revalidation of the Server and
its run.  The private key of the host is fetched, and the disk erased, only
after the intended live session has answered over strict SSH.
-/

variable {trace later : Trace} {view : View}

/-! ## The last word of the API -/

def runOf : Event → Option Resource
  | ⟨.get .provisioningRun _, .ok (run : Resource)⟩ => some run
  | ⟨.patchStatus resource _, .ok (updated : Resource)⟩ =>
      if resource.kind = .provisioningRun then some updated else none
  | _ => none

/-- The run as the pass was told last. -/
def lastRun (trace : Trace) : Option Resource := (trace.filterMap runOf).getLast?

def serverOf : Event → Option Resource
  | ⟨.get .server _, .ok (server : Resource)⟩ => some server
  | _ => none

/-- The Server as the pass has read it last. -/
def lastServer (trace : Trace) : Option Resource := (trace.filterMap serverOf).getLast?

theorem runOf_draft {event : Event} (draft : isDraft event.request = true) : runOf event = none := by
  obtain ⟨request, reply⟩ := event
  cases request with
  | host call => rfl
  | _ => simp [isDraft] at draft

theorem serverOf_draft {event : Event} (draft : isDraft event.request = true) : serverOf event = none := by
  obtain ⟨request, reply⟩ := event
  cases request with
  | host call => rfl
  | _ => simp [isDraft] at draft

theorem Drafts.lastRun (drafts : Drafts trace later) : lastRun later = lastRun trace := by
  obtain ⟨events, rfl, written⟩ := drafts
  have silent : events.filterMap runOf = [] :=
    List.filterMap_eq_nil_iff.mpr fun event member => runOf_draft (written event member)
  simp [Provisioning.lastRun, silent]

theorem Drafts.lastServer (drafts : Drafts trace later) : lastServer later = lastServer trace := by
  obtain ⟨events, rfl, written⟩ := drafts
  have silent : events.filterMap serverOf = [] :=
    List.filterMap_eq_nil_iff.mpr fun event member => serverOf_draft (written event member)
  simp [Provisioning.lastServer, silent]

theorem Revalidated.lastRun {latest : View} (revalidated : Revalidated trace view later latest) :
    lastRun later = some latest.run := by
  obtain ⟨name, rfl, _⟩ := revalidated
  have told : List.filterMap runOf [⟨.get .server view.server.name, .ok latest.server⟩,
      ⟨.get .provisioningRun name, .ok latest.run⟩] = [latest.run] := rfl
  rw [Provisioning.lastRun, List.filterMap_append, told, List.getLast?_concat]

theorem Revalidated.lastServer {latest : View} (revalidated : Revalidated trace view later latest) :
    lastServer later = some latest.server := by
  obtain ⟨name, rfl, _⟩ := revalidated
  have read : List.filterMap serverOf [⟨.get .server view.server.name, .ok latest.server⟩,
      ⟨.get .provisioningRun name, .ok latest.run⟩] = [latest.server] := rfl
  rw [Provisioning.lastServer, List.filterMap_append, read, List.getLast?_concat]

/-! ## Strict revalidation -/

/-- Requests that start, follow or end a process. -/
def handlesProcess : Request → Bool
  | .host (.spawn ..) => true
  | request => followsProcess request

theorem gentle_process {request : Request}
    (gentle : isPlain request = true ∨ ∃ resource status, request = .patchStatus resource status) :
    handlesProcess request = false := by
  rcases gentle with plain | ⟨resource, status, rfl⟩
  · cases request with
    | host call => cases call <;> first | rfl | simp at plain
    | _ => rfl
  · rfl

/-- Since the last process ended, the Server and its run were read, and found to
agree with everything the attempt is pinned to, with provisioning enabled and
not paused, and with the boot interface observed. -/
def Guarded (trace : Trace) (uid : String) : Prop :=
  ∃ view latest earlier name rest, trace = earlier ++ ⟨.get .server view.server.name, .ok latest.server⟩ ::
      ⟨.get .provisioningRun name, .ok latest.run⟩ :: rest ∧
    (∀ event ∈ rest, handlesProcess event.request = false) ∧ Held earlier view ∧ view.run.uid = uid ∧
    latest.provisioning = latest.run.status ∧ Unchanged view latest ∧ Enabled latest.server ∧
    Reported latest.server

theorem Guarded.of_revalidated {latest : View} (revalidated : Revalidated trace view later latest)
    (held : Held trace view) (enabled : Enabled latest.server) (reported : Reported latest.server) :
    Guarded later view.run.uid := by
  obtain ⟨name, rfl, fresh, unchanged⟩ := revalidated
  exact ⟨view, latest, trace, name, [], by simp, by simp, held, rfl, fresh.same, unchanged, enabled,
    reported⟩

theorem Guarded.gently {uid : String} (guarded : Guarded trace uid) (gently : Gently trace later) :
    Guarded later uid := by
  obtain ⟨view, latest, earlier, name, rest, rfl, idle, found⟩ := guarded
  obtain ⟨events, rfl, gentle⟩ := gently
  refine ⟨view, latest, earlier, name, rest ++ events, by simp, fun event member => ?_, found⟩
  cases List.mem_append.mp member with
  | inl member => exact idle event member
  | inr member => exact gentle_process (gentle event member)

/-- Stages of the handover, of the installation and of its completion. -/
def physicalStages : List String := ["prime", "refresh-prepare", "refresh-boot", "arm", "install", "post"]

/-- The reboot of the handover is the one of a run that awaits its live boot. -/
def IsPhysical (trace : Trace) (stage : String) : Prop :=
  stage ∈ physicalStages ∨
    stage = "reboot" ∧ ∃ run, lastRun trace = some run ∧ phaseOf run.status = some .awaitingLive

/-- The Server as it was read last lets a stage be started. -/
def LastReady (trace : Trace) : Prop :=
  ∃ server, lastServer trace = some server ∧ Enabled server ∧ Reported server

/-! ## The live session -/

/-- A probe over strict SSH of the Server of the view, with this trust file. -/
def StrictProbe (view : View) (known : KnownHosts) (facts : Object) (event : Event) : Prop :=
  ∃ env host session disk, sshSession env view.server.uid host known "yes" = .ok session ∧
    event = ⟨.host (.probe session disk), .ok (some (.obj facts))⟩

/-- The trust file has one entry, which accepts this key for the Server. -/
def HoldsKey (uid key : String) (known : KnownHosts) : Prop :=
  ∃ name normal, hostAlias uid = .ok name ∧ publicKey key = .ok normal ∧
    known.content = name ++ " " ++ normal ++ "\n"

def fetchesSecret : Request → Bool
  | .host (.fetch ..) => true
  | _ => false

/-- Where the only key in the trust file of a probe comes from: it is the managed
key of the Server, the pin that the run already had, or the key of a first contact
that was pinned to the run before any secret was fetched. -/
inductive Trusted (earlier rest : Trace) (view : View) (known : KnownHosts) : Prop
  | managed {server : Resource} {key : String} (seen : Seen earlier server) (kind : server.kind = .server)
      (same : server.uid = view.server.uid)
      (stored : value (value server.status "hostSSH").fields "publicKey" = .str key)
      (only : HoldsKey view.server.uid key known)
  | pinned {pin : String} (stored : value view.run.status "bootstrapPublicKey" = .str pin)
      (only : HoldsKey view.server.uid pin known)
  | contacted {pin : String} {quiet more : Trace} {target updated : Resource} {fields : Object}
      (only : firstContactKey view known.content = .ok pin)
      (persisted : rest = quiet ++ ⟨.patchStatus target fields, .ok updated⟩ :: more)
      (silent : ∀ event ∈ quiet, fetchesSecret event.request = false)
      (kind : target.kind = .provisioningRun) (run : target.uid = view.run.uid)
      (field : fields.get? "bootstrapPublicKey" = some (.str pin))

/-- The facts are those of the live boot that the attempt is pinned to. -/
structure LiveSession (attempt facts : Object) : Prop where
  live : holds facts "live" = true
  build : Json.Same (value facts "liveBuildID") (value (pinnedPlan attempt) "isoBuildID")
  booted : ¬ Json.Same (value facts "bootID") (value attempt "sourceBootID")

/-- The firmware and the target disk are fit for an installation. -/
structure SafeTarget (facts : Object) : Prop where
  unmounted : holds facts "mounted" = false
  rootless : holds facts "rootOnTarget" = false
  uefi : holds facts "uefi" = true
  secureBoot : value facts "secureBoot" = .bool false

/-- If a live boot was recorded when the pass set out to find the live session,
these facts are of that boot. -/
def Recorded (earlier : Trace) (view : View) (facts : Object) : Prop :=
  ∃ start rest run, earlier = start ++ rest ∧ Seen start run ∧ run.kind = .provisioningRun ∧
    run.uid = view.run.uid ∧ phaseOf run.status = some .awaitingLive ∧
    (rest = [] ∨ ∃ count more, rest = ⟨.host .rounds, .ok (count : Nat)⟩ :: more) ∧
    (holds run.status "liveBootID" = true →
      rest = [] ∧ Json.Same (value facts "bootID") (value run.status "liveBootID"))

/-- The live session of the view was inspected, and found to be the intended one
on the disk of this plan. -/
def Inspected (trace : Trace) (view : View) (plan : Object) : Prop :=
  ∃ earlier event rest known facts, trace = earlier ++ event :: rest ∧ Held earlier view ∧
    StrictProbe view known facts event ∧ Trusted earlier rest view known ∧ Recorded earlier view facts ∧
    LiveSession view.provisioning facts ∧ SafeTarget facts ∧
    Json.Same (value facts "disk") (value plan "diskIdentity")

/-- The run is the one of the view, or what the API returned when a field of it was
written that is no part of the plan. -/
def Confirmed (trace : Trace) (view : View) (run : Resource) : Prop :=
  run = view.run ∨ ∃ target fields, ⟨.patchStatus target fields, .ok run⟩ ∈ trace ∧
    target.kind = .provisioningRun ∧ "snapshot" ∉ fields.map Prod.fst ∧
    Json.Same (value target.status "snapshot") (value view.run.status "snapshot")

/-- The host of this run may be handed its key and have its disk erased. -/
def Deliverable (trace : Trace) (uid : String) : Prop :=
  ∃ view run, Inspected trace view (pinnedPlan run.status) ∧ Confirmed trace view run ∧ view.run.uid = uid

theorem Trusted.append {earlier rest : Trace} {known : KnownHosts}
    (trusted : Trusted earlier rest view known) (more : Trace) :
    Trusted earlier (rest ++ more) view known := by
  cases trusted with
  | managed seen kind same stored only => exact .managed seen kind same stored only
  | pinned stored only => exact .pinned stored only
  | contacted only persisted silent kind run field =>
      rw [persisted, List.append_assoc, List.cons_append]
      exact .contacted only rfl silent kind run field

theorem Confirmed.mono {run : Resource} (confirmed : Confirmed trace view run)
    (extended : trace <+: later) : Confirmed later view run := by
  cases confirmed with
  | inl same => exact .inl same
  | inr written =>
      obtain ⟨target, fields, member, rest⟩ := written
      exact .inr ⟨target, fields, extended.subset member, rest⟩

theorem Deliverable.mono {uid : String} (deliverable : Deliverable trace uid) (extended : trace <+: later) :
    Deliverable later uid := by
  obtain ⟨view, run, attested, confirmed, same⟩ := deliverable
  refine ⟨view, run, ?_, confirmed.mono extended, same⟩
  obtain ⟨earlier, event, rest, known, facts, rfl, held, probed, trusted, found⟩ := attested
  obtain ⟨more, rfl⟩ := extended
  exact ⟨earlier, event, rest ++ more, known, facts, by simp, held, probed, trusted.append more, found⟩

/-- The pass was told last of this run. -/
def Serving (trace : Trace) (uid : String) : Prop := ∃ run, lastRun trace = some run ∧ run.uid = uid

/-! ## The contract -/

/-- What a pass takes care of before a stage and before a secret. -/
def Careful (trace : Trace) : Request → Prop
  | .host (.fetch ..) => ∃ uid, Serving trace uid ∧ Deliverable trace uid
  | .host (.spawn _ files) => ∀ stage uid, stageOf files = some (stage, uid) →
      (IsPhysical trace stage → (stage = "refresh-prepare" → LastReady trace) → Guarded trace uid) ∧
        (stage = "install" → Deliverable trace uid)
  | _ => True

def care : Contract interface where
  guard := Careful
  rely := Api.Honest

theorem care_lenient : Lenient care where
  plain trace request plain := by
    cases request with
    | host call => cases call <;> first | exact True.intro | simp at plain
    | _ => exact True.intro
  follows trace request follows := by
    cases request with
    | host call => cases call <;> first | exact True.intro | simp [followsProcess] at follows
    | _ => exact True.intro

theorem care_trusting : Trusting care := fun _ _ answered => answered

end Homelab.Provisioning
