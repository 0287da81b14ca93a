import Homelab.Operators.Provisioning.Discipline

namespace Homelab

/-- Calls that start no process and report nothing. -/
@[simp] def Host.reads : Host → Bool
  | .spawn .. => false
  | .warn .. => false
  | _ => true

/-- Requests that change no resource, start no process and report nothing. -/
def isReading : Request → Bool
  | .get .. => true
  | .list .. => true
  | .host call => call.reads
  | _ => false

@[simp] theorem isReading_get (kind : Kind) (name : String) : isReading (.get kind name) = true := rfl

@[simp] theorem isReading_list (kind : Kind) : isReading (.list kind) = true := rfl

@[simp] theorem isReading_host (call : Host) : isReading (.host call) = call.reads := rfl

/-- Calls that involve neither a process of its own nor a secret, and report nothing. -/
@[simp] def Host.plain : Host → Bool
  | .spawn .. => false
  | .startReader => false
  | .wait .. => false
  | .killGroup => false
  | .reap => false
  | .fetch .. => false
  | .warn .. => false
  | _ => true

/-- Readings that involve neither a process of its own nor a secret. -/
def isPlain : Request → Bool
  | .get .. => true
  | .list .. => true
  | .host call => call.plain
  | _ => false

@[simp] theorem isPlain_get (kind : Kind) (name : String) : isPlain (.get kind name) = true := rfl

@[simp] theorem isPlain_list (kind : Kind) : isPlain (.list kind) = true := rfl

@[simp] theorem isPlain_host (call : Host) : isPlain (.host call) = call.plain := rfl

/-- Calls that follow a started process or end it. -/
def followsProcess : Request → Bool
  | .host .startReader => true
  | .host (.wait _) => true
  | .host .killGroup => true
  | .host .reap => true
  | _ => false

theorem reading_of_plain {request : Request} (plain : isPlain request = true) :
    isReading request = true := by
  cases request with
  | host call => cases call <;> first | rfl | simp at plain
  | patchStatus => simp [isPlain] at plain
  | create => simp [isPlain] at plain
  | _ => rfl

/-- Requests made to obtain the private key of a host. -/
def asksSecret : Request → Bool
  | .get .sshKeyPair _ => true
  | .host (.fetch ..) => true
  | _ => false

@[simp] theorem asksSecret_get (name : String) : asksSecret (.get .sshKeyPair name) = true := rfl

theorem reading_of_secret {request : Request} (asks : asksSecret request = true) :
    isReading request = true := by
  cases request with
  | get => rfl
  | host call => cases call <;> first | rfl | simp [asksSecret] at asks
  | _ => simp [asksSecret] at asks

/-- A body that only reads. -/
abbrev Quiet {α : Type} (body : Task α) : Prop :=
  Interaction.Op.Confined (fun request => isReading request = true) body

/-- A body that only reads, without a process of its own and without a secret. -/
abbrev Plain {α : Type} (body : Task α) : Prop :=
  Interaction.Op.Confined (fun request => isPlain request = true) body

/-- A body that only obtains the private key of a host. -/
abbrev Secret {α : Type} (body : Task α) : Prop :=
  Interaction.Op.Confined (fun request => asksSecret request = true) body

theorem Plain.quiet {α : Type} {body : Task α} (plain : Plain body) : Quiet body :=
  Interaction.Op.Confined.weaken plain fun _ => reading_of_plain

end Homelab

namespace Homelab.Provisioning

open Json (Object)
open Api (Seen)
open Interaction (Op Action Contract Extends)

/-! # The parts of a pass, under any contract that lets them read -/

/-! ## Bodies that only read -/

theorem run_plain (call : Host) (plain : call.plain = true) : Plain (Host.run call) := by
  intro trace
  exact Op.meets_perform.mpr ⟨plain, fun _ _ => True.intro, fun _ _ => True.intro⟩

theorem bindRun_plain (server : Resource) : Plain (bindRun server) := by
  intro trace
  simp [bindRun, Api.get]

theorem current_plain (view : View) (allowPaused allowNetworkPending : Bool) :
    Plain (current view allowPaused allowNetworkPending) := by
  intro trace
  simp [current, bindRun, Api.get]

theorem knownFile_plain (env : Environment) (view : View) (key : Json) :
    Plain (knownFile env view key) := by
  intro trace
  simp [knownFile, Host.run]

theorem inspect_plain (env : Environment) (view : View) (known : KnownHosts) :
    Plain (inspect env view known) := by
  intro trace
  simp only [inspect, Host.run, Op.meets_bind, Op.meets_ofExcept, Op.meets_perform,
    Contract.only_guard, isPlain_host, Host.plain, implies_true, and_true]
  intro host _ session _ disk _
  refine ⟨True.intro, fun output _ => ?_⟩
  cases output <;> simp

theorem resolveKey_plain (ref : Json) : Plain (resolveKey ref) := by
  intro trace
  simp [resolveKey, Api.get]

theorem resolveUser_plain (entry : Json) : Plain (resolveUser entry) := by
  intro trace
  simp [resolveUser, Op.meets_mapM, resolveKey_plain]

theorem resolveUsers_plain (desired : Object) : Plain (resolveUsers desired) := by
  intro trace
  simp [resolveUsers, Op.meets_mapM, resolveUser_plain]

theorem plan_plain (env : Environment) (view : View) (hostVars facts : Object) (revision : String) :
    Plain (plan env view hostVars facts revision) := by
  intro trace
  simp [plan, Api.get, resolveUsers_plain]

theorem verifyEach_plain (snapshot : Object) (entries : List (Kind × String)) :
    Plain (verifyEach snapshot entries) := by
  induction entries with
  | nil => exact fun trace => True.intro
  | cons entry rest ih =>
      intro trace
      simp [verifyEach, verifyDependency, Api.get, ih]

theorem verifyDependencies_plain (view : View) : Plain (verifyDependencies view) := by
  intro trace
  simp [verifyDependencies, verifyEach_plain]

theorem drainRounds_plain (rounds : Nat) : Plain (drainRounds rounds) := by
  induction rounds with
  | zero =>
      intro trace
      simp [drainRounds, Api.list]
  | succ rounds ih =>
      intro trace
      simp only [drainRounds, Api.list, Op.meets_bind, Op.meets_perform]
      refine ⟨rfl, fun commands _ => ?_, fun _ _ => True.intro⟩
      split
      · exact ih _
      · exact True.intro

theorem drainCommands_plain : Plain drainCommands := by
  intro trace
  simp [drainCommands, Host.run, drainRounds_plain]

theorem checkArtifacts_plain (artifacts : List Json) : Plain (checkArtifacts artifacts) := by
  induction artifacts with
  | nil => exact fun trace => True.intro
  | cons artifact rest ih =>
      intro trace
      simp [checkArtifacts, Host.run, ih]

theorem artifactPreflight_plain (env : Environment) (view : View) :
    Plain (artifactPreflight env view) := by
  intro trace
  simp [artifactPreflight, checkArtifacts_plain, Host.run]

theorem sshProbe_plain (env : Environment) (uid host : String) (known : KnownHosts)
    (checking : String) : Plain (sshProbe env uid host known checking) := by
  intro trace
  simp only [sshProbe, Host.run, Op.meets_bind, Op.meets_ofExcept, Op.meets_perform,
    Contract.only_guard, isPlain_host, Host.plain, implies_true, and_true, true_and]
  intro literal _ session _ login _
  split
  · simp
  · split
    · simp
    · split <;> simp

theorem checkOutput_plain (argv : List String) : Plain (checkOutput argv) := by
  intro trace
  simp [checkOutput, Host.run]

theorem examine_plain (env : Environment) (view : View) (hostVars : Object) (revision : String) :
    Plain (examine env view hostVars revision) := by
  intro trace
  refine Op.Meets.check (fun _ _ => ?_) fun _ => True.intro
  refine Op.Meets.bind (knownFile_plain _ _ _ _) (fun _ known _ _ => ?_) fun _ _ _ _ => True.intro
  refine Op.Meets.bind (inspect_plain _ _ _ _) (fun _ facts _ _ => ?_) fun _ _ _ _ => True.intro
  refine Op.Meets.check (fun _ _ => ?_) fun _ => True.intro
  refine Op.Meets.check (fun live _ => ?_) fun _ => True.intro
  split
  · simp [plan_plain]
  · simp [plan_plain]

theorem extendTrust_plain (known : KnownHosts) (trusted managedEntry : String) :
    Plain (extendTrust known trusted managedEntry) := by
  intro trace
  unfold extendTrust
  split <;> simp [Host.run]

theorem omittedServers_plain (omitted : List Json) : Plain (omittedServers omitted) := by
  induction omitted with
  | nil => exact fun trace => True.intro
  | cons entry rest ih =>
      intro trace
      refine Op.Meets.check (fun fields _ => ?_) fun _ => True.intro
      refine Op.Meets.bind (?_ : Op.Meets _ _ _ (fun _ _ => True) (fun _ _ => True))
        (fun later waiting _ _ => ?_) fun _ _ _ _ => True.intro
      · split
        · simp [Api.get]
        · exact True.intro
      · simp [ih]

theorem omittedActiveRuns_plain (group : Resource) : Plain (omittedActiveRuns group) := by
  unfold omittedActiveRuns
  split
  · exact omittedServers_plain _
  · exact fun trace => True.intro

theorem captureInventory_plain (name : String) : Plain (captureInventory name) := by
  intro trace
  simp only [captureInventory, Api.get, Op.meets_bind, Op.meets_perform, Op.meets_ofExcept,
    Contract.only_guard, isPlain_get, implies_true, and_true, true_and]
  intro group _ _ _ _ _ _ _
  split <;> simp

theorem resolvedInventoryHosts_plain (env : Environment) (inventory : Object) :
    Plain (resolvedInventoryHosts env inventory) := by
  intro trace
  simp [resolvedInventoryHosts, Host.run]

theorem checkOthers_plain (view : View) (others : List Resource) : Plain (checkOthers view others) := by
  induction others with
  | nil => exact fun trace => True.intro
  | cons other rest ih =>
      intro trace
      refine Op.Meets.check (fun reserved _ => ?_) fun _ => True.intro
      split
      · simp [bindRun_plain, ih]
      · exact ih trace

theorem fetchObject_secret (url method token : String) (body : Json) :
    Secret (fetchObject url method token body) := by
  intro trace
  simp only [fetchObject, Host.run, Op.meets_bind, Op.meets_perform, Contract.only_guard, asksSecret,
    implies_true, and_true, true_and]
  intro response _
  split <;> simp

theorem readHostKey_secret (base uid token : String) (reference host : Object) :
    Secret (readHostKey base uid token reference host) := by
  intro trace
  simp [readHostKey, fetchObject_secret]

theorem withCleanup_secret {α : Type} {body : Task α} {cleanup : Task Unit} (secret : Secret body)
    (after : Secret cleanup) : Secret (withCleanup body cleanup) := by
  intro trace
  refine Op.Meets.bind (Op.Meets.attempt (secret trace)) (fun later outcome _ _ => ?_)
    fun _ _ _ _ => True.intro
  refine Op.Meets.bind (after later) (fun _ _ _ _ => ?_) fun _ _ _ _ => True.intro
  cases outcome <;> exact True.intro

theorem revokeToken_secret (base token : String) : Secret (revokeToken base token) := by
  intro trace
  simp [revokeToken, fetchObject_secret]

theorem hostPrivateKey_secret (env : Environment) (server : Resource) :
    Secret (hostPrivateKey env server) := by
  intro trace
  simp [hostPrivateKey, Api.get, fetchObject_secret,
    withCleanup_secret (readHostKey_secret _ _ _ _ _) (revokeToken_secret _ _)]

theorem hostPrivateKey_quiet (env : Environment) (server : Resource) :
    Quiet (hostPrivateKey env server) :=
  Op.Confined.weaken (hostPrivateKey_secret env server) fun _ => reading_of_secret

/-! ## Traces -/

/-- Only reads were added. -/
abbrev Reads : Trace → Trace → Prop := Extends fun request => isReading request = true

/-- Only reads without processes and secrets were added. -/
abbrev Plainly : Trace → Trace → Prop := Extends fun request => isPlain request = true

/-- Only such reads and status patches were added. -/
abbrev Gently : Trace → Trace → Prop :=
  Extends fun request => isPlain request = true ∨ ∃ resource status, request = .patchStatus resource status

theorem Plainly.reads {trace later : Trace} (plainly : Plainly trace later) : Reads trace later :=
  plainly.weaken fun _ => reading_of_plain

theorem Plainly.gently {trace later : Trace} (plainly : Plainly trace later) : Gently trace later :=
  plainly.weaken fun _ => .inl

theorem Extends.append {allowed : Request → Prop} {trace events : Trace}
    (permitted : ∀ event ∈ events, allowed event.request) : Extends allowed trace (trace ++ events) :=
  ⟨events, rfl, permitted⟩

/-- A contract that lets a program read and follow its processes. -/
structure Lenient (contract : Contract interface) : Prop where
  plain : ∀ trace request, isPlain request = true → contract.guard trace request
  follows : ∀ trace request, followsProcess request = true → contract.guard trace request

/-- A contract under which the answers of the API are taken for what they say. -/
def Trusting (contract : Contract interface) : Prop :=
  ∀ request reply, contract.rely request reply → Api.Honest request reply

variable {contract : Contract interface} {trace later : Trace} {view : View}

theorem Lenient.meets {α : Type} {body : Task α} (lenient : Lenient contract) (plain : Plain body) :
    body.Meets contract trace (fun later _ => Plainly trace later) (fun later _ => Plainly trace later) :=
  Op.Confined.meets plain fun later request _ => lenient.plain later request

/-! ## Views -/

/-- The view stands for a run the pass has read. -/
structure Held (trace : Trace) (view : View) : Prop where
  run : Seen trace view.run
  kind : view.run.kind = .provisioningRun
  same : view.provisioning = view.run.status

theorem Held.mono (held : Held trace view) (extended : trace <+: later) : Held later view :=
  ⟨held.run.mono extended, held.kind, held.same⟩

/-- The view was bound just now: its Server is reserved by its run. -/
structure Fresh (trace : Trace) (view : View) : Prop extends Held trace view where
  server : Seen trace view.server
  serverKind : view.server.kind = .server
  names : Names view.server view.run
  reference : ∃ serverRef, view.run.spec.get? "serverRef" = some serverRef ∧
    Json.Same serverRef view.server.reference

theorem Fresh.mono (fresh : Fresh trace view) (extended : trace <+: later) : Fresh later view :=
  ⟨fresh.toHeld.mono extended, fresh.server.mono extended, fresh.serverKind, fresh.names, fresh.reference⟩

theorem member_ok {fields result : Object} {key : String} (found : member fields key = .ok result) :
    (value fields key).fields = result := by
  unfold member at found
  unfold value
  cases lookup : fields.get? key with
  | none =>
      rw [lookup] at found
      exact Except.ok.inj found
  | some stored =>
      rw [lookup] at found
      rw [asObject_ok found]
      rfl

theorem item_value {fields : Object} {key : String} {result : Json} (found : item fields key = .ok result) :
    value fields key = result := by
  simp [value, item_ok found]

theorem item_holds {fields : Object} {key : String} {result : Json} (found : item fields key = .ok result) :
    holds fields key = result.truthy := by
  simp [holds, item_ok found]

theorem itemObject_fields {fields result : Object} {key : String}
    (found : itemObject fields key = .ok result) : (value fields key).fields = result := by
  simp [value, itemObject_ok found, Json.fields]

/-- Binding reads one run, which the Server is reserved by. -/
theorem Lenient.bindRun (lenient : Lenient contract) (trusting : Trusting contract) {server : Resource} :
    (bindRun server).Meets contract trace
      (fun later view => ∃ name, later = trace ++ [⟨.get .provisioningRun name, .ok view.run⟩] ∧
        view.server = server ∧ view.run.kind = .provisioningRun ∧ view.provisioning = view.run.status ∧
        Names server view.run ∧ ∃ serverRef, view.run.spec.get? "serverRef" = some serverRef ∧
          Json.Same serverRef server.reference)
      (fun later _ => Plainly trace later) := by
  refine Op.Meets.check (fun provisioning found => ?_) fun _ => .refl _
  refine Op.Meets.check (fun ref reserved => ?_) fun _ => .refl _
  refine Op.Meets.check (fun name named => ?_) fun _ => .refl _
  have active : activeRef server = ref := by
    simp [activeRef, value, itemObject_ok found, itemObject_ok reserved, Json.fields]
  have reads : ∀ reply, Plainly trace (trace ++ [⟨Request.get .provisioningRun name, reply⟩]) :=
    fun reply => .event trace rfl
  refine Op.meets_bind.mpr (Op.meets_perform.mpr
    ⟨lenient.plain _ _ rfl, fun run answered => ?_, fun failure _ => reads (.error failure)⟩)
  obtain ⟨kind, sameName⟩ : run.kind = .provisioningRun ∧ run.name = name :=
    trusting _ (.ok run) answered
  refine Op.Meets.check (fun uid identified => ?_) fun _ => reads (.ok run)
  refine Op.Meets.check (fun _ sameUid => ?_) fun _ => reads (.ok run)
  refine Op.Meets.check (fun _ _ => ?_) fun _ => reads (.ok run)
  refine Op.Meets.check (fun serverRef referred => ?_) fun _ => reads (.ok run)
  refine Op.Meets.check (fun _ sameServer => ?_) fun _ => reads (.ok run)
  refine Op.Meets.check (fun machineRef _ => ?_) fun _ => reads (.ok run)
  refine Op.Meets.check (fun _ _ => ?_) fun _ => reads (.ok run)
  refine ⟨name, rfl, rfl, kind, rfl, ⟨?_, ?_⟩, serverRef, item_ok referred, ?_⟩
  · rw [active, itemString_ok named, sameName]
  · rw [active, item_ok identified]
    simpa using demand_ok sameUid
  · simpa using demand_ok sameServer

/-! ## Revalidation -/

/-- The plan an attempt is pinned to. -/
def pinnedPlan (provisioning : Object) : Object := (value provisioning "snapshot").fields

/-- The Server specification an attempt is pinned to. -/
def pinnedSpec (provisioning : Object) : Object :=
  (value (value (pinnedPlan provisioning) "inputs").fields "serverSpec").fields

/-- The boot interface of a Server, as it is observed. -/
def reportedMac (server : Resource) : Json :=
  value (value (value (value server.status "networking").fields "management").fields "interface").fields
    "mac"

/-- A fresh read agrees with everything the view is pinned to. -/
structure Unchanged (view latest : View) : Prop where
  server : latest.server.uid = view.server.uid
  alive : latest.server.terminating = false
  run : latest.run.uid = view.run.uid
  request : Json.Same (.obj latest.run.spec) (.obj view.run.spec)
  attemptID : Json.Same (value latest.provisioning "attemptID") (value view.provisioning "attemptID")
  snapshot : Json.Same (value latest.provisioning "snapshot") (value view.provisioning "snapshot")
  phase : Json.Same (value latest.provisioning "phase") (value view.provisioning "phase")
  inputs : ∀ field ∈ SPEC_INPUTS,
    Json.Same (value latest.server.spec field) (value (pinnedSpec view.provisioning) field)
  machineRef : Json.Same (value latest.server.status "machineRef")
    (value (pinnedPlan view.provisioning) "machineRef")
  keyPairRef : Json.Same (value (value latest.server.status "hostSSH").fields "keyPairRef")
    (value (pinnedPlan view.provisioning) "keyPairRef")
  bootMAC : ∀ mac, reportedMac latest.server = .str mac → mac ≠ "" →
    Json.Same (.str mac.toLower) (value (pinnedPlan view.provisioning) "bootMAC")

/-- Provisioning of the Server is enabled and not paused. -/
def Enabled (server : Resource) : Prop :=
  (value (value server.spec "provisioning").fields "enabled").truthy = true ∧
    holds (value server.spec "reconciliation").fields "paused" = false

/-- The boot interface of the Server is observed. -/
def Reported (server : Resource) : Prop := ∃ mac, reportedMac server = .str mac ∧ mac ≠ ""

theorem requireUnchanged_ok {actual expected : Json} {description : String} {result : Unit}
    (same : requireUnchanged actual expected description = .ok result) : Json.Same actual expected := by
  simpa using demand_ok same

theorem validateSpecInputs_ok {spec pinned : Object} {fields : List String} {result : Unit}
    (valid : validateSpecInputs spec pinned fields = .ok result) :
    ∀ field ∈ fields, Json.Same (value spec field) (value pinned field) := by
  induction fields with
  | nil => simp
  | cons field rest ih =>
      obtain ⟨_, same, valid⟩ := bind_ok valid
      intro other member
      cases List.mem_cons.mp member with
      | inl found =>
          rw [found]
          exact requireUnchanged_ok same
      | inr member => exact ih valid other member

theorem managementOf_ok {status management : Object} (found : managementOf status = .ok management) :
    (value (value status "networking").fields "management").fields = management := by
  unfold managementOf at found
  split at found
  · obtain ⟨networking, lookup, found⟩ := bind_ok found
    rw [itemObject_fields lookup]
    exact member_ok found
  · rename_i absent
    obtain rfl := Except.ok.inj found
    unfold holds at absent
    unfold value
    cases lookup : status.get? "networking" with
    | none => rfl
    | some stored =>
        simp only [lookup, Option.any_some, Bool.not_eq_true] at absent
        cases stored with
        | obj fields => cases fields <;> simp [Json.truthy] at absent; rfl
        | _ => rfl

/-- What the validation of a fresh read against the pinned plan establishes. -/
theorem validatePinnedServer_ok {server : Resource} {snapshot : Object} {allowNetworkPending : Bool}
    {result : Unit} (valid : validatePinnedServer server snapshot allowNetworkPending = .ok result) :
    (∀ field ∈ SPEC_INPUTS, Json.Same (value server.spec field)
      (value (value (value snapshot "inputs").fields "serverSpec").fields field)) ∧
    Json.Same (value server.status "machineRef") (value snapshot "machineRef") ∧
    Json.Same (value (value server.status "hostSSH").fields "keyPairRef") (value snapshot "keyPairRef") ∧
    (∀ mac, reportedMac server = .str mac → mac ≠ "" →
      Json.Same (.str mac.toLower) (value snapshot "bootMAC")) ∧
    (allowNetworkPending = false → Reported server) := by
  obtain ⟨inputs, foundInputs, valid⟩ := bind_ok valid
  obtain ⟨pinned, foundPinned, valid⟩ := bind_ok valid
  obtain ⟨_, specs, valid⟩ := bind_ok valid
  obtain ⟨machineRef, foundMachine, valid⟩ := bind_ok valid
  obtain ⟨_, sameMachine, valid⟩ := bind_ok valid
  obtain ⟨management, foundManagement, valid⟩ := bind_ok valid
  obtain ⟨interface, foundInterface, valid⟩ := bind_ok valid
  obtain ⟨bootMac, foundMac, valid⟩ := bind_ok valid
  have checked : (bootMac ≠ "" → Json.Same (.str bootMac.toLower) (value snapshot "bootMAC")) ∧
      (do
        let host ← member server.status "hostSSH"
        let keyPairRef ← item snapshot "keyPairRef"
        requireUnchanged (value host "keyPairRef") keyPairRef "Managed host key reference"
        demand (bootMac ≠ "" || allowNetworkPending) managementNetworkPending) = .ok result := by
    dsimp only at valid
    split at valid
    · obtain ⟨pinnedMac, foundPinnedMac, valid⟩ := bind_ok valid
      obtain ⟨_, same, valid⟩ := bind_ok valid
      exact ⟨fun _ => item_value foundPinnedMac ▸ requireUnchanged_ok same, valid⟩
    · rename_i empty
      exact ⟨fun nonempty => absurd nonempty empty, valid⟩
  obtain ⟨sameMac, valid⟩ := checked
  obtain ⟨host, foundHost, valid⟩ := bind_ok valid
  obtain ⟨keyPairRef, foundKey, valid⟩ := bind_ok valid
  obtain ⟨_, sameKey, valid⟩ := bind_ok valid
  have spec : (value (value snapshot "inputs").fields "serverSpec").fields = pinned := by
    simp [value, itemObject_ok foundInputs, itemObject_ok foundPinned, Json.fields]
  have mac : reportedMac server = (interface.get? "mac").getD .null := by
    rw [reportedMac, managementOf_ok foundManagement, member_ok foundInterface]
    rfl
  have reading : ∀ text, reportedMac server = .str text → bootMac = text := by
    intro text reported
    rw [mac] at reported
    cases lookup : interface.get? "mac" with
    | none => simp [lookup] at reported
    | some stored =>
        simp only [lookup, Option.getD_some] at reported
        simp only [lookup] at foundMac
        rw [reported] at foundMac
        exact (Except.ok.inj foundMac).symm
  refine ⟨?_, ?_, ?_, ?_, ?_⟩
  · rw [spec]
    exact validateSpecInputs_ok specs
  · rw [item_value foundMachine]
    exact requireUnchanged_ok sameMachine
  · rw [member_ok foundHost, item_value foundKey]
    exact requireUnchanged_ok sameKey
  · intro text reported nonempty
    obtain rfl := reading text reported
    exact sameMac nonempty
  · intro strict
    have nonempty : bootMac ≠ "" := by simpa [strict] using demand_ok valid
    refine ⟨bootMac, ?_, nonempty⟩
    rw [mac]
    cases lookup : interface.get? "mac" with
    | none =>
        simp only [lookup] at foundMac
        exact absurd (Except.ok.inj foundMac).symm nonempty
    | some stored =>
        simp only [lookup] at foundMac
        rw [Option.getD_some, asString_ok foundMac]

/-- A fresh read of the Server and of its run, and what it was found to agree with. -/
def Revalidated (trace : Trace) (view : View) (later : Trace) (latest : View) : Prop :=
  ∃ name, later = trace ++ [⟨.get .server view.server.name, .ok latest.server⟩,
      ⟨.get .provisioningRun name, .ok latest.run⟩] ∧ Fresh later latest ∧ Unchanged view latest

theorem Revalidated.plainly {latest : View} (revalidated : Revalidated trace view later latest) :
    Plainly trace later := by
  obtain ⟨name, rfl, _⟩ := revalidated
  refine Extends.append fun event member => ?_
  simp only [List.mem_cons, List.not_mem_nil, or_false] at member
  rcases member with rfl | rfl <;> rfl

theorem Lenient.current (lenient : Lenient contract) (trusting : Trusting contract)
    {allowPaused allowNetworkPending : Bool} :
    (current view allowPaused allowNetworkPending).Meets contract trace
      (fun later latest => Revalidated trace view later latest ∧
        (allowPaused = false → Enabled latest.server) ∧
        (allowNetworkPending = false → Reported latest.server))
      (fun later _ => Plainly trace later) := by
  have reads : ∀ reply, Plainly trace (trace ++ [⟨Request.get .server view.server.name, reply⟩]) :=
    fun reply => .event trace rfl
  refine Op.meets_bind.mpr (Op.meets_perform.mpr
    ⟨lenient.plain _ _ rfl, fun server answered => ?_, fun failure _ => reads (.error failure)⟩)
  obtain ⟨kind, _⟩ : server.kind = .server ∧ server.name = view.server.name :=
    trusting _ (.ok server) answered
  have seen : Seen (trace ++ [⟨.get .server view.server.name, .ok server⟩]) server :=
    Api.seen_last (List.mem_singleton.mpr rfl)
  refine Op.Meets.bind (lenient.bindRun trusting) (fun later latest _ bound => ?_)
    fun later failure _ more => (reads (.ok server)).trans more
  obtain ⟨name, rfl, rfl, runKind, same, names, reference⟩ := bound
  have all : Plainly trace (trace ++ [⟨Request.get .server view.server.name, .ok latest.server⟩] ++
      [⟨Request.get .provisioningRun name, .ok latest.run⟩]) := (reads _).trans (.event _ rfl)
  refine Op.Meets.check (fun _ server => ?_) fun _ => all
  refine Op.Meets.check (fun _ alive => ?_) fun _ => all
  refine Op.Meets.check (fun _ attempt => ?_) fun _ => all
  refine Op.Meets.check (fun snapshot found => ?_) fun _ => all
  refine Op.Meets.check (fun _ pinned => ?_) fun _ => all
  refine Op.Meets.check (fun desired provisioning => ?_) fun _ => all
  refine Op.Meets.check (fun enabled isEnabled => ?_) fun _ => all
  refine Op.Meets.check (fun reconciliation paused => ?_) fun _ => all
  refine Op.Meets.check (fun _ allowed => ?_) fun _ => all
  obtain ⟨_, sameRun, attempt⟩ := bind_ok attempt
  obtain ⟨_, sameRequest, attempt⟩ := bind_ok attempt
  obtain ⟨attemptID, foundID, attempt⟩ := bind_ok attempt
  obtain ⟨_, sameID, attempt⟩ := bind_ok attempt
  obtain ⟨plan, foundPlan, attempt⟩ := bind_ok attempt
  obtain ⟨_, samePlan, samePhase⟩ := bind_ok attempt
  have planFields : pinnedPlan view.provisioning = snapshot := itemObject_fields found
  obtain ⟨inputs, machineRef, keyPairRef, bootMAC, reported⟩ := validatePinnedServer_ok pinned
  have unchanged : Unchanged view latest := {
    server := by simpa using requireUnchanged_ok server
    alive := by simpa using demand_ok alive
    run := by simpa using requireUnchanged_ok sameRun
    request := requireUnchanged_ok sameRequest
    attemptID := item_value foundID ▸ requireUnchanged_ok sameID
    snapshot := item_value foundPlan ▸ requireUnchanged_ok samePlan
    phase := requireUnchanged_ok samePhase
    inputs := by
      rw [pinnedSpec, planFields]
      exact inputs
    machineRef := planFields ▸ machineRef
    keyPairRef := planFields ▸ keyPairRef
    bootMAC := planFields ▸ bootMAC }
  refine ⟨⟨name, by simp, ⟨⟨?_, runKind, same⟩, ?_, kind, names, reference⟩, unchanged⟩, ?_, reported⟩
  · exact Api.seen_last (List.mem_singleton.mpr rfl)
  · exact seen.mono (List.prefix_append _ _)
  · intro strict
    have open_ : (enabled.truthy && !holds reconciliation "paused") = true := by
      simpa [strict] using demand_ok allowed
    obtain ⟨on, running⟩ := Bool.and_eq_true_iff.mp open_
    constructor
    · rwa [itemObject_fields provisioning, item_value isEnabled]
    · rw [member_ok paused]
      simpa using running

/-! ## Checkpoints -/

/-- The view stands for a run and a Server that the pass has read. -/
structure Bound (trace : Trace) (view : View) : Prop extends Held trace view where
  server : Seen trace view.server
  serverKind : view.server.kind = .server

theorem Bound.mono (bound : Bound trace view) (extended : trace <+: later) : Bound later view :=
  ⟨bound.toHeld.mono extended, bound.server.mono extended, bound.serverKind⟩

theorem Fresh.bound (fresh : Fresh trace view) : Bound trace view :=
  ⟨fresh.toHeld, fresh.server, fresh.serverKind⟩

theorem Unchanged.phaseOf {latest : View} {phase : Phase} (unchanged : Unchanged view latest)
    (found : phaseOf view.provisioning = some phase) : phaseOf latest.provisioning = some phase := by
  have same := unchanged.phase
  rw [phaseOf_eq_some] at found ⊢
  rw [found] at same
  simpa [Phase.json] using same

theorem Trusting.patchStatus (trusting : Trusting contract) {run : Resource} {status : Object}
    (permitted : contract.guard trace (.patchStatus run status)) :
    (Api.patchStatus run status).Meets contract trace
      (fun later updated => later = trace ++ [⟨.patchStatus run status, .ok updated⟩] ∧
        updated.kind = run.kind ∧ updated.name = run.name ∧ updated.uid = run.uid ∧
        ∃ before, updated.status = Json.mergeFields before status)
      (fun later _ => Gently trace later) := by
  refine Op.Meets.check (fun _ _ => ?_) fun _ => .refl _
  refine Op.meets_perform.mpr ⟨permitted, fun updated answered => ⟨rfl, ?_⟩, fun failure _ => ?_⟩
  · exact trusting _ (.ok updated) answered
  · exact .event trace (.inr ⟨run, status, rfl⟩)

/-- The last thing done was an acknowledged write of `fields` to the run of `view`. -/
structure Checkpointed (trace : Trace) (view : View) (fields : Object) (later : Trace) (state : View) :
    Prop where
  bound : Bound later state
  run : state.run.uid = view.run.uid
  server : state.server.uid = view.server.uid
  written : ∃ middle earlier latest before, Gently trace middle ∧ Revalidated middle view earlier latest ∧
    later = earlier ++ [⟨.patchStatus latest.run fields, .ok state.run⟩] ∧
    state.server = latest.server ∧ state.run.status = Json.mergeFields before fields

/-- The phase that a written checkpoint leaves. -/
theorem Checkpointed.phase {fields : Object} {phase : Phase} {state : View}
    (written : Checkpointed trace view (checkpointFields phase.json fields) later state)
    (distinct : ("phase" :: "currentStage" :: fields.map Prod.fst).Nodup) :
    phaseOf state.provisioning = some phase := by
  obtain ⟨_, _, _, before, _, _, _, _, merged⟩ := written.written
  rw [written.bound.same, merged]
  exact congrArg Record.phase (record_checkpoint before fields phase distinct)

theorem Lenient.checkpointAttempts (lenient : Lenient contract) (trusting : Trusting contract)
    {phase : Json} {source : Phase} {fields : Object}
    (found : phaseOf view.provisioning = some source) (attempts : Nat)
    (permit : ∀ later target, Gently trace later → Seen later target →
      target.kind = .provisioningRun → target.uid = view.run.uid → phaseOf target.status = some source →
      contract.guard later (.patchStatus target (checkpointFields phase fields))) :
    (checkpointAttempts phase fields attempts).Meets contract trace view
      (fun later _ state => Checkpointed trace view (checkpointFields phase fields) later state)
      (fun later _ state => Gently trace later ∧ state = view) := by
  induction attempts generalizing trace with
  | zero => exact ⟨.refl _, rfl⟩
  | succ attempts ih =>
      refine Action.Meets.load (Action.Meets.run (lenient.current trusting) (fun later latest _ read => ?_)
        fun later failure _ plainly => ⟨plainly.gently, rfl⟩)
      obtain ⟨revalidated, _, _⟩ := read
      have gently := revalidated.plainly.gently
      obtain ⟨_, _, fresh, unchanged⟩ := id revalidated
      have status := unchanged.phaseOf found
      rw [fresh.same] at status
      have patched := trusting.patchStatus
        (permit later latest.run gently fresh.run fresh.kind unchanged.run status)
      refine Action.Meets.run patched.attempt (fun after result extended outcome => ?_)
        fun after failure _ wrong => wrong.elim
      match result with
      | .ok updated =>
          obtain ⟨rfl, kind, _, uid, before, merged⟩ := outcome
          have kept := fresh.bound.mono extended
          have seen : Seen (later ++ [⟨.patchStatus latest.run (checkpointFields phase fields), .ok updated⟩])
              updated := Api.seen_last (List.mem_singleton.mpr rfl)
          exact ⟨⟨⟨seen, kind.trans fresh.kind, rfl⟩, kept.server, kept.serverKind⟩,
            uid.trans unchanged.run, unchanged.server, trace, later, latest, before, .refl _, revalidated,
            rfl, rfl, merged⟩
      | .error failure =>
          have gently : Gently trace after := gently.trans outcome
          have again := @ih after fun final target more => permit final target (gently.trans more)
          split
          · contradiction
          · refine again.mono (fun final _ state _ written => ?_) fun final _ state _ kept => ?_
            · obtain ⟨middle, earlier, target, before, more, rest⟩ := written.written
              exact ⟨written.bound, written.run, written.server, middle, earlier, target, before,
                gently.trans more, rest⟩
            · exact ⟨gently.trans kept.1, kept.2⟩
          · exact ⟨gently, rfl⟩

theorem Lenient.checkpoint (lenient : Lenient contract) (trusting : Trusting contract)
    {phase : Json} {source : Phase} {fields : Object}
    (found : phaseOf view.provisioning = some source)
    (permit : ∀ later target, Gently trace later → Seen later target →
      target.kind = .provisioningRun → target.uid = view.run.uid → phaseOf target.status = some source →
      contract.guard later (.patchStatus target (checkpointFields phase fields))) :
    (checkpoint phase fields).Meets contract trace view
      (fun later _ state => Checkpointed trace view (checkpointFields phase fields) later state)
      (fun later _ state => Gently trace later ∧ state = view) :=
  lenient.checkpointAttempts trusting found 5 permit

/-! ## Commands -/

/-- Requests that put down a private file. -/
def isDraft : Request → Bool
  | .host (.writeText ..) => true
  | .host (.writeJson ..) => true
  | _ => false

theorem plain_of_draft {request : Request} (draft : isDraft request = true) : isPlain request = true := by
  cases request with
  | host call => cases call <;> first | rfl | simp [isDraft] at draft
  | _ => simp [isDraft] at draft

/-- Only private files were put down. -/
abbrev Drafts : Trace → Trace → Prop := Extends fun request => isDraft request = true

theorem Drafts.plainly (drafts : Drafts trace later) : Plainly trace later :=
  drafts.weaken fun _ => plain_of_draft

/-- Requests of a command: reads, and the start of its process. -/
def isCommand (argv : List String) (files : List (String × Json)) (request : Request) : Prop :=
  isReading request = true ∨ request = .host (.spawn argv files)

/-- Abandoning a command raises in any case. -/
theorem Lenient.abandonCommand (lenient : Lenient contract) (failure : Exn) :
    (abandonCommand failure).Meets contract trace (fun _ _ => False)
      (fun later _ => Reads trace later) := by
  have kill : ∀ reply, Reads trace (trace ++ [⟨Request.host .killGroup, reply⟩]) :=
    fun reply => .event trace rfl
  have reap : ∀ {before : Trace} reply, Reads before (before ++ [⟨Request.host .reap, reply⟩]) :=
    fun reply => .event _ rfl
  have finish : ∀ {before : Trace}, Reads trace before →
      Op.Meets contract (do
        (Host.run .reap : Task Unit)
        throw failure : Task Int) before (fun _ _ => False) (fun later _ => Reads trace later) :=
    fun reads => Op.meets_bind.mpr (Op.meets_perform.mpr
      ⟨lenient.follows _ _ rfl, fun _ _ => reads.trans (reap _), fun _ _ => reads.trans (reap _)⟩)
  refine Op.meets_bind.mpr (Op.meets_tryCatch.mpr (Op.meets_perform.mpr
    ⟨lenient.follows _ _ rfl, fun _ _ => finish (kill _), fun other _ => ?_⟩))
  split
  · exact finish (kill _)
  · exact kill _

/-- What a command that returned has done. -/
def Ran (trace : Trace) (argv : List String) (files : List (String × Json)) (later : Trace)
    (returncode : Int) : Prop :=
  ∃ earlier timeout diagnostic output, Reads trace earlier ∧
    later = earlier ++ [⟨.host (.spawn argv files), .ok ()⟩, ⟨.host .startReader, .ok ()⟩,
      ⟨.host (.wait timeout), .ok returncode⟩, ⟨.host (.readText diagnostic), .ok output⟩]

theorem Ran.extends {argv : List String} {files : List (String × Json)} {returncode : Int}
    {allowed : Request → Prop} (ran : Ran trace argv files later returncode)
    (reading : ∀ request, isReading request = true → allowed request)
    (spawning : allowed (.host (.spawn argv files))) : Extends allowed trace later := by
  obtain ⟨earlier, timeout, diagnostic, output, reads, rfl⟩ := ran
  refine (reads.weaken reading).trans ⟨_, rfl, fun event member => ?_⟩
  simp only [List.mem_cons, List.not_mem_nil, or_false] at member
  rcases member with rfl | rfl | rfl | rfl
  · exact spawning
  · exact reading _ rfl
  · exact reading _ rfl
  · exact reading _ rfl

/-- Waiting for a process either returns its exit status or abandons it. -/
theorem Lenient.wait (lenient : Lenient contract) {timeout : Nat} :
    Op.Meets contract (tryCatch (Host.run (.wait timeout) : Task Int) Homelab.abandonCommand) trace
      (fun later returncode => later = trace ++ [⟨.host (.wait timeout), .ok returncode⟩])
      (fun later _ => Reads trace later) := by
  refine Op.meets_tryCatch.mpr (Op.meets_perform.mpr
    ⟨lenient.follows _ _ rfl, fun returncode _ => rfl, fun failure _ => ?_⟩)
  have waited : Reads trace (trace ++ [⟨Request.host (.wait timeout), .error failure⟩]) := .event _ rfl
  exact (lenient.abandonCommand failure).mono (fun _ _ _ impossible => impossible.elim)
    fun _ _ _ reads => waited.trans reads

theorem Lenient.runCommand (lenient : Lenient contract) {argv : List String}
    {files : List (String × Json)} {diagnostic : String} {timeout : Nat}
    (permit : ∀ later, Drafts trace later → contract.guard later (.host (.spawn argv files))) :
    (runCommand argv files diagnostic timeout).Meets contract trace
      (fun later completed => Ran trace argv files later completed.returncode)
      (fun later _ => Extends (isCommand argv files) trace later) := by
  have read : ∀ {later : Trace} (event : Event), Extends (isCommand argv files) trace later →
      isReading event.request = true → Extends (isCommand argv files) trace (later ++ [event]) :=
    fun event extended reading => extended.trans (.event _ (.inl reading))
  have start : Extends (isCommand argv files) trace trace := .refl _
  refine Op.meets_bind.mpr (Op.meets_perform.mpr
    ⟨lenient.plain _ _ rfl, fun _ _ => ?_, fun _ _ => read _ start rfl⟩)
  have first : Drafts trace (trace ++ [⟨Request.host (.writeText diagnostic ""), .ok ()⟩]) := .event _ rfl
  have written := read ⟨.host (.writeText diagnostic ""), .ok ()⟩ start rfl
  refine Op.meets_bind.mpr (Op.meets_perform.mpr
    ⟨permit _ first, fun _ _ => ?_, fun _ _ => written.trans (.event _ (.inr rfl))⟩)
  have spawned : Extends (isCommand argv files) trace
      (trace ++ [⟨Request.host (.writeText diagnostic ""), .ok ()⟩] ++
        [⟨Request.host (.spawn argv files), .ok ()⟩]) := written.trans (.event _ (.inr rfl))
  refine Op.meets_bind.mpr (Op.meets_perform.mpr
    ⟨lenient.follows _ _ rfl, fun _ _ => ?_, fun _ _ => read _ spawned rfl⟩)
  have reader := read ⟨.host .startReader, .ok ()⟩ spawned rfl
  refine Op.Meets.bind lenient.wait (fun later returncode _ ended => ?_) fun later failure _ reads =>
    reader.trans (reads.weaken fun _ => .inl)
  subst ended
  have waited := read ⟨.host (.wait timeout), .ok returncode⟩ reader rfl
  refine Op.meets_bind.mpr (Op.meets_perform.mpr
    ⟨lenient.plain _ _ rfl, fun output _ => ?_, fun _ _ => read _ waited rfl⟩)
  exact ⟨_, timeout, diagnostic, output, first.plainly.reads, by simp⟩

/-! ## Stages -/

theorem ok_bind {ε α β : Type} {first : Except ε α} {next : α → Except ε β} {property : β → Prop} :
    (∀ result, first >>= next = .ok result → property result) ↔
      ∀ value, first = .ok value → ∀ result, next value = .ok result → property result := by
  cases first with
  | error failure => simp [bind, Except.bind]
  | ok value => simp [bind, Except.bind]

theorem stageVariables_stage {stage : String} :
    ∀ result, stageVariables view stage = .ok result →
      result.get? "provision_stage" = some (.str stage) ∧
        result.get? "provision_run_uid" = some (.str view.run.uid) := by
  simp [stageVariables, ok_bind, pure, Except.pure]

/-- Requests of a stage: reads, and the start of its process. -/
def isStage (stage uid : String) (request : Request) : Prop :=
  isReading request = true ∨
    ∃ argv files, request = .host (.spawn argv files) ∧ stageOf files = some (stage, uid)

/-- The last thing done was a successful stage. -/
def Staged (trace : Trace) (stage uid : String) (later : Trace) : Prop :=
  ∃ earlier argv files diagnostic output timeout, Reads trace earlier ∧
    stageOf files = some (stage, uid) ∧
    later = earlier ++ completion argv files diagnostic output timeout

theorem Lenient.runStage (lenient : Lenient contract) {env : Environment} {known : KnownHosts}
    {stage : String} (permit : ∀ later argv files, Drafts trace later →
      stageOf files = some (stage, view.run.uid) → contract.guard later (.host (.spawn argv files))) :
    (runStage env view known stage).Meets contract trace
      (fun later _ => Staged trace stage view.run.uid later)
      (fun later _ => Extends (isStage stage view.run.uid) trace later) := by
  have start : Extends (isStage stage view.run.uid) trace trace := .refl _
  have write : ∀ {before : Trace} (path : String) (content : Json), Drafts trace before →
      (Host.run (.writeJson path content) : Task Unit).Meets contract before
        (fun later _ => Drafts trace later) (fun later _ => Drafts trace later) := by
    intro before path content drafts
    exact Op.meets_perform.mpr ⟨lenient.plain _ _ rfl, fun _ _ => drafts.trans (.event _ rfl),
      fun _ _ => drafts.trans (.event _ rfl)⟩
  have reading : ∀ {later : Trace}, Reads trace later → Extends (isStage stage view.run.uid) trace later :=
    fun reads => reads.weaken fun _ => .inl
  refine Op.Meets.check (fun host _ => ?_) fun _ => start
  refine Op.Meets.check (fun arguments _ => ?_) fun _ => start
  refine Op.Meets.check (fun stageVars built => ?_) fun _ => start
  refine Op.Meets.check (fun attemptID _ => ?_) fun _ => start
  obtain ⟨staged, identified⟩ := stageVariables_stage stageVars built
  refine Op.Meets.bind (write _ _ (.refl _)) (fun first _ _ drafts => ?_)
    fun _ _ _ drafts => reading drafts.plainly.reads
  refine Op.Meets.bind (write _ _ drafts) (fun second _ _ drafts => ?_)
    fun _ _ _ drafts => reading drafts.plainly.reads
  have prepared := drafts.plainly.reads
  have found : ∀ inventory, stageOf [("inventory.json", inventory), ("variables.json", .obj stageVars)] =
      some (stage, view.run.uid) := by
    simp [stageOf, Json.fields, staged, identified]
  refine Op.Meets.bind (lenient.runCommand fun later more => permit later _ _ (drafts.trans more) (found _))
    (fun later completed _ ran => ?_) fun later _ _ command => ?_
  · refine Op.meets_ofExcept.mpr ⟨fun _ passed => ?_, fun _ _ => ?_⟩
    · have success : completed.returncode = 0 := by simpa using demand_ok passed
      obtain ⟨earlier, timeout, diagnostic, output, reads, rfl⟩ := ran
      rw [success]
      exact ⟨earlier, _, _, diagnostic, output, timeout, prepared.trans reads, found _, rfl⟩
    · exact (reading prepared).trans
        (ran.extends (fun _ => .inl) (.inr ⟨_, _, rfl, found _⟩))
  · refine (reading prepared).trans (command.weaken fun request which => ?_)
    rcases which with reading | rfl
    · exact .inl reading
    · exact .inr ⟨_, _, rfl, found _⟩

/-- Requests of a play that is no stage. -/
def isPlay (request : Request) : Prop :=
  isReading request = true ∨ ∃ argv files, request = .host (.spawn argv files) ∧ stageOf files = none

theorem Lenient.runPlay (lenient : Lenient contract) {env : Environment} {server : Resource}
    {host : String} {known : KnownHosts} {play : String} {playVars : Object}
    (other : playVars.get? "provision_stage" = none)
    (permit : ∀ later argv files, stageOf files = none → contract.guard later (.host (.spawn argv files))) :
    (runPlay env server host known play playVars).Meets contract trace
      (fun later _ => Extends isPlay trace later) (fun later _ => Extends isPlay trace later) := by
  have start : Extends isPlay trace trace := .refl _
  refine Op.Meets.check (fun literal _ => ?_) fun _ => start
  refine Op.Meets.check (fun hostKeyAlias _ => ?_) fun _ => start
  refine Op.Meets.check (fun arguments _ => ?_) fun _ => start
  refine Op.Meets.bind (lenient.meets (run_plain (.writeJson _ _) rfl)) (fun first _ _ wrote => ?_)
    fun _ _ _ plainly => plainly.weaken fun _ plain => .inl (reading_of_plain plain)
  refine Op.Meets.bind (lenient.meets (run_plain (.writeJson _ _) rfl)) (fun second _ _ more => ?_)
    fun _ _ _ plainly => (wrote.trans plainly).weaken fun _ plain => .inl (reading_of_plain plain)
  have unstaged : ∀ inventory,
      stageOf [("inventory.json", inventory), ("variables.json", .obj playVars)] = none := by
    simp [stageOf, Json.fields, other]
  have prepared : Extends isPlay trace second :=
    (wrote.trans more).weaken fun _ plain => .inl (reading_of_plain plain)
  refine Op.Meets.bind (lenient.runCommand fun later reads => permit later _ _ (unstaged _))
    (fun later completed _ ran => ?_) fun later _ _ command => ?_
  · have all := prepared.trans (ran.extends (fun _ => .inl) (.inr ⟨_, _, rfl, unstaged _⟩))
    refine Op.Meets.check (fun _ _ => ?_) fun _ => all
    exact Op.meets_ofExcept.mpr ⟨fun _ _ => all, fun _ _ => all⟩
  · refine prepared.trans (command.weaken fun request which => ?_)
    rcases which with reading | rfl
    · exact .inl reading
    · exact .inr ⟨_, _, rfl, unstaged _⟩

/-! ## Whole passes -/

variable {env : Environment} {preflight : Bool}

/-- Serving one reserved Server starts from a view that was bound just now. -/
theorem Lenient.serveHosts (lenient : Lenient contract) (trusting : Trusting contract) {revision : String}
    (each : ∀ {now : Trace} {bound : View} (name : String) (hostVars : Object), Fresh now bound →
      (attemptServer env name hostVars revision preflight).Meets contract now bound
        (fun _ _ _ => True) (fun _ _ _ => True))
    (hosts : List (String × Object)) (failed : Bool) :
    (serveHosts env revision preflight hosts failed).Meets contract trace
      (fun _ _ => True) (fun _ _ => True) := by
  induction hosts generalizing trace failed with
  | nil => exact True.intro
  | cons host rest ih =>
      obtain ⟨name, hostVars⟩ := host
      refine Op.meets_bind.mpr (Op.meets_perform.mpr
        ⟨lenient.plain _ _ rfl, fun server answered => ?_, fun _ _ => True.intro⟩)
      obtain ⟨kind, _⟩ : server.kind = .server ∧ server.name = name := trusting _ (.ok server) answered
      have seen := Api.seen_get trace .server name server
      refine Op.Meets.check (fun reserved _ => ?_) fun _ => True.intro
      split
      · refine Op.Meets.bind (lenient.bindRun trusting) (fun now view extended bound => ?_)
          fun _ _ _ _ => True.intro
        obtain ⟨runName, rfl, rfl, runKind, same, names, reference⟩ := bound
        have read := Api.seen_get (trace ++ [⟨.get .server name, .ok view.server⟩]) .provisioningRun
          runName view.run
        have fresh : Fresh _ view := ⟨⟨read, runKind, same⟩, seen.mono extended, kind, names, reference⟩
        have attempted : Op.Meets contract
            (Action.within view (attemptServer env name hostVars revision preflight)) _
            (fun _ _ => True) (fun _ _ => True) := Action.meets_within.mpr (each name hostVars fresh)
        refine Op.Meets.bind attempted (fun later outcome _ _ => ?_) fun _ _ _ _ => True.intro
        obtain ⟨outcome, final⟩ := outcome
        dsimp only
        split
        · exact True.intro
        · split
          · exact ih failed
          · exact True.intro
        · split
          · exact True.intro
          · exact ih true
      · exact ih failed

/-- A whole pass meets a contract that every attempt to serve a Server meets. -/
theorem Lenient.main (lenient : Lenient contract) (trusting : Trusting contract)
    (each : ∀ {now : Trace} {bound : View} (name : String) (hostVars : Object) (revision : String),
      Fresh now bound → (attemptServer env name hostVars revision preflight).Meets contract now bound
        (fun _ _ _ => True) (fun _ _ _ => True)) :
    (main env preflight).Meets contract trace (fun _ _ => True) (fun _ _ => True) := by
  refine Op.Meets.check (fun groupName _ => ?_) fun _ => True.intro
  refine Op.Meets.bind (lenient.meets (captureInventory_plain _)) (fun _ captured _ _ => ?_)
    fun _ _ _ _ => True.intro
  obtain ⟨group, inventory⟩ := captured
  refine Op.Meets.check (fun _ _ => ?_) fun _ => True.intro
  refine Op.Meets.check (fun _ _ => ?_) fun _ => True.intro
  refine Op.Meets.bind (lenient.meets (omittedActiveRuns_plain _)) (fun _ waiting _ _ => ?_)
    fun _ _ _ _ => True.intro
  split
  · exact True.intro
  · refine Op.Meets.bind (lenient.meets (checkOutput_plain _)) (fun _ _ _ _ => ?_)
      fun _ _ _ _ => True.intro
    refine Op.Meets.bind (lenient.meets (resolvedInventoryHosts_plain _ _)) (fun _ _ _ _ => ?_)
      fun _ _ _ _ => True.intro
    exact lenient.serveHosts trusting (fun name hostVars fresh => each name hostVars _ fresh) _ _

end Homelab.Provisioning
