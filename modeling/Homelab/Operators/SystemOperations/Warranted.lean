import Homelab.Operators.KnownHosts
import Homelab.Operators.Reservation
import Homelab.Operators.SystemOperations

namespace Homelab.SystemOperations

open Json (Object)
open Api (Seen Honest)
open Custody (Holding Unreported Silent Shared Aloof Client checkClaim_ok)
open Configurations (sshOption sshArgs_options)
open Interaction (Contract Extends Moment Op Action Program localTrace)
open Provisioning (member_ok)
open RunnerTrust (parseKnownHosts knownHosts knownHosts_entries TrustedEntry)
open ServerOperation (acquire settle checkClaim reservation completeOperation operationProgress verifyOperation)

/-! # When a reviewed play runs -/

variable {env : Environment} {arguments : Arguments} {events trace later : Trace}

/-! ## What the checks have read -/

/-- The reviewed Server of the reviewed Machine, which nobody else works on. -/
structure Selected (arguments : Arguments) (server : Resource) : Prop where
  uid : server.uid = arguments.uid
  alive : server.terminating = false
  machine : value (value server.status "machineRef").fields "uid" = .str arguments.machineUid
  idle : holds (value server.status "provisioning").fields "maintenance" = false
  inactive : value (value server.status "provisioning").fields "activeRunRef" = .null
  free : holds server.status "operationRef" = false
  running : holds (value server.spec "reconciliation").fields "paused" = false

theorem checkSelected_ok {server : Resource} {result : Unit}
    (passed : checkSelected server arguments.uid arguments.machineUid = .ok result) : Selected arguments server := by
  obtain ⟨_, identity, passed⟩ := bind_ok passed
  obtain ⟨machine, isMachine, passed⟩ := bind_ok passed
  obtain ⟨_, sameMachine, passed⟩ := bind_ok passed
  obtain ⟨provisioning, isProvisioning, passed⟩ := bind_ok passed
  obtain ⟨_, idle, passed⟩ := bind_ok passed
  obtain ⟨_, free, passed⟩ := bind_ok passed
  obtain ⟨reconciliation, isReconciliation, passed⟩ := bind_ok passed
  obtain ⟨_, running, passed⟩ := bind_ok passed
  have identity := demand_ok identity
  have idle := demand_ok idle
  simp only [Bool.and_eq_true, Bool.not_eq_true', decide_eq_true_eq] at identity idle
  constructor
  · exact identity.1
  · exact identity.2
  · rw [member_ok isMachine]
    simpa using demand_ok sameMachine
  · rw [member_ok isProvisioning]
    exact idle.1
  · rw [member_ok isProvisioning]
    exact idle.2
  · simpa using demand_ok free
  · rw [member_ok isReconciliation]
    simpa using demand_ok running

theorem selectedServer_ran {server : Resource} (ran : (selectedServer arguments).Ran events server) :
    ⟨.get .server arguments.server, .ok server⟩ ∈ events ∧ Selected arguments server := by
  obtain ⟨first, rest, found, split, read, ran⟩ := Op.ran_bind.mp ran
  obtain ⟨_, checked, ran⟩ := Op.ran_check.mp ran
  obtain ⟨empty, rfl⟩ := Op.ran_pure.mp ran
  rw [split, Op.ran_perform.mp read]
  exact ⟨by simp, checkSelected_ok checked⟩

/-- The variables lead to this address, over a strictly verified connection to the
reviewed Server; nothing of that is inherited. -/
structure Directed (env : Environment) (arguments : Arguments) (host : String) (hostVars : Object) : Prop where
  host : hostVars.get? "ansible_host" = some (.str host)
  user : hostVars.get? "ansible_user" = some (.str "ansible")
  connection : hostVars.get? "ansible_connection" = some (.str "ssh")
  become : hostVars.get? "ansible_become" = some (.bool true)
  options : ∃ options hostKeyAlias, hostVars.get? "ansible_ssh_args" = some (.str (shlexJoin options)) ∧
    sshOption "StrictHostKeyChecking" options = some "yes" ∧
    sshOption "UserKnownHostsFile" options = some (knownHostsPath env) ∧
    hostAlias arguments.uid = .ok hostKeyAlias ∧ sshOption "HostKeyAlias" options = some hostKeyAlias
  commonArguments : hostVars.get? "ansible_ssh_common_args" = some (.str "")
  extraArguments : hostVars.get? "ansible_ssh_extra_args" = some (.str "")

theorem transport_directed {latest : Resource} {updates : Object} (prior : Object)
    (uid : latest.uid = arguments.uid) (made : transport env arguments latest = .ok updates) :
    ∃ host, managedHost latest.status = .ok host ∧ Directed env arguments host (prior.update updates) := by
  obtain ⟨host, isHost, made⟩ := bind_ok made
  obtain ⟨options, isOptions, made⟩ := bind_ok made
  obtain ⟨hostKeyAlias, isAlias, strict, aliased⟩ := sshArgs_options isOptions
  have known : sshOption "UserKnownHostsFile" options = some (knownHostsPath env) := by
    obtain ⟨_, _, isOptions⟩ := bind_ok isOptions
    obtain ⟨_, _, isOptions⟩ := bind_ok isOptions
    obtain ⟨_, _, isOptions⟩ := bind_ok isOptions
    cases isOptions
    simp [sshOption, Configurations.settingOf, List.isPrefixOf]
  cases made
  have reads (key : String) := @Object.get?_update prior [("ansible_host", .str host), ("ansible_user", .str "ansible"),
    ("ansible_connection", .str "ssh"), ("ansible_become", .bool true),
    ("ansible_ssh_args", .str (shlexJoin options)), ("ansible_ssh_common_args", .str ""),
    ("ansible_ssh_extra_args", .str ""), ("system_operation_server_name", .str arguments.server),
    ("system_operation_server_uid", .str arguments.uid),
    ("system_operation_machine_uid", .str arguments.machineUid)] (by simp) key
  rw [uid] at isAlias
  refine ⟨host, isHost, ?_⟩
  constructor
  · exact reads _
  · exact reads _
  · exact reads _
  · exact reads _
  · exact ⟨options, hostKeyAlias, reads _, strict, known, isAlias, aliased⟩
  · exact reads _
  · exact reads _

/-- The known_hosts file was written with one entry, for a Server of this name. -/
def Trusting (env : Environment) (arguments : Arguments) (trace : Trace) : Prop :=
  ∃ content server fields, ⟨.host (.writeText (knownHostsPath env) content), .ok ()⟩ ∈ trace ∧
    (⟨.get .server arguments.server, .ok server⟩ : Event) ∈ trace ∧ parseKnownHosts content = [fields] ∧
    TrustedEntry env server fields

theorem Trusting.mono (trusting : Trusting env arguments trace) (inside : trace ⊆ later) :
    Trusting env arguments later := by
  obtain ⟨content, server, fields, written, got, parsed, entry⟩ := trusting
  exact ⟨content, server, fields, inside written, inside got, parsed, entry⟩

theorem inventoryHosts_single (name : String) (hostVars : Object) :
    inventoryHosts (inventory name hostVars) = .ok [(name, hostVars)] := rfl

theorem prepare_trusting {hostVars : Object} {trusted : List RunnerTrust.HostTrust}
    (ran : (RunnerTrust.prepare env (Api.get .server) (inventory arguments.server hostVars)).Ran events trusted) :
    ∃ server fields, (⟨.get .server arguments.server, .ok server⟩ : Event) ∈ events ∧
      parseKnownHosts (knownHosts trusted) = [fields] ∧ TrustedEntry env server fields := by
  obtain ⟨hosts, isHosts, each⟩ := ran.reached.check
  rw [inventoryHosts_single] at isHosts
  cases isHosts
  obtain ⟨servers, gets, entries⟩ := knownHosts_entries each.mapM
  cases gets with
  | cons got none =>
      cases none
      generalize isFile : parseKnownHosts (knownHosts trusted) = file at entries
      cases entries with
      | cons entry none =>
          cases none
          exact ⟨_, _, got, rfl, entry⟩

theorem prepareTarget_ran {group : String} {hostVars : Object}
    (ran : (prepareTarget env group arguments).Ran events hostVars) :
    Trusting env arguments events ∧ ∃ host, Directed env arguments host hostVars := by
  obtain ⟨first, rest, captured, split, _, ran⟩ := Op.ran_bind.mp ran
  obtain ⟨second, rest, hosts, split', _, ran⟩ := Op.ran_bind.mp ran
  split at ran
  · exact (Op.ran_throw ran).elim
  · rename_i selected found
    obtain ⟨third, rest, server, split'', selects, ran⟩ := Op.ran_bind.mp ran
    obtain ⟨fourth, rest, trusted, prepared, trusts, ran⟩ := Op.ran_bind.mp ran
    obtain ⟨fifth, rest, _, written, writes, ran⟩ := Op.ran_bind.mp ran
    obtain ⟨sixth, rest, latest, last, rereads, ran⟩ := Op.ran_bind.mp ran
    obtain ⟨_, _, ran⟩ := Op.ran_check.mp ran
    obtain ⟨updates, isTransport, ran⟩ := Op.ran_check.mp ran
    obtain ⟨empty, rfl⟩ := Op.ran_pure.mp ran
    obtain ⟨_, current⟩ := selectedServer_ran rereads
    obtain ⟨host, _, directed⟩ := transport_directed _ current.uid isTransport
    refine ⟨?_, host, directed⟩
    obtain ⟨owner, fields, got, parsed, entry⟩ := prepare_trusting trusts
    refine ⟨_, owner, fields, ?_, ?_, parsed, entry⟩
    · rw [split, split', split'', prepared, written, Op.ran_perform.mp writes]
      simp
    · rw [split, split', split'', prepared]
      simp [got]

/-! ## The play -/

/-- What a pass has established when it starts the play: the Server is held by an
Operation of its own, and the play is led to the address that the claimed Server has. -/
structure Warranted (env : Environment) (arguments : Arguments) (trace : Trace) (argv : List String)
    (files : List (String × Json)) (operation : Resource) : Prop where
  argv : argv = playArgv env arguments.operation
  holding : Holding trace operation arguments.uid
  directed : ∃ claimed host hostVars, Seen trace claimed ∧ claimed.uid = arguments.uid ∧
    managedHost claimed.status = .ok host ∧ Directed env arguments host hostVars ∧
    files = playFiles arguments hostVars
  selected : ∃ server, (⟨.get .server arguments.server, .ok server⟩ : Event) ∈ trace ∧ Selected arguments server
  trusting : Trusting env arguments trace

def reviewed (env : Environment) (arguments : Arguments) : Contract interface where
  guard trace request := ∀ argv files, request = .host (.spawn argv files) →
    ∃ operation, Warranted env arguments trace argv files operation
  rely := Honest

/-- No play is started, and no outcome reported. -/
def Inert (request : Request) : Prop :=
  (∀ argv files, request ≠ .host (.spawn argv files)) ∧
    ∀ resource status, request = .patchStatus resource status → "phase" ∉ status.map Prod.fst

theorem inert_permitted {α : Type} {body : Task α} (inert : body.Confined Inert) :
    body.Meets (reviewed env arguments) trace
      (fun later value => ∃ events, Op.Added (reviewed env arguments) Inert trace later events ∧ body.Ran events value)
      fun later _ => ∃ events, Op.Added (reviewed env arguments) Inert trace later events :=
  inert.meets_ran fun _ _ _ allowed argv files same => absurd same (allowed.1 argv files)

theorem inert_plain {α : Type} {body : Task α} (plain : Plain body) : body.Confined Inert := by
  refine Op.Confined.weaken plain fun request allowed => ⟨?_, ?_⟩
  · intro argv files same
    rw [same] at allowed
    cases allowed
  · intro resource status same
    rw [same] at allowed
    cases allowed

theorem Inert.silent {event : Event} (inert : Inert event.request) (uid : String) : Silent uid event :=
  fun resource status patches _ _ => inert.2 resource status patches

theorem operationProgress_inert (target : Resource) (step : String) :
    (operationProgress target step).Confined Inert := by
  refine .bind (inert_plain (Configurations.verifyOperation_plain target)) fun operation => ?_
  refine .bind (.check fun _ _ => .perform ⟨fun _ _ same => (by cases same), ?_⟩) fun _ => .pure _
  intro resource status same
  cases same
  simp

theorem selectedServer_inert : (selectedServer arguments).Confined Inert :=
  inert_plain (.bind (get_plain .server _) fun _ => .check fun _ _ => .pure _)

theorem prepareTarget_inert (group : String) : (prepareTarget env group arguments).Confined Inert := by
  refine .bind (inert_plain (Provisioning.captureInventory_plain group)) fun captured => ?_
  refine .bind (inert_plain (Provisioning.resolvedInventoryHosts_plain env _)) fun hosts => ?_
  split
  · exact .throw _
  · refine .bind selectedServer_inert fun server => ?_
    refine .bind (inert_plain (RunnerTrust.prepare_plain env _ fun name => get_plain .server name))
      fun trusted => ?_
    refine .bind (inert_plain (Provisioning.run_plain (.writeText _ _) rfl)) fun _ => .bind selectedServer_inert fun latest => ?_
    exact .check fun _ _ => .check fun _ _ => .pure _

theorem runAnsible_warranted {argv : List String} {files : List (String × Json)} {diagnostic : String}
    {timeout : Nat}
    (warranted : ∃ operation, Warranted env arguments (trace ++ [⟨.host (.writeText diagnostic ""), .ok ()⟩]) argv files operation) :
    (runAnsible argv files diagnostic timeout).Meets (reviewed env arguments) trace (fun _ _ => True)
      fun _ _ => True := by
  apply Op.meets_bind.mpr
  refine Op.meets_perform.mpr ⟨fun _ _ same => (by cases same), fun _ _ => ?_, fun _ _ => True.intro⟩
  apply Op.meets_bind.mpr
  refine Op.meets_perform.mpr ⟨fun _ _ same => ?_, fun _ _ => ?_, fun _ _ => True.intro⟩
  · cases same
    exact warranted
  · have rest : Op.Confined Inert (do
        (Host.run .startReader : Task Unit)
        let returncode ← tryCatch (Host.run (.wait timeout) : Task Int) abandonCommand
        let stdout : String ← (Host.run (.readText diagnostic) : Task String)
        return ({ returncode, stdout } : Completed)) := by
      have calls : ∀ call : Host, (∀ argv files, call ≠ .spawn argv files) → Op.Confined Inert (Host.run call) := by
        intro call other
        refine .perform ⟨fun argv files same => ?_, fun _ _ same => by cases same⟩
        exact other argv files (Request.host.inj same)
      have reads := calls (.readText diagnostic) (by simp)
      refine .bind (calls .startReader (by simp)) fun _ => .bind (.tryCatch (calls (.wait timeout) (by simp)) ?_)
        fun returncode => .bind reads fun _ => .pure _
      intro failure
      refine .bind (.tryCatch (calls .killGroup (by simp)) fun other => ?_) fun _ =>
        .bind (calls .reap (by simp)) fun _ => .throw _
      split
      · exact .pure _
      · exact .throw _
    exact (inert_permitted rest).mono (fun _ _ _ _ => True.intro) fun _ _ _ _ => True.intro

/-- A claimed Server is led to, and nowhere else. -/
theorem executeClaimed_reviewed {operation claimed : Resource} {host : String} {hostVars : Object} {second : Trace}
    (unreported : Unreported trace operation second) (seen : Seen second claimed) (uid : claimed.uid = arguments.uid)
    (owned : Json.Same (value claimed.status "operationRef") operation.reference)
    (directed : Directed env arguments host hostVars)
    (selected : ∃ server, (⟨.get .server arguments.server, .ok server⟩ : Event) ∈ trace ∧ Selected arguments server)
    (trusting : Trusting env arguments trace) :
    (executeClaimed env arguments hostVars claimed).Meets (reviewed env arguments) trace (fun _ _ => True)
      fun _ _ => True := by
  refine Op.Meets.check (fun current isHost => Op.Meets.check (fun _ same => ?_) fun _ => True.intro)
    fun _ => True.intro
  have leads : hostVars.get? "ansible_host" = some (.str current) := by
    have equal : value hostVars "ansible_host" = .str current := by simpa using demand_ok same
    exact Custody.value_str.mp equal
  have sameHost : current = host := by
    rw [directed.host] at leads
    exact (Json.str.inj (Option.some.inj leads)).symm
  subst sameHost
  refine (inert_permitted (operationProgress_inert claimed _)).bind (fun later _ _ progressed => ?_)
    fun _ _ _ _ => True.intro
  obtain ⟨events, added, _⟩ := progressed
  obtain rfl := added.split
  refine Op.Meets.bind (runAnsible_warranted ⟨operation, ?_⟩) (fun _ result _ _ => ?_) fun _ _ _ _ => True.intro
  · have silent : ∀ event ∈ second ++ events ++ [(⟨.host (.writeText
        (env.directory ++ "/" ++ arguments.operation.playName ++ ".log") ""), .ok ()⟩ : Event)],
        Silent operation.uid event := by
      intro event member
      simp only [List.mem_append, List.mem_singleton] at member
      rcases member with (before | during) | log
      · exact unreported.2 event before
      · exact (added.inside event during).silent operation.uid
      · intro resource status patches
        rw [log] at patches
        cases patches
    obtain ⟨first, name, spec, split⟩ := unreported.1
    constructor
    · rfl
    · refine ⟨_, ⟨⟨first, name, spec, ?_⟩, silent⟩, claimed, ?_, uid, owned⟩
      · rw [split]
        simp
      · obtain ⟨event, member, returned⟩ := seen
        exact ⟨event, by simp [member], returned⟩
    · refine ⟨claimed, current, hostVars, ?_, uid, isHost, directed, rfl⟩
      obtain ⟨event, member, returned⟩ := unreported.seen seen
      exact ⟨event, by simp [member], returned⟩
    · obtain ⟨server, got, gates⟩ := selected
      exact ⟨server, by simp [got], gates⟩
    · exact trusting.mono fun event member => by simp [member]
  · exact Op.meets_ofExcept.mpr ⟨fun _ _ => True.intro, fun _ _ => True.intro⟩

theorem settle_reviewed {α : Type} (operation : Resource) (outcome : Except Exn α) :
    (settle operation outcome).Meets (reviewed env arguments) trace (fun _ _ => True) fun _ _ => True := by
  have meets : (settle operation outcome).Meets (reviewed env arguments) trace
      (fun later _ => Extends (Custody.Reporting (Custody.completion outcome)) trace later)
      fun later _ => Extends (Custody.Reporting (Custody.completion outcome)) trace later :=
    Op.Confined.meets (Custody.settle_reporting operation outcome)
      fun _ _ _ reporting argv files same => absurd same (reporting.1 _)
  exact meets.mono (fun _ _ _ _ => True.intro) fun _ _ _ _ => True.intro

theorem acquire_inert (snapshot : Resource) (action operator : String) (requestedBy : Option Json) :
    (acquire snapshot action operator requestedBy).Confined Inert := by
  refine .check fun _ _ => .check fun _ _ => ?_
  refine .bind (inert_plain (Provisioning.run_plain .uuid rfl)) fun id => ?_
  refine .tryCatch (.perform ⟨fun _ _ same => (by cases same), fun _ _ same => (by cases same)⟩) fun failure => ?_
  split <;> exact .throw _

/-- The claimed Server is the reviewed one, and is led to. -/
theorem reservation_reviewed {snapshot : Resource} {host : String} {hostVars : Object}
    (directed : Directed env arguments host hostVars)
    (read : (⟨.get .server arguments.server, .ok snapshot⟩ : Event) ∈ trace) (selected : Selected arguments snapshot)
    (trusting : Trusting env arguments trace) :
    (Action.within () (reservation snapshot arguments.operation.text "system-operations" none .server
      fun claimed _ => (executeClaimed env arguments hostVars claimed : Pass Unit Unit))).Meets
        (reviewed env arguments) trace (fun _ _ => True) fun _ _ => True := by
  apply Action.meets_within.mpr
  refine Action.Meets.run (inert_permitted (acquire_inert snapshot _ _ _)) (fun later operation _ acquired => ?_)
    fun _ _ _ _ => True.intro
  obtain ⟨events, added, ran⟩ := acquired
  obtain ⟨first, name, spec, rfl⟩ := Custody.acquire_ran ran
  obtain rfl := added.split
  apply Action.meets_bind.mpr
  apply Action.meets_attempt.mpr
  have settles (later : Trace) (outcome : Except Exn Unit) :
      (liftM (settle operation outcome) : Pass Unit Unit).Meets (reviewed env arguments) later ()
        (fun _ _ _ => True) fun _ _ _ => True :=
    Action.meets_lift.mpr (settle_reviewed operation outcome)
  apply Action.meets_bind.mpr
  apply Action.meets_lift.mpr
  refine Op.meets_perform.mpr ⟨fun _ _ same => (by cases same), fun claimed _ => ?_, fun failure _ => settles _ _⟩
  refine Action.Meets.check (fun _ claims => ?_) fun failure => settles _ _
  apply Action.meets_lift.mpr
  obtain ⟨sameUid, owned⟩ := checkClaim_ok claims
  have body : (executeClaimed env arguments hostVars claimed).Meets (reviewed env arguments)
      (trace ++ (first ++ [⟨.create .operation name spec, .ok operation⟩]) ++
        [⟨.get .server snapshot.name, .ok claimed⟩]) (fun _ _ => True) fun _ _ => True := by
    have unreported : Unreported (trace ++ (first ++ [⟨.create .operation name spec, .ok operation⟩]) ++
        [⟨.get .server snapshot.name, .ok claimed⟩]) operation [⟨.get .server snapshot.name, .ok claimed⟩] := by
      refine ⟨⟨trace ++ first, name, spec, by simp⟩, fun event member => ?_⟩
      rw [List.mem_singleton.mp member]
      intro resource status patches
      cases patches
    have trusted : Trusting env arguments (trace ++ (first ++ [⟨.create .operation name spec, .ok operation⟩]) ++
        [⟨.get .server snapshot.name, .ok claimed⟩]) :=
      trusting.mono fun event member => by simp [member]
    exact executeClaimed_reviewed unreported (Api.seen_get [] _ _ _) (sameUid.trans selected.uid) owned directed
      ⟨snapshot, by simp [read], selected⟩ trusted
  exact body.mono (fun _ _ _ _ => settles _ _) fun _ _ _ _ => settles _ _

/-- The play is started for a Server that was reviewed, trusted and claimed, or not at all. -/
theorem main_reviewed (env : Environment) (arguments : Arguments) :
    (main env arguments).Meets (reviewed env arguments) [] (fun _ _ => True) fun _ _ => True := by
  refine Op.Meets.check (fun _ _ => Op.Meets.check (fun group _ => ?_) fun _ => True.intro) fun _ => True.intro
  refine (inert_permitted (prepareTarget_inert group)).bind (fun prepared hostVars _ added => ?_) fun _ _ _ _ => True.intro
  obtain ⟨events, added, ran⟩ := added
  obtain ⟨trusting, host, directed⟩ := prepareTarget_ran ran
  have whole : prepared = events := by rw [added.split, List.nil_append]
  have writes (path : String) (document : Json) : Op.Confined Inert (Host.run (.writeJson path document)) :=
    inert_plain (Provisioning.run_plain (.writeJson path document) rfl)
  refine (inert_permitted (writes _ _)).bind (fun listed _ first _ => ?_) fun _ _ _ _ => True.intro
  refine (inert_permitted (writes _ _)).bind (fun given _ second _ => ?_) fun _ _ _ _ => True.intro
  refine (inert_permitted selectedServer_inert).bind (fun later snapshot third selects => ?_) fun _ _ _ _ => True.intro
  obtain ⟨reads, more, ran⟩ := selects
  obtain ⟨read, selected⟩ := selectedServer_ran ran
  refine Op.Meets.check (fun _ _ => Op.Meets.check (fun _ _ => ?_) fun _ => True.intro) fun _ => True.intro
  have current : (⟨.get .server arguments.server, .ok snapshot⟩ : Event) ∈ later := by
    rw [more.split]
    exact List.mem_append_right _ read
  rw [← whole] at trusting
  have trusted := trusting.mono (first.trans (second.trans third)).subset
  refine Op.Meets.bind (reservation_reviewed directed current selected trusted) (fun _ outcome _ _ => ?_)
    fun _ _ _ _ => True.intro
  obtain ⟨failure | result, _⟩ := outcome <;> exact True.intro

end Homelab.SystemOperations
