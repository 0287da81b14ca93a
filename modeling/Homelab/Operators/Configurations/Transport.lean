import Homelab.Api.Fixed
import Homelab.Operators.Configurations.Bodies
import Homelab.Operators.Configurations.Rehearsal
import Homelab.Operators.Configurations.Resolution

namespace Homelab.Configurations

open Json (Object)
open Interaction (Op Program)
open Provisioning.Rehearsal (executor)

/-! # The transport of the selected hosts -/

/-- What `text` sets an option to. -/
def settingOf (option text : String) : Option String :=
  let assigned := option.toList ++ ['=']
  if assigned.isPrefixOf text.toList then some (String.ofList (text.toList.drop assigned.length)) else none

/-- The value that SSH gives an option: the first `-o` that sets it counts. -/
def sshOption (option : String) : List String → Option String
  | [] => none
  | "-o" :: text :: rest => (settingOf option text).or (sshOption option rest)
  | _ :: rest => sshOption option rest

/-- The group lists the host with these variables. -/
def Lists (document : Object) (group host : String) (given : Json) : Prop :=
  ∃ fields hosts : Object, (group, Json.obj fields) ∈ document ∧ fields.get? "hosts" = some (.obj hosts) ∧
    (host, given) ∈ hosts

/-- The recorded management address of a Server is this literal IP address. -/
def ManagedAt (server : Resource) (text : String) : Prop :=
  managementAddress server.status = .ok (some text) ∧ ∃ normal, address text = .ok normal

def Manageable (server : Resource) : Prop := ∃ text, ManagedAt server text

/-- The variables reach the Server over a verified and privileged connection. -/
structure Protected (server : Resource) (vars : Object) : Prop where
  host : ∃ text, ManagedAt server text ∧ vars.get? "ansible_host" = some (.str text)
  connection : vars.get? "ansible_connection" = some (.str "ssh")
  become : vars.get? "ansible_become" = some (.bool true)
  arguments : ∃ arguments hostKeyAlias, vars.get? "ansible_ssh_args" = some (.str (shlexJoin arguments)) ∧
    sshOption "StrictHostKeyChecking" arguments = some "yes" ∧ hostAlias server.uid = .ok hostKeyAlias ∧
    sshOption "HostKeyAlias" arguments = some hostKeyAlias
  commonArguments : vars.get? "ansible_ssh_common_args" = some (.str "")
  extraArguments : vars.get? "ansible_ssh_extra_args" = some (.str "")

/-- What the written inventory says about the connections. -/
structure Transport (document : Object) (servers : List Resource) : Prop where
  hosts : ∀ server ∈ servers, ∃ vars, Lists document "all" server.name (.obj vars) ∧
    (∀ group given, Lists document group server.name given → given = .obj vars) ∧ Protected server vars
  runner : ∃ fields vars : Object, document.get? "all" = some (.obj fields) ∧
    fields.get? "vars" = some (.obj vars) ∧ vars.get? "ansible_connection" = some (.str "local") ∧
    vars.get? "ansible_become" = some (.bool false)

/-! ## The transport variables of one host -/

theorem sshArgs_options {env : Environment} {uid known checking : String} {arguments : List String}
    (made : sshArgs env uid known checking = .ok arguments) :
    ∃ hostKeyAlias, hostAlias uid = .ok hostKeyAlias ∧
      sshOption "StrictHostKeyChecking" arguments = some checking ∧
      sshOption "HostKeyAlias" arguments = some hostKeyAlias := by
  obtain ⟨hostKeyAlias, isAlias, made⟩ := bind_ok made
  obtain ⟨certificate, _, made⟩ := bind_ok made
  obtain ⟨identity, _, made⟩ := bind_ok made
  cases made
  refine ⟨hostKeyAlias, isAlias, ?_, ?_⟩
  · simp [sshOption, settingOf, List.isPrefixOf]
  · simp [sshOption, settingOf, List.isPrefixOf]

variable {env : Environment} {known : String}

/-- The variables that a transport is written over do not matter. -/
theorem transport_protected {server : Resource} {updates : Object} (made : transport env known server = .ok updates)
    (prior : Object) (manageable : Manageable server) : Protected server (prior.update updates) := by
  obtain ⟨endpoint, isEndpoint, made⟩ := bind_ok made
  obtain ⟨arguments, isArguments, made⟩ := bind_ok made
  obtain ⟨provisioning, _, made⟩ := bind_ok made
  obtain ⟨runReference, _, made⟩ := bind_ok made
  obtain ⟨hostKeyAlias, isAlias, strict, aliased⟩ := sshArgs_options isArguments
  obtain ⟨text, recorded, literal⟩ := manageable
  have same := isEndpoint.symm.trans recorded
  cases same
  cases made
  have reads (key : String) := @Object.get?_update prior [("ansible_host", .str text),
    ("ansible_user", .str "ansible"), ("ansible_connection", .str "ssh"), ("ansible_become", .bool true),
    ("ansible_ssh_args", .str (shlexJoin arguments)), ("ansible_ssh_common_args", .str ""),
    ("ansible_ssh_extra_args", .str ""), ("configuration_server_uid", .str server.uid),
    ("configuration_run_uid", value runReference "uid")] (by simp) key
  constructor
  · exact ⟨text, ⟨recorded, literal⟩, reads _⟩
  · exact reads _
  · exact reads _
  · exact ⟨arguments, hostKeyAlias, reads _, strict, isAlias, aliased⟩
  · exact reads _
  · exact reads _

/-! ## The variables of all hosts -/

theorem updateHost_self (hosts : Object) (name : String) (updates : Object) :
    value (updateHost hosts name updates) name = .obj ((value hosts name).fields.update updates) :=
  value_set_self _ _ _

theorem updateHost_other {hosts : Object} {name other : String} (different : name ≠ other) (updates : Object) :
    value (updateHost hosts name updates) other = value hosts other :=
  value_set_ne different _

theorem overrideTransport_other {servers : List Resource} {hosts after : Object} {name : String}
    (made : overrideTransport env known servers hosts = .ok after) (outside : name ∉ servers.map Resource.name) :
    value after name = value hosts name := by
  induction servers generalizing hosts with
  | nil =>
      cases made
      rfl
  | cons server rest ih =>
      obtain ⟨_, _, made⟩ := bind_ok made
      obtain ⟨updates, _, made⟩ := bind_ok made
      simp only [List.map_cons, List.mem_cons, not_or] at outside
      rw [ih made outside.2, updateHost_other (Ne.symm outside.1)]

/-- Every selected Server is given its own transport, over the variables it had. -/
theorem overrideTransport_ok {servers : List Resource} {hosts after : Object}
    (made : overrideTransport env known servers hosts = .ok after) (distinct : (servers.map Resource.name).Nodup)
    {server : Resource} (selected : server ∈ servers) :
    ∃ updates, transport env known server = .ok updates ∧
      value after server.name = .obj ((value hosts server.name).fields.update updates) := by
  induction servers generalizing hosts with
  | nil => cases selected
  | cons first rest ih =>
      obtain ⟨_, _, made⟩ := bind_ok made
      obtain ⟨updates, isTransport, made⟩ := bind_ok made
      obtain ⟨fresh, distinct⟩ := List.nodup_cons.mp distinct
      cases List.mem_cons.mp selected with
      | inl same =>
          subst same
          have given := overrideTransport_other made fresh
          rw [updateHost_self] at given
          exact ⟨updates, isTransport, given⟩
      | inr later =>
          obtain ⟨own, isOwn, given⟩ := ih made distinct later
          have different : first.name ≠ server.name := by
            intro same
            exact fresh (same ▸ List.mem_map_of_mem later)
          rw [updateHost_other different] at given
          exact ⟨own, isOwn, given⟩

/-! ## The groups -/

/-- A group without members has no `hosts`. -/
def Group.Normal (group : Group) : Prop := group.members = none → group.fields.get? "hosts" = none

theorem normalizeGroup_normal {hosts : Object} {entry : String × Json} {group : Group}
    (normalized : normalizeGroup hosts entry = .ok group) : group.Normal := by
  obtain ⟨fields, _, normalized⟩ := bind_ok normalized
  split at normalized
  · obtain ⟨listed, _, normalized⟩ := bind_ok normalized
    obtain ⟨members, _, normalized⟩ := bind_ok normalized
    cases normalized
    intro absent
    cases absent
  · rename_i absent
    cases normalized
    intro _
    simpa using absent

theorem allGroup_ok {hosts fields : Object} {group : Group} (made : allGroup hosts fields = .ok group) :
    ∃ vars : Object, group.name = "all" ∧ group.members = some (hosts.map Prod.fst) ∧
      group.fields.get? "vars" = some (.obj vars) ∧ vars.get? "ansible_connection" = some (.str "local") ∧
      vars.get? "ansible_become" = some (.bool false) := by
  obtain ⟨defaulted, isDefaulted, made⟩ := bind_ok made
  obtain ⟨defaults, _, isDefaulted⟩ := bind_ok isDefaulted
  cases isDefaulted
  cases made
  refine ⟨_, rfl, rfl, Object.get?_set_self _ _, ?_, Object.get?_set_self _ _⟩
  rw [Object.get?_set_ne _ _ (by decide), Object.get?_set_self]

/-- One group is named `all`, and is found under that name; the others stay normal. -/
theorem completeAll_ok {hosts : Object} {groups completed : List Group}
    (made : completeAll hosts groups = .ok completed) (normal : ∀ group ∈ groups, group.Normal) (written : Object) :
    (∀ group ∈ completed, group.Normal) ∧ ∃ prior all, allGroup hosts prior = .ok all ∧ all ∈ completed ∧
      (render written completed).get? "all" = some (all.render written).2 := by
  induction groups generalizing completed with
  | nil =>
      obtain ⟨all, isAll, made⟩ := bind_ok made
      cases made
      obtain ⟨_, named, members, _⟩ := allGroup_ok isAll
      refine ⟨?_, [], all, isAll, List.mem_singleton.mpr rfl, ?_⟩
      · intro group member absent
        rw [List.mem_singleton.mp member, members] at absent
        cases absent
      · rw [render, List.map_singleton, Group.render, named, Object.get?_cons, if_pos rfl]
  | cons group rest ih =>
      obtain ⟨first, others⟩ := List.forall_mem_cons.mp normal
      unfold completeAll at made
      split at made
      · obtain ⟨all, isAll, made⟩ := bind_ok made
        cases made
        obtain ⟨_, named, members, _⟩ := allGroup_ok isAll
        refine ⟨List.forall_mem_cons.mpr ⟨?_, others⟩, _, all, isAll, List.mem_cons_self, ?_⟩
        · intro absent
          rw [members] at absent
          cases absent
        · rw [render, List.map_cons, Group.render, named, Object.get?_cons, if_pos rfl]
      · rename_i different
        obtain ⟨remaining, made', made⟩ := bind_ok made
        cases made
        obtain ⟨normal, prior, all, isAll, listed, found⟩ := ih made' others
        refine ⟨List.forall_mem_cons.mpr ⟨first, normal⟩, prior, all, isAll, List.mem_cons_of_mem _ listed, ?_⟩
        rw [render, List.map_cons, Group.render, Object.get?_cons, if_neg different]
        exact found

/-- Every occurrence of a host stands for the same variables. -/
theorem lists_render {written : Object} {groups : List Group} (normal : ∀ group ∈ groups, group.Normal)
    {group host : String} {given : Json} (listed : Lists (render written groups) group host given) :
    given = value written host := by
  obtain ⟨fields, hosts, rendered, isHosts, occurs⟩ := listed
  obtain ⟨source, member, same⟩ := List.mem_map.mp rendered
  unfold Group.render at same
  cases known : source.members with
  | none =>
      rw [known] at same
      cases same
      rw [normal source member known] at isHosts
      cases isHosts
  | some members =>
      rw [known] at same
      cases same
      rw [Object.get?_set_self] at isHosts
      cases isHosts
      obtain ⟨name, _, same⟩ := List.mem_map.mp occurs
      cases same
      rfl

/-! ## The written inventory -/

theorem prepare_gets (env : Environment) (inventory : Object) :
    (RunnerTrust.prepare env (Api.get .server) inventory).Confined fun request : Request =>
      ∃ kind name, request = .get kind name := by
  refine .check fun hosts _ => .mapM fun host _ => ?_
  exact .bind (.perform ⟨.server, host.1, rfl⟩) fun server => .lift _

theorem inventoryPath_ne_valuesPath (directory : String) : inventoryPath directory ≠ valuesPath directory := by
  intro same
  have tails := congrArg String.toList same
  simp [inventoryPath, valuesPath] at tails

theorem prepareExecution_inventory {resolved : Plan} {directory : String} {events : Trace} {document : Json}
    (writing : (prepareExecution env resolved directory).Pending events
      (.host (.writeJson (inventoryPath directory) document))) :
    ∃ normalized groups trusted hosts,
      resolved.inventory.mapM (normalizeGroup resolved.hosts) = .ok normalized ∧
      completeAll resolved.hosts normalized = .ok groups ∧
      overrideTransport env (knownHostsPath directory) resolved.servers (applyTrust resolved.hosts trusted) =
        .ok hosts ∧
      document = .obj (render hosts groups) := by
  obtain ⟨normalized, isNormalized, writing⟩ := writing.check
  obtain ⟨groups, isCompleted, writing⟩ := writing.check
  cases writing.bind with
  | inl trusting =>
      obtain ⟨_, _, impossible⟩ := (prepare_gets env _).pending trusting
      cases impossible
  | inr ended =>
      obtain ⟨_, _, trusted, _, _, writing⟩ := ended
      cases writing.bind with
      | inl known => cases (Op.pending_perform.mp known).2
      | inr ended =>
          obtain ⟨_, _, _, _, _, writing⟩ := ended
          obtain ⟨hosts, isOverridden, writing⟩ := writing.check
          refine ⟨normalized, groups, trusted, hosts, isNormalized, isCompleted, isOverridden, ?_⟩
          cases writing.bind with
          | inl inventory =>
              cases (Op.pending_perform.mp inventory).2
              rfl
          | inr ended =>
              obtain ⟨_, _, _, _, _, writing⟩ := ended
              have same := (Op.pending_perform.mp writing).2
              injection same with same
              injection same with same
              exact (inventoryPath_ne_valuesPath directory same).elim

/-- The written inventory protects the connection to every selected Server if
and only if each of them has recorded a literal management address. -/
theorem transport_protected_iff {env : Environment} {frames : Nat} {configuration : Resource} {stack : List String}
    {planned written : Trace} {resolved : Plan} {directory : String} {document : Json}
    (planning : (plan env frames configuration stack).Ran planned resolved)
    (honest : ∀ event ∈ planned, Api.Honest event.request event.reply)
    (writing : (prepareExecution env resolved directory).Pending written
      (.host (.writeJson (inventoryPath directory) document))) :
    (∃ inventory, document = .obj inventory ∧ Transport inventory resolved.servers) ↔
      ∀ server ∈ resolved.servers, Manageable server := by
  obtain ⟨_, parts, _, resolves, same⟩ := plan_reached planning.reached
  obtain ⟨distinct, known⟩ := resolveTargets_servers resolves.targets honest
  obtain ⟨normalized, groups, trusted, hosts, isNormalized, isCompleted, isOverridden, isDocument⟩ :=
    prepareExecution_inventory writing
  subst same isDocument
  constructor
  · intro ⟨inventory, same, protects⟩ server selected
    obtain ⟨vars, _, _, isProtected⟩ := protects.hosts server selected
    obtain ⟨text, managed, _⟩ := isProtected.host
    exact ⟨text, managed⟩
  · intro manageable
    have normal : ∀ group ∈ normalized, group.Normal := by
      intro group member
      obtain ⟨entry, _, made⟩ := mem_right (mapM_ok.mp isNormalized) member
      exact normalizeGroup_normal made
    obtain ⟨normal, prior, all, isAll, listed, found⟩ := completeAll_ok isCompleted normal hosts
    obtain ⟨runnerVars, named, members, isVars, isLocal, unprivileged⟩ := allGroup_ok isAll
    have rendered : all.render hosts =
        ("all", .obj (all.fields.set "hosts" (occurrences hosts (parts.targets.hosts.map Prod.fst)))) := by
      rw [Group.render, members, named]
      rfl
    refine ⟨_, rfl, ?_, ?_⟩
    · intro server selected
      obtain ⟨updates, isTransport, given⟩ := overrideTransport_ok isOverridden distinct selected
      generalize (value (applyTrust _ trusted) server.name).fields = before at given
      refine ⟨before.update updates, ?_, ?_, transport_protected isTransport before (manageable server selected)⟩
      · refine ⟨_, _, rendered ▸ List.mem_map_of_mem (f := Group.render hosts) listed, Object.get?_set_self _ _, ?_⟩
        rw [← given]
        exact List.mem_map_of_mem (known server selected)
      · intro group other lists
        rw [lists_render normal lists, given]
    · refine ⟨_, runnerVars, found.trans (congrArg (fun entry => some entry.2) rendered), ?_, isLocal, unprivileged⟩
      rw [Object.get?_set_ne _ _ (by decide), isVars]

namespace Rehearsal

/-- The deployment with this state of its Server. -/
def addressed (status : Object) : Store :=
  Provisioning.Rehearsal.stored
    [{ server with status }, installation, machine, group, repository, configuration []]

def answer (status : Object) : (request : Request) → interface.Reply request :=
  Api.fixed (addressed status) fun call => .ok (host .null call)

def writesInventory : Request → Bool
  | .host (.writeJson path _) => path = inventoryPath "/tmp/configuration"
  | _ => false

/-- What is checked of a plan whose inventory gets written. -/
def writes (status : Object) (check : Plan → Bool) : Bool :=
  match Op.eval (answer status) (plan (executor "group") 1 (configuration []) []) with
  | .ok resolved =>
      (Program.pause (answer status) writesInventory
        (prepareExecution (executor "group") resolved "/tmp/configuration")).isSome && check resolved
  | .error _ => false

theorem writes_inventory {status : Object} {check : Plan → Bool} (facts : writes status check = true) :
    ∃ (planned written : Trace) (resolved : Plan) (document : Json),
      (plan (executor "group") 1 (configuration []) []).Ran planned resolved ∧
      (∀ event ∈ planned, Api.Honest event.request event.reply) ∧
      (prepareExecution (executor "group") resolved "/tmp/configuration").Pending written
        (.host (.writeJson (inventoryPath "/tmp/configuration") document)) ∧ check resolved = true := by
  unfold writes at facts
  split at facts
  · rename_i resolved evaluated
    obtain ⟨paused, checked⟩ := (Bool.and_eq_true_iff).mp facts
    obtain ⟨⟨written, request⟩, paused⟩ := Option.isSome_iff_exists.mp paused
    obtain ⟨pending, stopped, _⟩ := Program.pending_pause paused
    unfold writesInventory at stopped
    split at stopped
    · rename_i path document
      obtain rfl := of_decide_eq_true stopped
      exact ⟨_, written, resolved, document, Op.ran_eval _ evaluated, Api.fixed_honest, pending, checked⟩
    · cases stopped
  · cases facts

end Rehearsal

/-- The rehearsed Server is reached over a protected connection. -/
theorem rehearsed_transport_protected :
    ∃ (resolved : Plan) (inventory : Object), resolved.servers.length = 1 ∧ Transport inventory resolved.servers := by
  have facts : Rehearsal.writes Rehearsal.server.status (fun resolved => decide (resolved.servers.length = 1) &&
      resolved.servers.all fun server => decide (managementAddress server.status = .ok (some Rehearsal.managed))) =
        true := by
    decide +kernel
  obtain ⟨planned, written, resolved, document, planning, honest, writing, checked⟩ :=
    Rehearsal.writes_inventory facts
  obtain ⟨single, managed⟩ := (Bool.and_eq_true_iff).mp checked
  obtain ⟨inventory, _, protects⟩ := (transport_protected_iff planning honest writing).mpr fun server selected =>
    ⟨Rehearsal.managed, of_decide_eq_true (List.all_eq_true.mp managed server selected), Rehearsal.managed, by
      decide +kernel⟩
  exact ⟨resolved, inventory, of_decide_eq_true single, protects⟩

/-- Nothing protects the connection to a Server without a management address. -/
theorem unaddressed_server_unprotected :
    ∃ (planned written : Trace) (resolved : Plan) (document : Json),
      (plan (executor "group") 1 (Rehearsal.configuration []) []).Ran planned resolved ∧
      (∀ event ∈ planned, Api.Honest event.request event.reply) ∧
      (prepareExecution (executor "group") resolved "/tmp/configuration").Pending written
        (.host (.writeJson (inventoryPath "/tmp/configuration") document)) ∧
      ¬∃ inventory, document = .obj inventory ∧ Transport inventory resolved.servers := by
  have facts : Rehearsal.writes (Rehearsal.server.status.set "networking" (.obj [])) (fun resolved =>
      resolved.servers.any fun server => decide (managementAddress server.status = .ok none)) = true := by
    decide +kernel
  obtain ⟨planned, written, resolved, document, planning, honest, writing, checked⟩ :=
    Rehearsal.writes_inventory facts
  refine ⟨planned, written, resolved, document, planning, honest, writing, ?_⟩
  intro ⟨inventory, _, protects⟩
  obtain ⟨server, selected, unaddressed⟩ := List.any_eq_true.mp checked
  obtain ⟨_, _, _, isProtected⟩ := protects.hosts server selected
  obtain ⟨text, ⟨recorded, _⟩, _⟩ := isProtected.host
  cases (of_decide_eq_true unaddressed).symm.trans recorded

end Homelab.Configurations
