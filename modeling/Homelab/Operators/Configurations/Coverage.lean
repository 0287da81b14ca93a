import Homelab.Operators.Configurations.Freshness
import Homelab.Operators.Configurations.Transport

namespace Json

/-- Equal documents have equal members, with the same default. -/
theorem Same.getD {left right : Object} (same : Same (.obj left) (.obj right)) (key : String) (default : Json) :
    Same ((left.get? key).getD default) ((right.get? key).getD default) := by
  have lookups := same.get? key
  cases first : left.get? key with
  | none =>
      rw [first] at lookups
      rw [Option.map_eq_none_iff.mp lookups.symm]
      exact .refl default
  | some found =>
      rw [first] at lookups
      obtain ⟨other, second, canonical⟩ := Option.map_eq_some_iff.mp lookups.symm
      rw [second]
      exact canonical.symm

/-- Equal documents are mappings with equal members, or no mappings. -/
theorem Same.fields {left right : Json} (same : Same left right) : Same (.obj left.fields) (.obj right.fields) := by
  by_cases mapping : ∃ fields, right = .obj fields
  · obtain ⟨fields, isRight⟩ := mapping
    subst isRight
    obtain ⟨others, isLeft⟩ := same.obj
    subst isLeft
    exact same
  · have empty (document : Json) (other : ¬∃ fields, document = .obj fields) : document.fields = [] := by
      cases document with
      | obj fields => exact absurd ⟨fields, rfl⟩ other
      | _ => rfl
    rw [empty right mapping, empty left fun ⟨fields, isLeft⟩ => mapping (Same.obj (isLeft ▸ same.symm))]
    exact .refl _

end Json

namespace Homelab.Configurations

open Json (Object Same)
open Interaction (Op Program)

/-! # What the input revision covers -/

/-- The variables that an execution sets for the connection to a host. -/
def transportVariables : List String :=
  ["ansible_host", "ansible_user", "ansible_connection", "ansible_become", "ansible_ssh_args",
    "ansible_ssh_common_args", "ansible_ssh_extra_args"]

/-- The two files that the command is given. -/
structure Context where
  values : Object
  inventory : Object

/-- A complete preparation has written these files. -/
def Prepares (env : Environment) (resolved : Plan) (directory : String) (context : Context) : Prop :=
  ∃ events, (prepareExecution env resolved directory).Ran events () ∧
    (⟨.host (.writeJson (valuesPath directory) (.obj context.values)), .ok ()⟩ : Event) ∈ events ∧
    (⟨.host (.writeJson (inventoryPath directory) (.obj context.inventory)), .ok ()⟩ : Event) ∈ events

namespace Context

/-- A member of `configuration_target`. -/
def target (context : Context) (key : String) : Json :=
  value (value context.values "configuration_target").fields key

/-- A mapping in the metadata of `configuration_target`; an absent one is empty. -/
def targetEntries (context : Context) (key : String) : Json :=
  ((context.target "metadata").fields.get? key).getD (.obj [])

end Context

/-- The variables of a host, in whichever group the inventory lists it. -/
def HasVariables (inventory : Object) (name : String) (vars : Object) : Prop :=
  Lists inventory "all" name (.obj vars) ∧ ∀ group given, Lists inventory group name given → given = .obj vars

/-- What two commands are told is the same. -/
structure Agrees (told other : Context) (servers : List Resource) : Prop where
  values : Same (value told.values "configuration_values") (value other.values "configuration_values")
  targetUid : Same (value (told.target "metadata").fields "uid") (value (other.target "metadata").fields "uid")
  targetLabels : Same (told.targetEntries "labels") (other.targetEntries "labels")
  targetAnnotations : Same (told.targetEntries "annotations") (other.targetEntries "annotations")
  targetSpec : Same (told.target "spec") (other.target "spec")
  nodes : Same (value told.values "configuration_nodes") (value other.values "configuration_nodes")
  hosts : ∀ server ∈ servers, ∃ vars vars', HasVariables told.inventory server.name vars ∧
    HasVariables other.inventory server.name vars' ∧
    ∀ key ∉ transportVariables, Same (value vars key) (value vars' key)

/-! ## The written files -/

section Written

variable {env : Environment} {resolved : Plan} {directory known : String} {context : Context}

/-- What a preparation writes as JSON: the inventory, and then the values. -/
theorem prepareExecution_writes {events : Trace} (ran : (prepareExecution env resolved directory).Ran events ()) :
    ∃ normalized groups trusted hosts,
      resolved.inventory.mapM (normalizeGroup resolved.hosts) = .ok normalized ∧
      completeAll resolved.hosts normalized = .ok groups ∧
      overrideTransport env (knownHostsPath directory) resolved.servers (applyTrust resolved.hosts trusted) =
        .ok hosts ∧
      ∀ path document, (⟨.host (.writeJson path document), .ok ()⟩ : Event) ∈ events ↔
        path = inventoryPath directory ∧ document = .obj (render hosts groups) ∨
          path = valuesPath directory ∧ document = .obj (contextValues resolved directory) := by
  obtain ⟨normalized, isNormalized, ran⟩ := Op.ran_check.mp ran
  obtain ⟨groups, isCompleted, ran⟩ := Op.ran_check.mp ran
  obtain ⟨gets, later, trusted, split, prepared, ran⟩ := Op.ran_bind.mp ran
  obtain ⟨known, others, _, split', isKnown, ran⟩ := Op.ran_bind.mp ran
  obtain ⟨hosts, isOverridden, ran⟩ := Op.ran_check.mp ran
  obtain ⟨inventory, values, _, split'', isInventory, isValues⟩ := Op.ran_bind.mp ran
  refine ⟨normalized, groups, trusted, hosts, isNormalized, isCompleted, isOverridden, ?_⟩
  rw [Op.ran_perform.mp isKnown] at split'
  rw [Op.ran_perform.mp isInventory, Op.ran_perform.mp isValues] at split''
  rw [split', split''] at split
  subst split
  intro path document
  constructor
  · intro written
    have allowed : ∀ event ∈ gets, ∃ kind name, event.request = .get kind name := by
      have kept := (@Interaction.Op.Confined.meets _ _ (Interaction.Contract.only fun _ => True) [] _ _ (prepare_gets env _)
        fun _ _ _ _ => True.intro).ran prepared fun _ _ => True.intro
      obtain ⟨more, same, allowed⟩ := kept
      rw [List.nil_append, List.nil_append] at same
      exact same ▸ allowed
    rcases List.mem_append.mp written with asked | written
    · obtain ⟨_, _, impossible⟩ := allowed _ asked
      cases impossible
    · simp only [List.mem_cons, List.mem_append, List.not_mem_nil, or_false] at written
      rcases written with text | first | last
      · cases text
      · cases first
        exact .inl ⟨rfl, rfl⟩
      · cases last
        exact .inr ⟨rfl, rfl⟩
  · intro written
    apply List.mem_append.mpr
    rcases written with ⟨isPath, isDocument⟩ | ⟨isPath, isDocument⟩
    · subst isPath isDocument
      exact .inr (by simp)
    · subst isPath isDocument
      exact .inr (by simp)

theorem prepares_files (prepared : Prepares env resolved directory context) :
    context.values = contextValues resolved directory ∧ ∃ normalized groups trusted hosts,
      resolved.inventory.mapM (normalizeGroup resolved.hosts) = .ok normalized ∧
      completeAll resolved.hosts normalized = .ok groups ∧
      overrideTransport env (knownHostsPath directory) resolved.servers (applyTrust resolved.hosts trusted) =
        .ok hosts ∧
      context.inventory = render hosts groups := by
  obtain ⟨events, ran, valuesWritten, inventoryWritten⟩ := prepared
  obtain ⟨normalized, groups, trusted, hosts, isNormalized, isCompleted, isOverridden, only⟩ :=
    prepareExecution_writes ran
  refine ⟨?_, normalized, groups, trusted, hosts, isNormalized, isCompleted, isOverridden, ?_⟩
  · cases (only _ _).mp valuesWritten with
    | inl inventory => exact absurd inventory.1.symm (inventoryPath_ne_valuesPath directory)
    | inr values => exact Json.obj.inj values.2
  · cases (only _ _).mp inventoryWritten with
    | inl inventory => exact Json.obj.inj inventory.2
    | inr values => exact absurd values.1 (inventoryPath_ne_valuesPath directory)

/-- A preparation that ends has written its files. -/
theorem prepares_of_ran {events : Trace} (ran : (prepareExecution env resolved directory).Ran events ()) :
    ∃ context, Prepares env resolved directory context := by
  obtain ⟨_, groups, _, hosts, _, _, _, only⟩ := prepareExecution_writes ran
  exact ⟨⟨contextValues resolved directory, render hosts groups⟩, events, ran, (only _ _).mpr (.inr ⟨rfl, rfl⟩),
    (only _ _).mpr (.inl ⟨rfl, rfl⟩)⟩

/-- Trust preparation sets one variable of a host. -/
theorem applyTrust_other (hosts : Object) (trusted : List RunnerTrust.HostTrust) (name : String) {key : String}
    (other : key ≠ "ansible_ssh_common_args") :
    value (value (applyTrust hosts trusted) name).fields key = value (value hosts name).fields key := by
  unfold applyTrust
  induction trusted generalizing hosts with
  | nil => rfl
  | cons trust rest ih =>
      rw [List.foldl_cons, ih]
      by_cases same : trust.name = name
      · subst same
        rw [updateHost_self]
        exact value_set_ne (Ne.symm other) _
      · rw [updateHost_other same]

/-- What a host is given: two variables from its Server, and otherwise, but for
the connection, the variables that the plan selected. -/
theorem overrideTransport_vars {after : Object} {trusted : List RunnerTrust.HostTrust}
    (made : overrideTransport env known resolved.servers (applyTrust resolved.hosts trusted) = .ok after)
    (distinct : (resolved.servers.map Resource.name).Nodup) {server : Resource} (selected : server ∈ resolved.servers) :
    ∃ vars provisioning runReference, value after server.name = .obj vars ∧
      mapping server.status "provisioning" = .ok provisioning ∧
      value provisioning "lastSuccessfulRunRef" = .obj runReference ∧
      value vars "configuration_server_uid" = .str server.uid ∧
      value vars "configuration_run_uid" = value runReference "uid" ∧
      ∀ key ∉ transportVariables, key ≠ "configuration_server_uid" → key ≠ "configuration_run_uid" →
        value vars key = value (value resolved.hosts server.name).fields key := by
  obtain ⟨updates, isTransport, given⟩ := overrideTransport_ok made distinct selected
  obtain ⟨endpoint, _, isTransport⟩ := bind_ok isTransport
  obtain ⟨arguments, _, isTransport⟩ := bind_ok isTransport
  obtain ⟨provisioning, isProvisioning, isTransport⟩ := bind_ok isTransport
  obtain ⟨runReference, isReference, isTransport⟩ := bind_ok isTransport
  have recorded : value provisioning "lastSuccessfulRunRef" = .obj runReference := by
    obtain ⟨fields, named, isReference⟩ := bind_ok isReference
    obtain ⟨_, _, isReference⟩ := bind_ok isReference
    obtain ⟨_, isFields, named⟩ := bind_ok named
    obtain ⟨_, _, named⟩ := bind_ok named
    cases named
    cases isReference
    exact jsonObject_ok isFields
  cases isTransport
  have reads (key : String) := @Object.get?_update (value (applyTrust resolved.hosts trusted) server.name).fields
    [("ansible_host", (endpoint.map Json.str).getD .null), ("ansible_user", .str "ansible"),
      ("ansible_connection", .str "ssh"), ("ansible_become", .bool true),
      ("ansible_ssh_args", .str (shlexJoin arguments)), ("ansible_ssh_common_args", .str ""),
      ("ansible_ssh_extra_args", .str ""), ("configuration_server_uid", .str server.uid),
      ("configuration_run_uid", value runReference "uid")] (by simp) key
  refine ⟨_, provisioning, runReference, given, isProvisioning, recorded, ?_, ?_, ?_⟩
  · exact value_some (reads _)
  · exact value_some (reads _)
  · intro key inherited notServer notRun
    have other : key ≠ "ansible_ssh_common_args" := by
      intro same
      exact inherited (by rw [same]; simp [transportVariables])
    rw [← applyTrust_other resolved.hosts trusted server.name other, value, reads]
    simp only [transportVariables, List.mem_cons, List.not_mem_nil, or_false, not_or] at inherited
    obtain ⟨a, b, c, d, e, f, g⟩ := inherited
    simp [Ne.symm a, Ne.symm b, Ne.symm c, Ne.symm d, Ne.symm e, Ne.symm f, Ne.symm g, Ne.symm notServer, Ne.symm notRun,
      value]

end Written

/-! ## What one revision fixes -/

/-- Two lifetimes of a Server with the inputs that a plan takes from it. -/
structure SameMember (server other : Resource) : Prop where
  name : server.name = other.name
  uid : server.uid = other.uid
  labels : Same (labels server) (labels other)
  annotations : Same (annotations server) (annotations other)
  installation : ∀ provisioning provisioning', mapping server.status "provisioning" = .ok provisioning →
    mapping other.status "provisioning" = .ok provisioning' →
    Same (value provisioning "lastSuccessfulRunRef") (value provisioning' "lastSuccessfulRunRef")

/-- What the recorded inputs have in common when they are the same. -/
structure SameParts (parts parts' : Parts) (configuration configuration' : Resource) : Prop where
  spec : Same (.obj configuration.spec) (.obj configuration'.spec)
  targetKind : parts.targets.target.kind = parts'.targets.target.kind
  targetName : parts.targets.target.name = parts'.targets.target.name
  targetUid : parts.targets.target.uid = parts'.targets.target.uid
  targetSpec : Same (.obj parts.targets.target.spec) (.obj parts'.targets.target.spec)
  hosts : Same (.obj parts.targets.hosts) (.obj parts'.targets.hosts)
  servers : List.Forall₂ SameMember parts.targets.servers parts'.targets.servers

theorem kind_text_inj {kind other : Kind} (same : kind.text = other.text) : kind = other := by
  have found (kind : Kind) : Kind.ofText? kind.text = some kind := by cases kind <;> rfl
  have both := found other
  rw [← same, found kind] at both
  exact Option.some.inj both

section Inputs

variable {env : Environment} {resolve resolve' : Resource → List String → Task Plan} {stack stack' : List String}
  {events events' : Trace} {configuration configuration' : Resource} {parts parts' : Parts}

theorem observedReference_same {resource other : Resource}
    (same : Same (observedReference resource) (observedReference other)) :
    resource.kind = other.kind ∧ resource.name = other.name := by
  constructor
  · have kinds : Same (.str resource.kind.text) (.str other.kind.text) := same.getD "kind" .null
    exact kind_text_inj (Json.str.inj (Json.same_str.mp kinds))
  · have names : Same (.str resource.name) (.str other.name) := same.getD "name" .null
    exact Json.str.inj (Json.same_str.mp names)

theorem memberInputs_ok {server : Resource} {fields : Object} (made : memberInputs server = .ok fields) :
    ∃ provisioning, mapping server.status "provisioning" = .ok provisioning ∧
      value fields "uid" = .str server.uid ∧ value fields "labels" = labels server ∧
      value fields "annotations" = annotations server ∧
      value fields "installationRef" = value provisioning "lastSuccessfulRunRef" := by
  obtain ⟨provisioning, isProvisioning, made⟩ := bind_ok made
  obtain ⟨hostSSH, _, made⟩ := bind_ok made
  obtain ⟨networking, _, made⟩ := bind_ok made
  cases made
  exact ⟨provisioning, isProvisioning, rfl, rfl, rfl, rfl⟩

theorem memberInputs_same {server other : Resource} {fields fields' : Object} (named : server.name = other.name)
    (made : memberInputs server = .ok fields) (made' : memberInputs other = .ok fields')
    (same : Same (.obj fields) (.obj fields')) : SameMember server other := by
  obtain ⟨provisioning, isProvisioning, uid, areLabels, areAnnotations, installation⟩ := memberInputs_ok made
  obtain ⟨provisioning', isProvisioning', uid', areLabels', areAnnotations', installation'⟩ := memberInputs_ok made'
  have member (key : String) : Same (value fields key) (value fields' key) := same.getD key .null
  have uids := member "uid"
  rw [uid, uid'] at uids
  constructor
  · exact named
  · exact Json.str.inj (Json.same_str.mp uids)
  · rw [← areLabels, ← areLabels']
    exact member "labels"
  · rw [← areAnnotations, ← areAnnotations']
    exact member "annotations"
  · intro found found' isFound isFound'
    cases isProvisioning.symm.trans isFound
    cases isProvisioning'.symm.trans isFound'
    rw [← installation, ← installation']
    exact member "installationRef"

theorem members_same {servers others : List Resource} {members members' : List Object}
    (names : List.Forall₂ (fun server other => server.name = other.name) servers others)
    (made : List.Forall₂ (fun server fields => memberInputs server = .ok fields) servers members)
    (made' : List.Forall₂ (fun server fields => memberInputs server = .ok fields) others members')
    (same : List.Forall₂ (fun fields fields' => Same (.obj fields) (.obj fields')) members members') :
    List.Forall₂ SameMember servers others := by
  induction names generalizing members members' with
  | nil => exact .nil
  | cons named _ ih =>
      cases made with
      | cons first rest =>
          cases made' with
          | cons first' rest' =>
              cases same with
              | cons both others =>
                  exact .cons (memberInputs_same named first first' both) (ih rest rest' others)

/-- The inputs name the target and the Servers, and record what is taken from them. -/
theorem sameParts (resolves : Composed env resolve configuration stack events parts)
    (resolves' : Composed env resolve' configuration' stack' events' parts')
    (same : Same (.obj (parts.inputs configuration)) (.obj (parts'.inputs configuration'))) :
    SameParts parts parts' configuration configuration' := by
  have references : Same (.arr parts.resolvedReferences) (.arr parts'.resolvedReferences) :=
    same.getD "resolvedReferences" .null
  have members : Same (.arr (parts.members.map .obj)) (.arr (parts'.members.map .obj)) := same.getD "members" .null
  have uids : Same (.str parts.targets.target.uid) (.str parts'.targets.target.uid) := same.getD "targetUID" .null
  rw [Json.same_arr_iff] at references members
  rw [List.forall₂_map_left_iff, List.forall₂_map_right_iff] at members
  have made := mapM_ok.mp resolves.members
  have made' := mapM_ok.mp resolves'.members
  have lengths : parts.targets.servers.length = parts'.targets.servers.length :=
    (made.length_eq.trans members.length_eq).trans made'.length_eq.symm
  simp only [Parts.resolvedReferences, List.map_append, List.map_cons, List.cons_append, List.nil_append,
    List.append_assoc] at references
  cases references with
  | cons target references =>
  cases references with
  | cons _ references =>
  cases references with
  | cons _ references =>
      have servers := List.forall₂_take parts.targets.servers.length references
      rw [List.take_left' (List.length_map _), List.take_left' ((List.length_map _).trans lengths.symm),
        List.forall₂_map_left_iff, List.forall₂_map_right_iff] at servers
      obtain ⟨kind, name⟩ := observedReference_same target
      exact {
        spec := same.getD "spec" .null
        targetKind := kind
        targetName := name
        targetUid := Json.str.inj (Json.same_str.mp uids)
        targetSpec := same.getD "targetSpec" .null
        hosts := same.getD "hosts" .null
        servers := members_same (servers.imp fun _ _ both => (observedReference_same both).2) made made' members }

end Inputs

section States

variable {env : Environment} {store : Store} {host : (call : Host) → Except Exn call.Value} {events : Trace}
  {configuration : Resource} {targets : Targets}

/-- In a fixed state the target and the Servers are the ones that are stored. -/
theorem resolveTargets_stored (reached : (resolveTargets env configuration).Reached events targets)
    (answered : ∀ event ∈ events, event.reply = Api.fixed store host event.request) :
    store.find? Resource.schema (targets.target.kind, targets.target.name) = some targets.target ∧
      ∀ server ∈ targets.servers, store.find? Resource.schema (.server, server.name) = some server := by
  obtain ⟨_, _, reached⟩ := reached.check
  obtain ⟨_, _, reached⟩ := reached.check
  obtain ⟨collection, _, reached⟩ := reached.check
  obtain ⟨target, isTarget, reached⟩ := reached.bind
  obtain ⟨_, _, reached⟩ := reached.check
  obtain ⟨_, _, reached⟩ := reached.bind
  obtain ⟨_, _, reached⟩ := reached.check
  obtain ⟨_, _, reached⟩ := reached.check
  obtain ⟨_, _, reached⟩ := reached.check
  obtain ⟨⟨_, inventory⟩, _, reached⟩ := reached.bind
  obtain ⟨_, _, reached⟩ := reached.check
  obtain ⟨rawHosts, _, reached⟩ := reached.bind
  obtain ⟨_, _, reached⟩ := reached.check
  obtain ⟨servers, fetched, reached⟩ := reached.bind
  obtain ⟨hosts, _, reached⟩ := reached.bind
  have same := reached.done
  subst same
  obtain ⟨_, found⟩ := fetchReference_stored (isTarget.eval answered)
  have kind : target.kind = collection := congrArg Prod.fst (Versioned.Store.mem_of_find? found).2
  refine ⟨by rw [kind]; exact found, fun server member => ?_⟩
  obtain ⟨name, _, isServer⟩ := mem_right fetched.mapM member
  exact (fetchReference_stored (isServer.eval answered)).2

theorem metadata_entries (metadata : Metadata) :
    ((metadata.json.fields.get? "labels").getD (.obj []) = Metadata.strings (metadata.labels.getD [])) ∧
      (metadata.json.fields.get? "annotations").getD (.obj []) = Metadata.strings (metadata.annotations.getD []) ∧
      value metadata.json.fields "uid" = .str metadata.uid := by
  obtain ⟨name, uid, version, generation, deletion, annotations, labels, creation, finalizers⟩ := metadata
  refine ⟨?_, ?_, rfl⟩
  · cases generation <;> cases deletion <;> cases annotations <;> cases labels <;> cases creation <;> cases finalizers <;> rfl
  · cases generation <;> cases deletion <;> cases annotations <;> cases labels <;> cases creation <;> cases finalizers <;> rfl

theorem nodeContext_same {server other : Resource} (same : SameMember server other) :
    Same (nodeContext server) (nodeContext other) := by
  have areLabels := same.labels
  have areAnnotations := same.annotations
  unfold Same at areLabels areAnnotations ⊢
  simp only [nodeContext, Json.canonical, Json.canonicalFields, same.name, same.uid, areLabels, areAnnotations]

/-- Variables of the two files, where the plans agree on the Server and on its variables. -/
theorem written_variables {resolved resolved' : Plan} {known known' : String} {server other : Resource}
    {after after' : Object} {trusted trusted' : List RunnerTrust.HostTrust}
    (made : overrideTransport env known resolved.servers (applyTrust resolved.hosts trusted) = .ok after)
    (made' : overrideTransport env known' resolved'.servers (applyTrust resolved'.hosts trusted') = .ok after')
    (distinct : (resolved.servers.map Resource.name).Nodup) (distinct' : (resolved'.servers.map Resource.name).Nodup)
    (selected : server ∈ resolved.servers) (selected' : other ∈ resolved'.servers) (same : SameMember server other)
    (hosts : Same (.obj resolved.hosts) (.obj resolved'.hosts)) :
    ∃ vars vars' : Object, value after server.name = .obj vars ∧ value after' other.name = .obj vars' ∧
      ∀ key ∉ transportVariables, Same (value vars key) (value vars' key) := by
  obtain ⟨vars, provisioning, runReference, isVars, isProvisioning, isReference, serverUid, runUid, inherited⟩ :=
    overrideTransport_vars made distinct selected
  obtain ⟨vars', provisioning', runReference', isVars', isProvisioning', isReference', serverUid', runUid', inherited'⟩ :=
    overrideTransport_vars made' distinct' selected'
  refine ⟨vars, vars', isVars, isVars', ?_⟩
  intro key outside
  by_cases isServer : key = "configuration_server_uid"
  · rw [isServer, serverUid, serverUid', same.uid]
    exact .refl _
  by_cases isRun : key = "configuration_run_uid"
  · have references := same.installation provisioning provisioning' isProvisioning isProvisioning'
    rw [isReference, isReference'] at references
    rw [isRun, runUid, runUid']
    exact references.getD "uid" .null
  rw [inherited key outside isServer isRun, inherited' key outside isServer isRun]
  have given : Same (value resolved.hosts server.name) (value resolved'.hosts other.name) := by
    rw [same.name]
    exact hosts.getD other.name .null
  exact given.fields.getD key .null

theorem prepares_hosts {resolved : Plan} {directory : String} {context : Context}
    (prepared : Prepares env resolved directory context)
    (listed : ∀ server ∈ resolved.servers, server.name ∈ resolved.hosts.map Prod.fst) :
    ∃ trusted after, overrideTransport env (knownHostsPath directory) resolved.servers
        (applyTrust resolved.hosts trusted) = .ok after ∧
      ∀ server ∈ resolved.servers, ∀ vars, value after server.name = .obj vars →
        HasVariables context.inventory server.name vars := by
  obtain ⟨_, normalized, groups, trusted, after, isNormalized, isCompleted, isOverridden, isInventory⟩ :=
    prepares_files prepared
  refine ⟨trusted, after, isOverridden, ?_⟩
  have normal : ∀ group ∈ normalized, group.Normal := by
    intro group member
    obtain ⟨entry, _, made⟩ := mem_right (mapM_ok.mp isNormalized) member
    exact normalizeGroup_normal made
  obtain ⟨normal, prior, all, isAll, inside, _⟩ := completeAll_ok isCompleted normal after
  obtain ⟨_, named, members, _⟩ := allGroup_ok isAll
  have rendered : all.render after =
      ("all", .obj (all.fields.set "hosts" (occurrences after (resolved.hosts.map Prod.fst)))) := by
    rw [Group.render, members, named]
  intro server selected vars isVars
  rw [isInventory]
  constructor
  · refine ⟨_, _, rendered ▸ List.mem_map_of_mem (f := Group.render after) inside, Object.get?_set_self _ _, ?_⟩
    rw [← isVars]
    exact List.mem_map_of_mem (listed server selected)
  · intro group given lists
    rw [lists_render normal lists, isVars]

end States

/-! ## The target -/

/-- The target is one of the Servers that the command may execute on. -/
def TargetSelected (resolved : Plan) : Prop :=
  resolved.target.kind = .server ∧ resolved.target.name ∈ resolved.servers.map Resource.name

/-- The target has the same labels and annotations in both states. -/
def SameEntries (target other : Resource) : Prop :=
  Same (labels target) (labels other) ∧ Same (annotations target) (annotations other)

section Target

variable {env : Environment} {store store' : Store} {host host' : (call : Host) → Except Exn call.Value}
  {parts parts' : Parts} {configuration configuration' : Resource}

theorem selected_same {servers others : List Resource} {target other : Resource}
    (members : List.Forall₂ SameMember servers others) (selected : target.name ∈ servers.map Resource.name)
    (named : target.name = other.name)
    (stored : ∀ server ∈ target :: servers, store.find? Resource.schema (.server, server.name) = some server)
    (stored' : ∀ server ∈ other :: others, store'.find? Resource.schema (.server, server.name) = some server) :
    SameEntries target other := by
  obtain ⟨server, listed, sameName⟩ := List.mem_map.mp selected
  obtain ⟨server', listed', same⟩ := mem_left members listed
  have isTarget : server = target := by
    have found := stored server (List.mem_cons_of_mem _ listed)
    rw [sameName, stored target List.mem_cons_self] at found
    exact (Option.some.inj found).symm
  have isOther : server' = other := by
    have found := stored' server' (List.mem_cons_of_mem _ listed')
    rw [← same.name, sameName, named, stored' other List.mem_cons_self] at found
    exact (Option.some.inj found).symm
  subst isTarget isOther
  exact ⟨same.labels, same.annotations⟩

end Target

/-- What the values tell the command about the target. -/
theorem contextValues_target {resolved : Plan} {directory : String} {context : Context}
    (isValues : context.values = contextValues resolved directory) :
    context.targetEntries "labels" = labels resolved.target ∧
      context.targetEntries "annotations" = annotations resolved.target ∧
      value (context.target "metadata").fields "uid" = .str resolved.target.uid ∧
      context.target "spec" = .obj resolved.target.spec := by
  unfold Context.targetEntries Context.target
  rw [isValues]
  obtain ⟨areLabels, areAnnotations, isUid⟩ := metadata_entries resolved.target.metadata
  exact ⟨areLabels, areAnnotations, isUid, rfl⟩

/-- One revision stands for one context of the command, if and only if the
target is a selected Server or has kept its labels and annotations. -/
theorem revision_covers_context_iff {env : Environment} (identifies : Json.Identifies env.digest)
    {store store' : Store} {host host' : (call : Host) → Except Exn call.Value} {frames frames' : Nat}
    {configuration configuration' : Resource} {stack stack' : List String} {resolved resolved' : Plan}
    {directory directory' : String} {context context' : Context}
    (planned : inState store host (plan env frames configuration stack) = .ok resolved)
    (planned' : inState store' host' (plan env frames' configuration' stack') = .ok resolved')
    (same : resolved.inputRevision = resolved'.inputRevision)
    (prepared : Prepares env resolved directory context) (prepared' : Prepares env resolved' directory' context') :
    Agrees context context' resolved.servers ↔
      TargetSelected resolved ∨ SameEntries resolved.target resolved'.target := by
  obtain ⟨_, parts, _, resolves, rfl⟩ := plan_reached (Op.ran_eval _ planned).reached
  obtain ⟨_, parts', _, resolves', rfl⟩ := plan_reached (Op.ran_eval _ planned').reached
  have sames := sameParts resolves resolves' (Parts.same_inputs identifies same)
  obtain ⟨isValues, _⟩ := prepares_files prepared
  obtain ⟨isValues', _⟩ := prepares_files prepared'
  obtain ⟨areLabels, areAnnotations, isUid, isSpec⟩ := contextValues_target isValues
  obtain ⟨areLabels', areAnnotations', isUid', isSpec'⟩ := contextValues_target isValues'
  constructor
  · intro agrees
    have labelled := agrees.targetLabels
    have annotated := agrees.targetAnnotations
    rw [areLabels, areLabels'] at labelled
    rw [areAnnotations, areAnnotations'] at annotated
    exact .inr ⟨labelled, annotated⟩
  · intro covered
    have kept : SameEntries parts.targets.target parts'.targets.target := by
      cases covered with
      | inr kept => exact kept
      | inl selected =>
          obtain ⟨target, servers⟩ := resolveTargets_stored resolves.targets (Program.path_answered _ _)
          obtain ⟨target', servers'⟩ := resolveTargets_stored resolves'.targets (Program.path_answered _ _)
          have kind : parts.targets.target.kind = .server := selected.1
          rw [kind] at target
          rw [← sames.targetKind, kind] at target'
          exact selected_same sames.servers selected.2 sames.targetName
            (List.forall_mem_cons.mpr ⟨target, servers⟩) (List.forall_mem_cons.mpr ⟨target', servers'⟩)
    obtain ⟨distinct, listed⟩ := resolveTargets_servers resolves.targets Api.fixed_honest
    obtain ⟨distinct', listed'⟩ := resolveTargets_servers resolves'.targets Api.fixed_honest
    obtain ⟨trusted, after, isOverridden, given⟩ := prepares_hosts prepared listed
    obtain ⟨trusted', after', isOverridden', given'⟩ := prepares_hosts prepared' listed'
    constructor
    · rw [isValues, isValues']
      exact sames.spec.getD "values" (.obj [])
    · rw [isUid, isUid']
      exact Json.same_str.mpr (congrArg Json.str sames.targetUid)
    · rw [areLabels, areLabels']
      exact kept.1
    · rw [areAnnotations, areAnnotations']
      exact kept.2
    · rw [isSpec, isSpec']
      exact sames.targetSpec
    · rw [isValues, isValues']
      apply Json.same_arr_iff.mpr
      rw [List.forall₂_map_left_iff, List.forall₂_map_right_iff]
      exact sames.servers.imp fun _ _ => nodeContext_same
    · intro server selected
      obtain ⟨other, selected', member⟩ := mem_left sames.servers selected
      obtain ⟨vars, vars', isVars, isVars', same⟩ := written_variables isOverridden isOverridden' distinct distinct'
        selected selected' member sames.hosts
      refine ⟨vars, vars', given server selected vars isVars, ?_, same⟩
      rw [member.name]
      exact given' other selected' vars' isVars'

namespace Rehearsal

open Provisioning.Rehearsal (executor metadata stored)

/-! ### A Server with another heartbeat, and a cluster with another label -/

def beating (time : String) : Resource := { server with status := server.status ++ [("lastSeen", .str time)] }

def beatingStore (time : String) : Store :=
  stored [beating time, installation, machine, group, repository, base (.int 1) []]

def labeledCluster (tier : String) : Resource where
  kind := .kubeCluster
  metadata := { metadata "lab" with labels := some [("tier", tier)] }
  spec := []
  status := []

def ofCluster : Resource :=
  { configuration [] with
    spec := specification.set "targetRef" (.obj [("kind", .str "KubeCluster"), ("name", .str "lab")]) }

def clusterStore (tier : String) : Store :=
  stored [server, installation, machine, group, repository, labeledCluster tier, ofCluster]

def clusterInputs : Json :=
  .obj (planInputs ofCluster { targets with target := labeledCluster "" } repository commit
    ([labeledCluster "", group, repository, server].map observedReference) none [] ((memberInputs server).toOption.toList))

def covering : Environment :=
  { executor "group" with digest := Json.abbreviate [baseInputs (.int 1), clusterInputs] }

/-- The plan of a Configuration in a state, if a preparation of it ends. -/
def prepares (store : Store) (configuration : Resource) : Option Plan :=
  (inState store answers (plan covering 1 configuration [])).toOption.filter fun resolved =>
    (inState store answers (prepareExecution covering resolved "/tmp/configuration")).isOk

theorem prepares_some {store : Store} {configuration : Resource} {resolved : Plan}
    (found : prepares store configuration = some resolved) :
    inState store answers (plan covering 1 configuration []) = .ok resolved ∧
      ∃ context, Prepares covering resolved "/tmp/configuration" context := by
  obtain ⟨planned, ended⟩ := Option.filter_eq_some_iff.mp found
  cases prepared : inState store answers (prepareExecution covering resolved "/tmp/configuration") with
  | error failure =>
      rw [prepared] at ended
      cases ended
  | ok result =>
      cases evaluated : inState store answers (plan covering 1 configuration []) with
      | error failure =>
          rw [evaluated] at planned
          cases planned
      | ok other =>
          rw [evaluated] at planned
          cases planned
          exact ⟨rfl, prepares_of_ran (Op.ran_eval _ prepared)⟩

end Rehearsal

/-- A heartbeat changes neither the revision nor what the command is told. -/
theorem heartbeat_context_agrees : ∃ resolved resolved' context context',
    Prepares Rehearsal.covering resolved "/tmp/configuration" context ∧
      Prepares Rehearsal.covering resolved' "/tmp/configuration" context' ∧
      resolved.target.status.get? "lastSeen" ≠ resolved'.target.status.get? "lastSeen" ∧
      Agrees context context' resolved.servers := by
  have facts : ["1", "2"].all (fun time =>
      (Rehearsal.prepares (Rehearsal.beatingStore time) (Rehearsal.base (.int 1) [])).any fun resolved =>
        decide (resolved.inputRevision = "sha256:" ∧ resolved.target.status.get? "lastSeen" = some (.str time) ∧
          resolved.target.kind = .server ∧ resolved.target.name ∈ resolved.servers.map Resource.name)) = true := by
    decide +kernel
  obtain ⟨first, rest⟩ := List.forall_mem_cons.mp (List.all_eq_true.mp facts)
  obtain ⟨second, _⟩ := List.forall_mem_cons.mp rest
  obtain ⟨resolved, found, checked⟩ := (Option.any_eq_true _ _).mp first
  obtain ⟨resolved', found', checked'⟩ := (Option.any_eq_true _ _).mp second
  obtain ⟨revision, beat, selected⟩ := of_decide_eq_true checked
  obtain ⟨revision', beat', _⟩ := of_decide_eq_true checked'
  obtain ⟨planned, context, prepared⟩ := Rehearsal.prepares_some found
  obtain ⟨planned', context', prepared'⟩ := Rehearsal.prepares_some found'
  refine ⟨resolved, resolved', context, context', prepared, prepared', ?_, ?_⟩
  · rw [beat, beat']
    decide
  · exact (revision_covers_context_iff (Json.identifies_abbreviate _) planned planned' (revision.trans revision'.symm)
      prepared prepared').mpr (.inl selected)

/-- The labels of a cluster reach the command, but not the revision. -/
theorem cluster_labels_uncovered : ∃ resolved resolved' context context',
    inState (Rehearsal.clusterStore "1") Rehearsal.answers (plan Rehearsal.covering 1 Rehearsal.ofCluster []) =
      .ok resolved ∧
    inState (Rehearsal.clusterStore "2") Rehearsal.answers (plan Rehearsal.covering 1 Rehearsal.ofCluster []) =
      .ok resolved' ∧
    Json.Identifies Rehearsal.covering.digest ∧ resolved.inputRevision = resolved'.inputRevision ∧
    Prepares Rehearsal.covering resolved "/tmp/configuration" context ∧
    Prepares Rehearsal.covering resolved' "/tmp/configuration" context' ∧
    ¬Agrees context context' resolved.servers := by
  have facts : ["1", "2"].all (fun tier =>
      (Rehearsal.prepares (Rehearsal.clusterStore tier) Rehearsal.ofCluster).any fun resolved =>
        decide (resolved.inputRevision = "sha256:*" ∧ labels resolved.target = .obj [("tier", .str tier)])) = true := by
    decide +kernel
  obtain ⟨first, rest⟩ := List.forall_mem_cons.mp (List.all_eq_true.mp facts)
  obtain ⟨second, _⟩ := List.forall_mem_cons.mp rest
  obtain ⟨resolved, found, checked⟩ := (Option.any_eq_true _ _).mp first
  obtain ⟨resolved', found', checked'⟩ := (Option.any_eq_true _ _).mp second
  obtain ⟨revision, labelled⟩ := of_decide_eq_true checked
  obtain ⟨revision', labelled'⟩ := of_decide_eq_true checked'
  obtain ⟨planned, context, prepared⟩ := Rehearsal.prepares_some found
  obtain ⟨planned', context', prepared'⟩ := Rehearsal.prepares_some found'
  refine ⟨resolved, resolved', context, context', planned, planned', Json.identifies_abbreviate _,
    revision.trans revision'.symm, prepared, prepared', fun agrees => ?_⟩
  have both := agrees.targetLabels
  rw [(contextValues_target (prepares_files prepared).1).1, (contextValues_target (prepares_files prepared').1).1,
    labelled, labelled'] at both
  exact absurd both (by decide)

end Homelab.Configurations
