import Homelab.Operators.RunnerKubernetes.Context

namespace Homelab.RunnerKubernetes

open Json (Object)

/-! # What an accepted kubeconfig resolves to -/

/-- A string that is not empty. -/
def text? : Json → Option String
  | .str text => if text = "" then none else some text
  | _ => none

def fields? : Json → Option Object
  | .obj fields => some fields
  | _ => none

/-- The entry of a section that has this name. -/
def entryNamed (config : Object) (section' name : String) : Option Object :=
  match value config section' with
  | .arr entries => (entries.filterMap fields?).find? fun entry => value entry "name" = .str name
  | _ => none

/-- `kubectl` takes the current context, and from it the connection and the credentials. -/
def kubectlTarget (config : Object) : Option (Object × Object) := do
  let current ← text? (value config "current-context")
  let contextEntry ← entryNamed config "contexts" current
  let context ← fields? (value contextEntry "context")
  let cluster ← text? (value context "cluster")
  let user ← text? (value context "user")
  let clusterEntry ← entryNamed config "clusters" cluster
  let userEntry ← entryNamed config "users" user
  let connection ← fields? (value clusterEntry "cluster")
  let credentials ← fields? (value userEntry "user")
  return (connection, credentials)

/-- The connection and the credentials are embedded, complete and without any other setting. -/
structure SelfContained (endpoint : String) (connection credentials : Object) : Prop where
  server : value connection "server" = .str ("https://" ++ endpoint)
  connectionKeys : hasKeys connection ["server", "certificate-authority-data"] = true
  authority : (text? (value connection "certificate-authority-data")).isSome = true
  credentialKeys : hasKeys credentials ["client-certificate-data", "client-key-data"] = true
  certificate : (text? (value credentials "client-certificate-data")).isSome = true
  key : (text? (value credentials "client-key-data")).isSome = true

/-- The one context of a kubeconfig names a cluster and a user. -/
def BindsByName (config : Object) : Prop :=
  ∃ contextEntry context : Object, value config "contexts" = .arr [.obj contextEntry] ∧
    value contextEntry "context" = .obj context ∧ (text? (value context "cluster")).isSome = true ∧
    (text? (value context "user")).isSome = true

/-! ## What is accepted -/

/-- The parts of an accepted kubeconfig. -/
structure Accepted (config : Object) (cluster : Resource)
    (clusterEntry userEntry contextEntry connection credentials context : Object) (endpoint : String) : Prop where
  version : value config "apiVersion" = .str "v1"
  kind : value config "kind" = .str "Config"
  clusters : value config "clusters" = .arr [.obj clusterEntry]
  users : value config "users" = .arr [.obj userEntry]
  contexts : value config "contexts" = .arr [.obj contextEntry]
  isConnection : value clusterEntry "cluster" = .obj connection
  isCredentials : value userEntry "user" = .obj credentials
  isContext : value contextEntry "context" = .obj context
  isEndpoint : value cluster.spec "controlPlaneEndpoint" = .str endpoint
  server : value connection "server" = .str ("https://" ++ endpoint)
  connectionKeys : hasKeys connection ["server", "certificate-authority-data"] = true
  credentialKeys : hasKeys credentials ["client-certificate-data", "client-key-data"] = true
  material : ∀ credential ∈ credentials, (text? credential.2).isSome = true
  authority : (text? (value connection "certificate-authority-data")).isSome = true
  cluster : Json.Same (value context "cluster") (value clusterEntry "name")
  user : Json.Same (value context "user") (value userEntry "name")
  current : Json.Same (value config "current-context") (value contextEntry "name")

/-- The accepted kubeconfig under the name of its cluster. -/
def renamed (config contextEntry : Object) (cluster : Resource) : Object :=
  (config.set "contexts" (.arr [.obj (contextEntry.set "name" (.str cluster.name))])).set "current-context"
    (.str cluster.name)

theorem onlyEntry_ok {config : Object} {field : String} {entry : Json} (only : onlyEntry config field = .ok entry) :
    value config field = .arr [entry] := by
  unfold onlyEntry at only
  split at only
  · rename_i single found
    cases only
    exact found
  · cases only

theorem certificateMaterial_iff {material : Json} :
    certificateMaterial material = .ok () ↔ (text? material).isSome = true := by
  cases material with
  | str text =>
      by_cases empty : text = ""
      · subst empty
        constructor <;> intro impossible <;> cases impossible
      · simp [certificateMaterial, jsonString, text?, empty]
  | _ => constructor <;> intro impossible <;> cases impossible

theorem forM_ok {ε α : Type} {check : α → Except ε Unit} {items : List α} :
    items.forM check = .ok () ↔ ∀ item ∈ items, check item = .ok () := by
  induction items with
  | nil => exact ⟨fun _ _ listed => (nomatch listed), fun _ => rfl⟩
  | cons item rest ih =>
      rw [List.forall_mem_cons]
      change (check item >>= fun _ => rest.forM check) = .ok () ↔ _
      constructor
      · intro done
        obtain ⟨_, first, others⟩ := bind_ok done
        exact ⟨first, ih.mp others⟩
      · intro ⟨first, others⟩
        rw [first, ok_bind_eq]
        exact ih.mpr others

theorem validateContext_ok {config result : Object} {cluster : Resource}
    (validated : validateContext config cluster = .ok result) :
    ∃ clusterEntry userEntry contextEntry connection credentials context endpoint,
      Accepted config cluster clusterEntry userEntry contextEntry connection credentials context endpoint ∧
        result = renamed config contextEntry cluster := by
  obtain ⟨_, envelope, validated⟩ := bind_ok validated
  obtain ⟨rawCluster, onlyCluster, validated⟩ := bind_ok validated
  obtain ⟨rawUser, onlyUser, validated⟩ := bind_ok validated
  obtain ⟨rawContext, onlyContext, validated⟩ := bind_ok validated
  obtain ⟨clusterEntry, isCluster, validated⟩ := bind_ok validated
  obtain ⟨userEntry, isUser, validated⟩ := bind_ok validated
  obtain ⟨contextEntry, isContextEntry, validated⟩ := bind_ok validated
  obtain ⟨connection, isConnection, validated⟩ := bind_ok validated
  obtain ⟨credentials, isCredentials, validated⟩ := bind_ok validated
  obtain ⟨context, isContext, validated⟩ := bind_ok validated
  obtain ⟨endpoint, isEndpoint, validated⟩ := bind_ok validated
  obtain ⟨_, server, validated⟩ := bind_ok validated
  obtain ⟨_, connectionKeys, validated⟩ := bind_ok validated
  obtain ⟨_, credentialKeys, validated⟩ := bind_ok validated
  obtain ⟨_, material, validated⟩ := bind_ok validated
  obtain ⟨_, authority, validated⟩ := bind_ok validated
  obtain ⟨_, bound, validated⟩ := bind_ok validated
  have same := Except.ok.inj validated
  have envelope := demand_ok envelope
  have server := demand_ok server
  have bound := demand_ok bound
  simp only [Bool.and_eq_true, decide_eq_true_eq] at envelope server bound
  have isRawCluster := jsonObject_ok isCluster
  have isRawUser := jsonObject_ok isUser
  have isRawContext := jsonObject_ok isContextEntry
  subst isRawCluster isRawUser isRawContext
  refine ⟨clusterEntry, userEntry, contextEntry, connection, credentials, context, endpoint, ?_, same.symm⟩
  exact {
    version := envelope.1, kind := envelope.2, clusters := onlyEntry_ok onlyCluster, users := onlyEntry_ok onlyUser
    contexts := onlyEntry_ok onlyContext, isConnection := jsonObject_ok isConnection
    isCredentials := jsonObject_ok isCredentials, isContext := jsonObject_ok isContext
    isEndpoint := jsonString_ok isEndpoint, server, connectionKeys := demand_ok connectionKeys
    credentialKeys := demand_ok credentialKeys
    material := fun credential listed => certificateMaterial_iff.mp (forM_ok.mp material credential listed)
    authority := certificateMaterial_iff.mp authority, cluster := bound.1.1, user := bound.1.2, current := bound.2 }

section

variable {config clusterEntry userEntry contextEntry connection credentials context : Object} {cluster : Resource}
  {endpoint : String}

theorem Accepted.validated
    (accepted : Accepted config cluster clusterEntry userEntry contextEntry connection credentials context endpoint) :
    validateContext config cluster = .ok (renamed config contextEntry cluster) := by
  have credentialsChecked : (credentials.forM fun credential => certificateMaterial credential.2) = .ok () :=
    forM_ok.mpr fun credential listed => certificateMaterial_iff.mpr (accepted.material credential listed)
  unfold validateContext
  simp only [accepted.version, accepted.kind, onlyEntry, accepted.clusters, accepted.users, accepted.contexts,
    jsonObject, jsonString, accepted.isConnection, accepted.isCredentials, accepted.isContext, accepted.isEndpoint,
    accepted.server, accepted.connectionKeys, accepted.credentialKeys, credentialsChecked,
    certificateMaterial_iff.mpr accepted.authority, accepted.cluster, accepted.user, accepted.current, decide_true,
    Bool.and_self, demand_true, ok_bind_eq]
  rfl

theorem value_renamed_other {key : String} (contexts : key ≠ "contexts") (current : key ≠ "current-context") :
    value (renamed config contextEntry cluster) key = value config key := by
  rw [renamed, value_set_ne (Ne.symm current), value_set_ne (Ne.symm contexts)]

theorem value_renamed_contexts :
    value (renamed config contextEntry cluster) "contexts" =
      .arr [.obj (contextEntry.set "name" (.str cluster.name))] := by
  rw [renamed, value_set_ne (by decide), value_set_self]

theorem value_renamed_current : value (renamed config contextEntry cluster) "current-context" = .str cluster.name :=
  value_set_self _ _ _

theorem set_twice (fields : Object) (key : String) (stored : Json) :
    (fields.set key stored).set key stored = fields.set key stored :=
  Object.set_get? _ _ (Object.get?_set_self _ _)

/-- What was renamed once keeps its name. -/
theorem renamed_again :
    renamed (renamed config contextEntry cluster) (contextEntry.set "name" (.str cluster.name)) cluster =
      renamed config contextEntry cluster := by
  have contexts : (renamed config contextEntry cluster).set "contexts"
      (.arr [.obj ((contextEntry.set "name" (.str cluster.name)).set "name" (.str cluster.name))]) =
        renamed config contextEntry cluster := by
    rw [set_twice]
    refine Object.set_get? _ _ ?_
    rw [renamed, Object.get?_set_ne _ _ (by decide), Object.get?_set_self]
  rw [renamed, contexts]
  exact Object.set_get? _ _ (Object.get?_set_self _ _)

theorem Accepted.rename
    (accepted : Accepted config cluster clusterEntry userEntry contextEntry connection credentials context endpoint) :
    Accepted (renamed config contextEntry cluster) cluster clusterEntry userEntry
    (contextEntry.set "name" (.str cluster.name)) connection credentials context endpoint where
  version := (value_renamed_other (by decide) (by decide)).trans accepted.version
  kind := (value_renamed_other (by decide) (by decide)).trans accepted.kind
  clusters := (value_renamed_other (by decide) (by decide)).trans accepted.clusters
  users := (value_renamed_other (by decide) (by decide)).trans accepted.users
  contexts := value_renamed_contexts
  isConnection := accepted.isConnection
  isCredentials := accepted.isCredentials
  isContext := (value_set_ne (by decide) _).trans accepted.isContext
  isEndpoint := accepted.isEndpoint
  server := accepted.server
  connectionKeys := accepted.connectionKeys
  credentialKeys := accepted.credentialKeys
  material := accepted.material
  authority := accepted.authority
  cluster := accepted.cluster
  user := accepted.user
  current := by
    rw [value_renamed_current, value_set_self]
    exact .refl _

/-- An accepted kubeconfig is accepted again, unchanged. -/
theorem Accepted.again
    (accepted : Accepted config cluster clusterEntry userEntry contextEntry connection credentials context endpoint) :
    validateContext (renamed config contextEntry cluster) cluster = .ok (renamed config contextEntry cluster) := by
  rw [accepted.rename.validated, renamed_again]

theorem Accepted.selfContained
    (accepted : Accepted config cluster clusterEntry userEntry contextEntry connection credentials context endpoint) :
    SelfContained endpoint connection credentials := by
  have both := accepted.credentialKeys
  simp only [hasKeys, List.all_cons, List.all_nil, Bool.and_true, Bool.and_eq_true] at both
  have present (key : String) (found : (credentials.get? key).isSome = true) :
      (text? (value credentials key)).isSome = true := by
    obtain ⟨material, lookup⟩ := Option.isSome_iff_exists.mp found
    rw [value_some lookup]
    exact accepted.material _ (Object.mem_of_get? lookup)
  exact ⟨accepted.server, accepted.connectionKeys, accepted.authority, accepted.credentialKeys,
    present _ both.1.1, present _ both.1.2⟩

end

/-! ## How it resolves -/

theorem text?_eq_some {document : Json} {text : String} (found : text? document = some text) :
    document = .str text ∧ text ≠ "" := by
  unfold text? at found
  split at found
  · rename_i written
    split at found
    · cases found
    · rename_i nonempty
      cases found
      exact ⟨rfl, nonempty⟩
  · cases found

theorem text?_str {text : String} (nonempty : text ≠ "") : text? (.str text) = some text := if_neg nonempty

/-- Equality with a string is equality of strings. -/
theorem same_str {document : Json} {text : String} (same : Json.Same (.str text) document) : document = .str text := by
  cases document with
  | str other => exact same.symm
  | _ => cases same

theorem entryNamed_single {config entry : Object} {field name : String} (only : value config field = .arr [.obj entry])
    (named : value entry "name" = .str name) : entryNamed config field name = some entry := by
  rw [entryNamed, only]
  simp [fields?, named]

section

variable {config clusterEntry userEntry contextEntry connection credentials context : Object} {cluster : Resource}
  {endpoint : String}

/-- With a named cluster and user the renamed context leads to the one connection. -/
theorem Accepted.resolves
    (accepted : Accepted config cluster clusterEntry userEntry contextEntry connection credentials context endpoint)
    (named : cluster.name ≠ "") {clusterName userName : String}
    (isCluster : text? (value context "cluster") = some clusterName)
    (isUser : text? (value context "user") = some userName) :
    kubectlTarget (renamed config contextEntry cluster) = some (connection, credentials) := by
  have final := accepted.rename
  obtain ⟨clusterText, _⟩ := text?_eq_some isCluster
  obtain ⟨userText, _⟩ := text?_eq_some isUser
  have sameCluster := accepted.cluster
  have sameUser := accepted.user
  rw [clusterText] at sameCluster
  rw [userText] at sameUser
  have foundContext := entryNamed_single final.contexts (value_set_self _ _ _)
  have foundCluster := entryNamed_single final.clusters (same_str sameCluster)
  have foundUser := entryNamed_single final.users (same_str sameUser)
  simp only [kubectlTarget, value_renamed_current, text?_str named, foundContext, final.isContext, fields?, isCluster,
    isUser, foundCluster, foundUser, accepted.isConnection, accepted.isCredentials, Option.bind_eq_bind,
    Option.bind_some, Option.pure_def]

theorem Accepted.bindsByName
    (accepted : Accepted config cluster clusterEntry userEntry contextEntry connection credentials context endpoint)
    {target : Object × Object} (resolved : kubectlTarget (renamed config contextEntry cluster) = some target) :
    BindsByName config ∧ cluster.name ≠ "" := by
  unfold kubectlTarget at resolved
  simp only [Option.bind_eq_bind, Option.bind_eq_some_iff] at resolved
  obtain ⟨current, isCurrent, entry, isEntry, fields, isFields, clusterName, isCluster, userName, isUser, _⟩ := resolved
  obtain ⟨written, nonempty⟩ := text?_eq_some isCurrent
  rw [value_renamed_current] at written
  have sameName : cluster.name = current := Json.str.inj written
  have found := entryNamed_single accepted.rename.contexts (value_set_self contextEntry "name" (.str cluster.name))
  rw [sameName] at found
  rw [found] at isEntry
  cases isEntry
  rw [value_set_ne (by decide), accepted.isContext] at isFields
  cases isFields
  refine ⟨⟨contextEntry, context, accepted.contexts, accepted.isContext, ?_, ?_⟩, by rw [sameName]; exact nonempty⟩
  · rw [isCluster]
    rfl
  · rw [isUser]
    rfl

end

/-- An accepted kubeconfig is accepted again unchanged, and resolves to exactly
its embedded connection and credentials if and only if its context names a
cluster and a user. -/
theorem context_resolves_iff {config result : Object} {cluster : Resource}
    (validated : validateContext config cluster = .ok result) :
    (validateContext result cluster = .ok result ∧ ∃ endpoint connection credentials,
      value cluster.spec "controlPlaneEndpoint" = .str endpoint ∧
        kubectlTarget result = some (connection, credentials) ∧ SelfContained endpoint connection credentials) ↔
      BindsByName config ∧ cluster.name ≠ "" := by
  obtain ⟨_, _, contextEntry, connection, credentials, context, endpoint, accepted, same⟩ := validateContext_ok validated
  subst same
  constructor
  · intro ⟨_, _, _, _, _, resolved, _⟩
    exact accepted.bindsByName resolved
  · intro ⟨⟨other, bound, contexts, isBound, named, used⟩, nonempty⟩
    refine ⟨accepted.again, endpoint, connection, credentials, accepted.isEndpoint, ?_, accepted.selfContained⟩
    have entries := accepted.contexts.symm.trans contexts
    injection entries with entries
    injection entries with entries
    injection entries with entries
    subst entries
    have contextsSame := accepted.isContext.symm.trans isBound
    injection contextsSame with contextsSame
    subst contextsSame
    obtain ⟨clusterName, isCluster⟩ := Option.isSome_iff_exists.mp named
    obtain ⟨userName, isUser⟩ := Option.isSome_iff_exists.mp used
    exact accepted.resolves nonempty isCluster isUser

namespace Rehearsal

/-- A cluster and a kubeconfig of it, whose context binds like this. -/
def cluster : Resource where
  kind := .kubeCluster
  metadata := { name := "lab", uid := "lab-uid", resourceVersion := 1 }
  spec := [("controlPlaneEndpoint", .str "lab.example:6443")]
  status := []

def entry (name : Object) (kind : String) (content : Object) : Json := .arr [.obj (name ++ [(kind, .obj content)])]

def kubeconfig (clusterName userName : Object) (binding : Object) : Object :=
  [("apiVersion", .str "v1"), ("kind", .str "Config"),
    ("clusters", entry clusterName "cluster" [("server", .str "https://lab.example:6443"),
      ("certificate-authority-data", .str "Y2E=")]),
    ("users", entry userName "user" [("client-certificate-data", .str "Y2VydA=="),
      ("client-key-data", .str "a2V5")]),
    ("contexts", entry [("name", .str "admin@lab")] "context" binding), ("current-context", .str "admin@lab")]

def named : Object :=
  kubeconfig [("name", .str "kubernetes")] [("name", .str "admin")]
    [("cluster", .str "kubernetes"), ("user", .str "admin")]

/-- No name on either side of the binding. -/
def unnamed : Object := kubeconfig [] [] []

end Rehearsal

theorem named_context_resolves : ∃ result connection credentials,
    validateContext Rehearsal.named Rehearsal.cluster = .ok result ∧
      kubectlTarget result = some (connection, credentials) ∧
        SelfContained "lab.example:6443" connection credentials := by
  have binds : BindsByName Rehearsal.named :=
    ⟨_, [("cluster", .str "kubernetes"), ("user", .str "admin")], rfl, rfl, by decide, by decide⟩
  obtain ⟨_, endpoint, connection, credentials, isEndpoint, resolved, contained⟩ :=
    (@context_resolves_iff Rehearsal.named _ Rehearsal.cluster rfl).mpr ⟨binds, by decide⟩
  cases isEndpoint
  exact ⟨_, connection, credentials, rfl, resolved, contained⟩

/-- A binding of absent names is accepted, and resolves to nothing. -/
theorem unnamed_context_unresolved : ∃ result,
    validateContext Rehearsal.unnamed Rehearsal.cluster = .ok result ∧ kubectlTarget result = none :=
  ⟨_, rfl, rfl⟩

end Homelab.RunnerKubernetes
