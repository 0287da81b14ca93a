import Homelab.FilterPlugins.ClusterPlan

namespace Homelab

open Json (Object)

/-! # Settings without the Flannel release

Three functions leave the reconciled Flannel release out of the settings that
identify an installed member: the filter of the role, the runner, and the
script that the runner sends to the node.
-/

namespace KubePlan

/-- Drop the Flannel release: it is a reconciled add-on, not immutable node ownership. -/
def stableIdentity (rawIdentity : Json) : Except Exn Object := do
  let identity ← mapping rawIdentity "Kubernetes member identity"
  let settings ← mapping (value identity "settings") "identity settings"
  let network ← mapping (value settings "network") "identity network"
  return identity.set "settings" (.obj (settings.set "network" (.obj (network.erase "version"))))

/-- The identity that a node of the cluster records. -/
def memberIdentity (clusterUid serverUid nodeName role : Json) (settings : Object) : Object :=
  [("clusterUID", clusterUid), ("serverUID", serverUid), ("nodeName", nodeName), ("role", role),
    ("settings", .obj settings)]

end KubePlan

namespace RunnerKubernetes

open KubePlan

def withoutVersion (network : Object) : Object := network.filter fun entry => entry.1 ≠ "version"

/-- Cluster settings that identify installed members; the Flannel release is reconciled. -/
def stableSettings (rawSpec : Json) : Except Exn Object := do
  let settings ← jsonObject rawSpec "KubeCluster spec"
  let network ← jsonObject (value settings "network") "KubeCluster network"
  return settings.set "network" (.obj (withoutVersion network))

/-! ## The settings that the script on the node compares -/

def installedSettings (identity : Object) : Except Exn Object := do
  let settings ← itemObject identity "settings"
  let network ← itemObject settings "network"
  return settings.set "network" (.obj (withoutVersion network))

/-- Every expected field has its value among the installed ones. -/
def settingsMatch (installed expected : Object) : Bool :=
  expected.all fun entry => decide (Json.Same (value installed entry.1) (value expected entry.1))

/-- The comparison of the installed settings with those of a KubeCluster. -/
def checkInstalled (identity : Object) (rawSpec : Json) : Except Exn Unit := do
  let expected ← stableSettings rawSpec
  let installed ← installedSettings identity
  demand (settingsMatch installed expected) (.error "AssertionError" "")

/-! ## What identifies a member -/

/-- The pins that complete a spec. -/
def defaultPin (field : String) : Option Json :=
  if field = "runcVersion" then some (.str "1.5.2")
  else if field = "cniPluginsVersion" then some (.str "1.9.1")
  else none

/-- What a field of the completed spec contributes to the identity. -/
def identifying (spec : Object) (field : String) : Option Json :=
  if field = "network" then some (.obj ((value spec "network").fields.erase "version"))
  else (spec.get? field).or (defaultPin field)

theorem withoutVersion_eq (network : Object) : withoutVersion network = network.erase "version" := by
  induction network with
  | nil => rfl
  | cons entry rest ih =>
      obtain ⟨name, found⟩ := entry
      rw [withoutVersion] at ih ⊢
      by_cases same : name = "version"
      · rw [List.filter_cons_of_neg (by simp [same]), Object.erase, if_pos same, ih]
      · rw [List.filter_cons_of_pos (by simp [same]), Object.erase, if_neg same, ih]

theorem erase_version_twice (network : Object) :
    (network.erase "version").erase "version" = network.erase "version" := by
  rw [← withoutVersion_eq, ← withoutVersion_eq, withoutVersion, withoutVersion, List.filter_filter]
  simp

/-- Settings and the network without its version identify what the spec they complete does. -/
structure Completes (settings spec : Object) : Prop where
  network : ∃ network : Object, value settings "network" = .obj network ∧
    network.erase "version" = (value spec "network").fields.erase "version"
  others : ∀ field, field ≠ "network" → settings.get? field = (spec.get? field).or (defaultPin field)

theorem validated_completes {rawSpec : Json} {settings : Object} (valid : validatedSettings rawSpec = .ok settings) :
    ∃ spec, rawSpec = .obj spec ∧ Completes settings spec ∧ ∃ network, value spec "network" = .obj network := by
  obtain ⟨spec, pods, services, isSpec, shape, _, _, _, network, isNetwork⟩ := validatedSettings_ok valid
  refine ⟨spec, isSpec, ⟨⟨network, ?_, ?_⟩, ?_⟩, network, isNetwork⟩
  · rw [shape, value, Object.get?_set_ne _ _ (by decide), Object.get?_set_ne _ _ (by decide)]
    exact isNetwork
  · rw [isNetwork, Json.fields]
  · intro field _
    rw [shape, Object.get?_set, Object.get?_set, defaultPin]
    by_cases plugins : field = "cniPluginsVersion"
    · subst plugins
      cases found : spec.get? "cniPluginsVersion" <;> simp [valueOr, found]
    · by_cases runc : field = "runcVersion"
      · subst runc
        cases found : spec.get? "runcVersion" <;> simp [valueOr, found]
      · rw [if_neg (Ne.symm plugins), if_neg (Ne.symm runc), if_neg runc, if_neg plugins, Option.or_none]

/-- The marker of a member holds its settings, with or without the Flannel release. -/
def Marked (settings marker : Object) : Prop :=
  marker = settings ∨
    marker = settings.set "network" (.obj ((value settings "network").fields.erase "version"))

theorem Completes.marked {settings marker spec : Object} (completes : Completes settings spec)
    (marked : Marked settings marker) : Completes marker spec := by
  cases marked with
  | inl same =>
      rw [same]
      exact completes
  | inr same =>
      obtain ⟨network, isNetwork, erased⟩ := completes.network
      rw [isNetwork, Json.fields] at same
      refine ⟨⟨network.erase "version", ?_, ?_⟩, ?_⟩
      · rw [same, value, Object.get?_set_self]
        rfl
      · rw [erase_version_twice]
        exact erased
      · intro field other
        rw [same, Object.get?_set_ne _ _ (Ne.symm other)]
        exact completes.others field other

theorem Completes.lookup {settings spec network : Object} (completes : Completes settings spec)
    (isNetwork : value settings "network" = .obj network) (field : String) :
    (settings.set "network" (.obj (network.erase "version"))).get? field = identifying spec field := by
  obtain ⟨network', isNetwork', erased⟩ := completes.network
  cases isNetwork.symm.trans isNetwork'
  rw [Object.get?_set, identifying]
  by_cases same : field = "network"
  · rw [if_pos same.symm, if_pos same, erased]
  · rw [if_neg (Ne.symm same), if_neg same, completes.others field same]

/-! ## The two comparisons -/

section Comparisons

variable {settings marker spec other wanted : Object} (clusterUid serverUid nodeName role : Json)

/-- The script accepts the marker for the spec. -/
def ScriptAccepts (identity : Object) (rawSpec : Json) : Prop := checkInstalled identity rawSpec = .ok ()

/-- The role takes both identities for the same. -/
def IdentityMatches (left right : Object) : Prop :=
  ∃ stableLeft stableRight, stableIdentity (.obj left) = .ok stableLeft ∧ stableIdentity (.obj right) = .ok stableRight ∧
    Json.Same (.obj stableLeft) (.obj stableRight)

theorem stableIdentity_eq {network : Object} (isNetwork : value marker "network" = .obj network) :
    stableIdentity (.obj (memberIdentity clusterUid serverUid nodeName role marker)) =
      .ok (memberIdentity clusterUid serverUid nodeName role
        (marker.set "network" (.obj (network.erase "version")))) := by
  have stored : value (memberIdentity clusterUid serverUid nodeName role marker) "settings" = .obj marker := rfl
  rw [stableIdentity, mapping, ok_bind_eq, stored, mapping, ok_bind_eq, isNetwork, mapping, ok_bind_eq]
  rfl

theorem memberIdentity_same {left right : Object} :
    Json.Same (.obj (memberIdentity clusterUid serverUid nodeName role left))
      (.obj (memberIdentity clusterUid serverUid nodeName role right)) ↔ Json.Same (.obj left) (.obj right) := by
  constructor
  · intro same
    have settings := same.get? "settings"
    exact Option.some.inj settings
  · intro same
    rw [Json.same_obj_iff]
    intro key
    simp only [memberIdentity, Object.get?_cons, Object.get?_nil]
    split
    · rfl
    · split
      · rfl
      · split
        · rfl
        · split
          · rfl
          · split
            · exact congrArg some same
            · rfl

theorem identityMatches_iff (completes : Completes marker spec) (others : Completes wanted other) :
    IdentityMatches (memberIdentity clusterUid serverUid nodeName role marker)
        (memberIdentity clusterUid serverUid nodeName role wanted) ↔
      ∀ field, (identifying spec field).map Json.canonical = (identifying other field).map Json.canonical := by
  obtain ⟨network, isNetwork, _⟩ := completes.network
  obtain ⟨network', isNetwork', _⟩ := others.network
  have left := stableIdentity_eq clusterUid serverUid nodeName role isNetwork
  have right := stableIdentity_eq clusterUid serverUid nodeName role isNetwork'
  have lookups : Json.Same (.obj (marker.set "network" (.obj (network.erase "version"))))
      (.obj (wanted.set "network" (.obj (network'.erase "version")))) ↔
      ∀ field, (identifying spec field).map Json.canonical = (identifying other field).map Json.canonical := by
    rw [Json.same_obj_iff]
    simp only [completes.lookup isNetwork, others.lookup isNetwork']
  rw [← lookups, ← memberIdentity_same clusterUid serverUid nodeName role]
  constructor
  · intro ⟨stableLeft, stableRight, isLeft, isRight, same⟩
    cases left.symm.trans isLeft
    cases right.symm.trans isRight
    exact same
  · intro same
    exact ⟨_, _, left, right, same⟩

theorem settingsMatch_iff {installed expected : Object} : settingsMatch installed expected = true ↔
    ∀ field found, expected.get? field = some found → Json.Same (value installed field) found := by
  rw [settingsMatch, List.all_eq_true]
  constructor
  · intro every field found lookup
    have matching := of_decide_eq_true (every _ (Object.mem_of_get? lookup))
    rw [value_some lookup] at matching
    exact matching
  · intro every entry listed
    have present : hasLabel expected entry.1 = true := hasLabel_iff.mpr (List.mem_map_of_mem listed)
    obtain ⟨found, lookup⟩ := Option.isSome_iff_exists.mp present
    rw [value_some lookup]
    exact decide_eq_true (every entry.1 found lookup)

/-- The script compares the fields that the spec names, the network without its version. -/
theorem scriptAccepts_iff (completes : Completes marker spec) {network : Object}
    (isNetwork : value other "network" = .obj network) :
    ScriptAccepts (memberIdentity clusterUid serverUid nodeName role marker) (.obj other) ↔
      ∀ field, other.get? field ≠ none →
        Json.Same ((identifying spec field).getD .null) ((identifying other field).getD .null) := by
  obtain ⟨network', isNetwork', _⟩ := completes.network
  have settings : itemObject (memberIdentity clusterUid serverUid nodeName role marker) "settings" = .ok marker := rfl
  have installed : itemObject marker "network" = .ok network' := by
    have stored : marker.get? "network" = some (.obj network') := by
      cases found : marker.get? "network" with
      | none =>
          rw [value, found] at isNetwork'
          cases isNetwork'
      | some stored =>
          rw [value_some found] at isNetwork'
          rw [isNetwork']
    rw [itemObject, item, stored]
    rfl
  have named (field : String) (present : other.get? field ≠ none) :
      (other.set "network" (.obj (network.erase "version"))).get? field = identifying other field := by
    rw [Object.get?_set, identifying, isNetwork, Json.fields]
    by_cases same : field = "network"
    · rw [if_pos same.symm, if_pos same]
    · rw [if_neg (Ne.symm same), if_neg same]
      cases found : other.get? field with
      | none => exact absurd found present
      | some stored => rfl
  have absent (field : String) (missing : other.get? field = none) :
      (other.set "network" (.obj (network.erase "version"))).get? field = none := by
    rw [Object.get?_set]
    by_cases same : "network" = field
    · rw [value, same, missing] at isNetwork
      cases isNetwork
    · rw [if_neg same, missing]
  rw [ScriptAccepts, checkInstalled, stableSettings, jsonObject, ok_bind_eq, isNetwork, jsonObject, ok_bind_eq, pure_bind,
    installedSettings, settings, ok_bind_eq, installed, ok_bind_eq, pure_bind, demand_iff, settingsMatch_iff,
    withoutVersion_eq, withoutVersion_eq]
  constructor
  · intro every field present
    have stored := named field present
    cases found : identifying other field with
    | none =>
        exfalso
        cases lookup : other.get? field with
        | none => exact present lookup
        | some kept =>
            rw [identifying, lookup] at found
            split at found <;> cases found
    | some kept =>
        have same := every field kept (stored.trans found)
        rw [value, completes.lookup isNetwork'] at same
        exact same
  · intro every field found lookup
    have present : other.get? field ≠ none := by
      intro missing
      rw [absent field missing] at lookup
      cases lookup
    have same := every field present
    rw [named field present] at lookup
    rw [lookup] at same
    rw [value, completes.lookup isNetwork']
    exact same

/-! ## When they agree -/

/-- A field that the other spec names has another value. -/
def Changes (spec other : Object) : Prop :=
  ∃ field, other.get? field ≠ none ∧
    ¬ Json.Same ((identifying spec field).getD .null) ((identifying other field).getD .null)

/-- The spec contributes nothing to the fields that the other leaves out or sets to null,
but what completes the other too. -/
def Covered (spec other : Object) : Prop :=
  ∀ field, value other field = .null →
    (identifying spec field).map Json.canonical = (identifying other field).map Json.canonical

/-- The specs differ in nothing but the Flannel version. -/
def OnlyFlannel (spec other : Object) : Prop :=
  (∀ field, field ≠ "network" → (spec.get? field).map Json.canonical = (other.get? field).map Json.canonical) ∧
    ∀ field, field ≠ "version" → ((value spec "network").fields.get? field).map Json.canonical =
      ((value other "network").fields.get? field).map Json.canonical

theorem OnlyFlannel.identifying (same : OnlyFlannel spec other) (field : String) :
    (identifying spec field).map Json.canonical = (identifying other field).map Json.canonical := by
  unfold RunnerKubernetes.identifying
  by_cases network : field = "network"
  · rw [if_pos network, if_pos network, Option.map_some, Option.map_some]
    refine congrArg some (Json.same_obj_iff.mpr fun key => ?_)
    by_cases version : key = "version"
    · rw [version, Object.get?_erase_self, Object.get?_erase_self]
    · rw [Object.get?_erase_ne _ (Ne.symm version), Object.get?_erase_ne _ (Ne.symm version)]
      exact same.2 key version
  · rw [if_neg network, if_neg network, Option.map_or, Option.map_or, same.1 field network]

theorem same_of_lookups {left right : Option Json} (same : left.map Json.canonical = right.map Json.canonical) :
    Json.Same (left.getD .null) (right.getD .null) := by
  cases left with
  | none =>
      cases right with
      | none => rfl
      | some _ => cases same
  | some _ =>
      cases right with
      | none => cases same
      | some _ => exact Option.some.inj same

theorem lookups_of_same {left right : Option Json} {found : Json} (kept : right = some found) (notNull : found ≠ .null)
    (same : Json.Same (left.getD .null) (right.getD .null)) : left.map Json.canonical = right.map Json.canonical := by
  subst kept
  cases left with
  | none => exact absurd (Json.same_null.mp same.symm) notNull
  | some _ => exact congrArg some same

theorem identifying_present {field : String} (notNull : value other field ≠ .null) :
    ∃ found, RunnerKubernetes.identifying other field = some found ∧ found ≠ .null := by
  unfold RunnerKubernetes.identifying
  by_cases network : field = "network"
  · rw [if_pos network]
    exact ⟨_, rfl, by simp⟩
  · rw [if_neg network]
    cases lookup : other.get? field with
    | none =>
        rw [value, lookup] at notNull
        exact absurd rfl notNull
    | some stored =>
        rw [value, lookup] at notNull
        exact ⟨stored, rfl, notNull⟩

/-- The script and the role agree on a marker exactly when a field that the spec names has changed, or
none that it leaves out has; and both accept it when only the Flannel version differs. -/
theorem settings_checks_agree_iff {rawSpec rawOther : Json} (valid : validatedSettings rawSpec = .ok settings)
    (validOther : validatedSettings rawOther = .ok wanted) (marked : Marked settings marker) :
    ((ScriptAccepts (memberIdentity clusterUid serverUid nodeName role marker) rawOther ↔
        IdentityMatches (memberIdentity clusterUid serverUid nodeName role marker)
          (memberIdentity clusterUid serverUid nodeName role wanted)) ↔
      Changes rawSpec.fields rawOther.fields ∨ Covered rawSpec.fields rawOther.fields) ∧
    (OnlyFlannel rawSpec.fields rawOther.fields →
      ScriptAccepts (memberIdentity clusterUid serverUid nodeName role marker) rawOther ∧
        IdentityMatches (memberIdentity clusterUid serverUid nodeName role marker)
          (memberIdentity clusterUid serverUid nodeName role wanted)) := by
  obtain ⟨spec, rfl, completes, _⟩ := validated_completes valid
  obtain ⟨other, rfl, others, network, isNetwork⟩ := validated_completes validOther
  have completes := completes.marked marked
  rw [scriptAccepts_iff clusterUid serverUid nodeName role completes isNetwork,
    identityMatches_iff clusterUid serverUid nodeName role completes others]
  simp only [Json.fields]
  have weaker (every : ∀ field, (identifying spec field).map Json.canonical =
      (identifying other field).map Json.canonical) (field : String) (_ : Object.get? other field ≠ none) :
      Json.Same ((identifying spec field).getD .null) ((identifying other field).getD .null) :=
    same_of_lookups (every field)
  constructor
  · constructor
    · intro agree
      by_cases changed : Changes spec other
      · exact .inl changed
      · refine .inr fun field _ => ?_
        apply agree.mp
        intro field present
        by_contra different
        exact changed ⟨field, present, different⟩
    · intro condition
      constructor
      · intro accepted field
        cases condition with
        | inl changed =>
            obtain ⟨field, present, different⟩ := changed
            exact absurd (accepted field present) different
        | inr covered =>
            by_cases null : value other field = .null
            · exact covered field null
            · have present : Object.get? other field ≠ none := by
                intro missing
                exact null (by rw [value, missing]; rfl)
              obtain ⟨found, kept, notNull⟩ := identifying_present null
              exact lookups_of_same kept notNull (accepted field present)
      · exact weaker
  · intro same
    exact ⟨weaker same.identifying, same.identifying⟩

/-! ### A cluster with another Flannel release, and one with a pin less -/

def flannelSpec (flannel : String) (pins : Object) : Object :=
  [("kubernetesVersion", .str "1.33.1"), ("containerdVersion", .str "2.1.0"),
    ("network", .obj [("provider", .str "flannel"), ("version", .str flannel)]), ("podCIDR", .str "10.244.0.0/16"),
    ("serviceCIDR", .str "10.96.0.0/12"), ("controlPlaneEndpoint", .str "10.0.0.1:6443")] ++ pins

def recorded (settings : Object) : Object :=
  memberIdentity (.str "cluster-1") (.str "server-1") (.str "main") (.str "control-plane") settings

theorem flannel_upgrade_agrees : ∃ settings wanted, validatedSettings (.obj (flannelSpec "0.26.7" [])) = .ok settings ∧
    validatedSettings (.obj (flannelSpec "0.27.0" [])) = .ok wanted ∧
    ScriptAccepts (recorded settings) (.obj (flannelSpec "0.27.0" [])) ∧ IdentityMatches (recorded settings) (recorded wanted) := by
  have decided : (validatedSettings (.obj (flannelSpec "0.26.7" []))).toOption.isSome = true ∧
      (validatedSettings (.obj (flannelSpec "0.27.0" []))).toOption.isSome = true := by decide +kernel
  obtain ⟨settings, found⟩ := Option.isSome_iff_exists.mp decided.1
  obtain ⟨wanted, foundOther⟩ := Option.isSome_iff_exists.mp decided.2
  have valid := ok_of_toOption found
  have validOther := ok_of_toOption foundOther
  have released (flannel : String) : flannelSpec flannel [] = Object.set (flannelSpec "" []) "network"
      (.obj (Object.set [("provider", .str "flannel"), ("version", .null)] "version" (.str flannel))) := rfl
  have only : OnlyFlannel (Json.obj (flannelSpec "0.26.7" [])).fields (Json.obj (flannelSpec "0.27.0" [])).fields := by
    rw [Json.fields, Json.fields, released "0.26.7", released "0.27.0"]
    constructor
    · intro field other
      rw [Object.get?_set_ne _ _ (Ne.symm other), Object.get?_set_ne _ _ (Ne.symm other)]
    · intro field other
      rw [value, value, Object.get?_set_self, Object.get?_set_self, Option.getD_some, Option.getD_some, Json.fields,
        Json.fields, Object.get?_set_ne _ _ (Ne.symm other), Object.get?_set_ne _ _ (Ne.symm other)]
  have accepted := (settings_checks_agree_iff (.str "cluster-1") (.str "server-1") (.str "main") (.str "control-plane")
    valid validOther (.inl rfl)).2 only
  exact ⟨settings, wanted, valid, validOther, accepted⟩

/-- The script accepts a marker with a pin that the spec has dropped. -/
theorem dropped_pin_accepted : ∃ settings wanted,
    validatedSettings (.obj (flannelSpec "0.26.7" [("runcVersion", .str "1.5.1")])) = .ok settings ∧
      validatedSettings (.obj (flannelSpec "0.26.7" [])) = .ok wanted ∧
      ¬ (ScriptAccepts (recorded settings) (.obj (flannelSpec "0.26.7" [])) ↔
        IdentityMatches (recorded settings) (recorded wanted)) := by
  have decided : (validatedSettings (.obj (flannelSpec "0.26.7" [("runcVersion", .str "1.5.1")]))).toOption.any
      (fun settings => decide (checkInstalled (recorded settings) (.obj (flannelSpec "0.26.7" [])) = .ok ())) = true ∧
      (validatedSettings (.obj (flannelSpec "0.26.7" []))).toOption.isSome = true := by decide +kernel
  obtain ⟨settings, found, accepted⟩ := (Option.any_eq_true _ _).mp decided.1
  obtain ⟨wanted, foundOther⟩ := Option.isSome_iff_exists.mp decided.2
  refine ⟨settings, wanted, ok_of_toOption found, ok_of_toOption foundOther, fun agree => ?_⟩
  obtain ⟨spec, isSpec, completes, _⟩ := validated_completes (ok_of_toOption found)
  obtain ⟨other, isOther, others, _⟩ := validated_completes (ok_of_toOption foundOther)
  cases isSpec
  cases isOther
  rw [decide_eq_true_eq] at accepted
  have matching := (identityMatches_iff _ _ _ _ completes others).mp (agree.mp accepted)
  exact absurd (matching "runcVersion") (by decide +kernel)

end Comparisons

end RunnerKubernetes

end Homelab
