import Homelab.FilterPlugins.Agreement
import Homelab.FilterPlugins.Flannel

namespace Homelab.KubePlan

open Json (Object)

variable {sha256 : String → String} {plan settings : Object} {version configDigest : String}

/-! # The rollout of the Flannel release -/

theorem get?_of_value {fields : Object} {key : String} {found : Json} (read : value fields key = found)
    (other : found ≠ .null) : fields.get? key = some found := by
  unfold value at read
  cases stored : fields.get? key with
  | none =>
      rw [stored] at read
      exact absurd read.symm other
  | some inside =>
      rw [stored] at read
      exact congrArg some read

theorem valueOr_set_self (fields : Object) (key : String) (added default : Json) :
    valueOr (fields.set key added) key default = added := by
  rw [valueOr, Object.get?_set_self]
  rfl

theorem valueOr_set_ne {fields : Object} {key other : String} (different : key ≠ other) (added default : Json) :
    valueOr (fields.set key added) other default = valueOr fields other default := by
  rw [valueOr, valueOr, Object.get?_set_ne fields added different]

/-! ## Labels -/

theorem checkResource_congr {document final metadata after : Object} (kind : value final "kind" = value document "kind")
    (name : value after "name" = value metadata "name") (space : value after "namespace" = value metadata "namespace") :
    checkResource final after = checkResource document metadata := by
  rw [checkResource, checkResource, kind, name, space]

theorem labelResource_again {document labelled metadata final : Object}
    (made : labelResource document plan = .ok (labelled, metadata))
    (kind : value final "kind" = value labelled "kind") (kept : value final "metadata" = value labelled "metadata") :
    value labelled "metadata" = .obj metadata ∧ labelResource final plan = .ok (final, metadata) := by
  obtain ⟨_, known, made⟩ := bind_ok made
  obtain ⟨before, isMetadata, made⟩ := bind_ok made
  obtain ⟨_, checked, made⟩ := bind_ok made
  obtain ⟨labels, areLabels, made⟩ := bind_ok made
  obtain ⟨uid, isUid, made⟩ := bind_ok made
  cases made
  have sameKind : value final "kind" = value document "kind" := by
    rw [kind, value_set_ne (by decide)]
  rw [value_set_self] at kept
  have stored := get?_of_value kept (by simp)
  refine ⟨value_set_self _ _ _, ?_⟩
  have again : checkResource final (before.set "labels" (.obj (labels.set clusterLabel uid))) = .ok () := by
    rw [checkResource_congr sameKind (value_set_ne (by decide) _) (value_set_ne (by decide) _)]
    exact checked
  rw [labelResource, sameKind, known, ok_bind_eq, kept, mapping_iff.mpr rfl, ok_bind_eq, again, ok_bind_eq,
    valueOr_set_self, mapping_iff.mpr rfl, ok_bind_eq, isUid, ok_bind_eq, Object.set_set, Object.set_set]
  exact congrArg (fun document => Except.ok (document, _)) (Object.set_get? _ _ stored)

/-! ## Configuration texts -/

theorem loadsMapping_dumps (fields : Object) (context : String) :
    loadsMapping (.str (Json.dumps (.obj fields))) context = .ok (Json.canonicalFields fields) := by
  rw [loadsMapping, text_iff.mpr ⟨rfl, Json.dumps_ne_empty _⟩, ok_bind_eq, Json.loads_dumps]
  rfl

/-- Setting what a text has already, or an equal value, does not change it. -/
theorem dumps_set {fields : Object} {key : String} {found replaced : Json} (lookup : fields.get? key = some found)
    (same : Json.Same replaced found) :
    Json.dumps (.obj ((Json.canonicalFields fields).set key replaced)) = Json.dumps (.obj fields) :=
  Json.dumps_eq_iff.mpr (Json.same_set lookup same)

theorem value_canonicalFields (fields : Object) (key : String) :
    value (Json.canonicalFields fields) key = (value fields key).canonical := by
  rw [value, value, Json.get?_canonicalFields]
  cases fields.get? key <;> rfl

theorem isFlannelPlugin_canonical (plugin : Object) :
    isFlannelPlugin (Json.canonicalFields plugin) = isFlannelPlugin plugin := by
  rw [isFlannelPlugin, isFlannelPlugin, value_canonicalFields]
  have same : (value plugin "type").canonical = .str "flannel" ↔ value plugin "type" = .str "flannel" :=
    Json.same_str
  rw [decide_eq_decide]
  exact same

theorem valueOr_canonicalFields {fields found : Object} {key : String} {default : Json}
    (lookup : fields.get? key = some (.obj found)) :
    valueOr (Json.canonicalFields fields) key default = .obj (Json.canonicalFields found) := by
  rw [valueOr, Json.get?_canonicalFields, lookup]
  rfl

theorem same_set_of {fields other : Object} {key : String} {value' found : Json}
    (same : Json.Same (.obj fields) (.obj other)) (lookup : other.get? key = some found)
    (equal : Json.Same value' found) : Json.Same (.obj (fields.set key value')) (.obj other) := by
  apply Json.same_obj_iff.mpr
  intro name
  rw [Object.get?_set]
  split
  · rename_i isKey
    subst isKey
    rw [lookup]
    exact congrArg some equal
  · exact same.get? name

theorem configureDelegate_again {plugin configured : Object} (made : configureDelegate plugin = .ok configured) :
    isFlannelPlugin configured = isFlannelPlugin plugin ∧ ∃ again,
      configureDelegate (Json.canonicalFields configured) = .ok again ∧ Json.Same (.obj again) (.obj configured) := by
  obtain ⟨delegate, isDelegate, made⟩ := bind_ok made
  obtain ⟨ipam, isIpam, made⟩ := bind_ok made
  have equal := Except.ok.inj made
  generalize bridge : delegate.set "forceAddress" (.bool true) = bridge' at equal
  generalize store : ipam.set "dataDir" (.str "/run/cni/flannel-networks") = store' at equal
  have hasBridge : configured.get? "delegate" = some (.obj bridge') := by
    rw [← equal, Object.get?_set_ne _ _ (by decide), Object.get?_set_self]
  have hasStore : configured.get? "ipam" = some (.obj store') := by
    rw [← equal, Object.get?_set_self]
  have forced : bridge'.get? "forceAddress" = some (.bool true) := by
    rw [← bridge, Object.get?_set_self]
  have placed : store'.get? "dataDir" = some (.str "/run/cni/flannel-networks") := by
    rw [← store, Object.get?_set_self]
  constructor
  · rw [isFlannelPlugin, isFlannelPlugin, ← equal, value_set_ne (by decide), value_set_ne (by decide)]
  · have first : Json.Same
        (.obj ((Json.canonicalFields configured).set "delegate" (.obj ((Json.canonicalFields bridge').set "forceAddress" (.bool true)))))
        (.obj configured) := Json.same_set hasBridge (Json.same_set forced (.refl _))
    have second := same_set_of first hasStore (Json.same_set placed (.refl _))
    refine ⟨_, ?_, second⟩
    rw [configureDelegate, valueOr_canonicalFields hasBridge, mapping_iff.mpr rfl, ok_bind_eq]
    dsimp only
    rw [valueOr_set_ne (by decide), valueOr_canonicalFields hasStore, mapping_iff.mpr rfl]
    rfl

/-- A configured plugin is read, in its canonical form, as one that needs no change. -/
theorem configurePlugin_again {plugin : Object} {configured : Json} (made : configurePlugin plugin = .ok configured) :
    ∃ fields again, configured = .obj fields ∧ isFlannelPlugin (Json.canonicalFields fields) = isFlannelPlugin plugin ∧
      configurePlugin (Json.canonicalFields fields) = .ok again ∧ Json.Same again configured := by
  unfold configurePlugin at made
  split at made
  · rename_i flannel
    obtain ⟨fields, delegated, made⟩ := bind_ok made
    cases made
    obtain ⟨type, again, redone, same⟩ := configureDelegate_again delegated
    have stays : isFlannelPlugin (Json.canonicalFields fields) = isFlannelPlugin plugin := by
      rw [isFlannelPlugin_canonical, type]
    refine ⟨fields, .obj again, rfl, stays, ?_, same⟩
    rw [configurePlugin, stays, if_pos flannel, redone]
    rfl
  · rename_i other
    cases made
    refine ⟨plugin, .obj (Json.canonicalFields plugin), rfl, isFlannelPlugin_canonical plugin, ?_, ?_⟩
    · rw [configurePlugin, isFlannelPlugin_canonical, if_neg other]
      rfl
    · exact Json.same_canonical (.obj plugin)

theorem configurePlugins_again {plugins : List Object} {configured : List Json}
    (made : plugins.mapM configurePlugin = .ok configured) : ∃ read again,
      (Json.canonicalItems configured).mapM (fun plugin => mapping plugin "CNI plugin") = .ok read ∧
      read.countP isFlannelPlugin = plugins.countP isFlannelPlugin ∧
      read.mapM configurePlugin = .ok again ∧ Json.Same (.arr again) (.arr configured) := by
  rw [mapM_ok] at made
  induction made with
  | nil => exact ⟨[], [], rfl, rfl, rfl, .refl _⟩
  | cons first _ ih =>
      obtain ⟨fields, again, shape, type, redone, same⟩ := configurePlugin_again first
      obtain ⟨others, later, read, count, settled, alike⟩ := ih
      refine ⟨Json.canonicalFields fields :: others, again :: later, ?_, ?_, ?_, ?_⟩
      · rw [mapM_ok] at read ⊢
        rw [shape]
        exact .cons rfl read
      · rw [List.countP_cons, List.countP_cons, count, type]
      · rw [mapM_ok] at settled ⊢
        exact .cons redone settled
      · rw [Json.same_arr_iff] at alike ⊢
        exact .cons same alike

theorem configureFlannelCni_again {data configured : Object}
    (made : configureFlannelCni sha256 data = .ok (configured, configDigest)) :
    (∀ key, key ≠ "cni-conf.json" → configured.get? key = data.get? key) ∧
      configDigest = sha256 (Json.dumps (.obj configured)) ∧
      configureFlannelCni sha256 configured = .ok (configured, configDigest) := by
  obtain ⟨config, _, made⟩ := bind_ok made
  obtain ⟨listed, _, made⟩ := bind_ok made
  obtain ⟨plugins, _, made⟩ := bind_ok made
  obtain ⟨_, one, made⟩ := bind_ok made
  obtain ⟨delegated, isDelegated, made⟩ := bind_ok made
  obtain ⟨read, again, isRead, count, redone, same⟩ := configurePlugins_again isDelegated
  have pair := Prod.mk.inj (Except.ok.inj made)
  generalize plugged : config.set "plugins" (.arr delegated) = written at pair
  have hasPlugins : written.get? "plugins" = some (.arr delegated) := by
    rw [← plugged, Object.get?_set_self]
  obtain ⟨isConfigured, isDigest⟩ := pair
  have stored : configured.get? "cni-conf.json" = some (.str (Json.dumps (.obj written))) := by
    rw [← isConfigured, Object.get?_set_self]
  rw [isConfigured] at isDigest
  refine ⟨?_, isDigest.symm, ?_⟩
  · intro key other
    rw [← isConfigured, Object.get?_set_ne _ _ (Ne.symm other)]
  · have isList : value (Json.canonicalFields written) "plugins" = .arr (Json.canonicalItems delegated) := by
      rw [value_canonicalFields, value_some hasPlugins]
      rfl
    rw [configureFlannelCni, value_some stored, loadsMapping_dumps, ok_bind_eq, isList, list_iff.mpr rfl, ok_bind_eq,
      isRead, ok_bind_eq, count, one, ok_bind_eq, redone, ok_bind_eq, dumps_set hasPlugins same,
      Object.set_get? _ _ stored, ← isDigest]
    rfl

theorem configureNetwork_again {document configured final : Object}
    (made : configureNetwork sha256 document settings = .ok (configured, configDigest))
    (kept : value final "data" = value configured "data") : ∃ data : Object,
      value configured "data" = .obj data ∧ configDigest = sha256 (Json.dumps (.obj data)) ∧
      (∀ key, key ≠ "data" → value configured key = value document key) ∧
      configureNetwork sha256 final settings = .ok (final, configDigest) := by
  obtain ⟨before, _, made⟩ := bind_ok made
  obtain ⟨config, _, made⟩ := bind_ok made
  obtain ⟨network, isNetwork, made⟩ := bind_ok made
  obtain ⟨⟨data, found⟩, cni, made⟩ := bind_ok made
  cases made
  obtain ⟨others, isDigest, again⟩ := configureFlannelCni_again cni
  have hasNetwork : (config.set "Network" network).get? "Network" = some network := Object.get?_set_self _ _
  have stored : data.get? "net-conf.json" = some (.str (Json.dumps (.obj (config.set "Network" network)))) := by
    rw [others _ (by decide), Object.get?_set_self]
  refine ⟨data, value_set_self _ _ _, isDigest, fun key other => value_set_ne (Ne.symm other) _, ?_⟩
  rw [value_set_self] at kept
  rw [configureNetwork, kept, mapping_iff.mpr rfl, ok_bind_eq, value_some stored, loadsMapping_dumps, ok_bind_eq,
    isNetwork, ok_bind_eq, dumps_set hasNetwork (.refl _), Object.set_get? _ _ stored]
  dsimp only
  rw [again, ok_bind_eq]
  exact congrArg (fun document => Except.ok (document, _)) (Object.set_get? _ _ (get?_of_value kept (by simp)))

/-! ## Container environments -/

theorem keptEntries_again {environment kept overrides : List Json} (made : keptEntries environment = .ok kept)
    (dropped : keptEntries overrides = .ok []) : keptEntries (kept ++ overrides) = .ok kept := by
  induction environment generalizing kept with
  | nil =>
      cases made
      exact dropped
  | cons raw rest ih =>
      obtain ⟨stays, isStays, made⟩ := bind_ok made
      obtain ⟨others, made', made⟩ := bind_ok made
      cases stays with
      | false =>
          cases made
          exact ih made'
      | true =>
          cases made
          rw [if_pos rfl, List.cons_append, keptEntries, isStays, ok_bind_eq, ih made']
          rfl

theorem keptEntries_overrides (host port : String) : keptEntries (overrideEntries host port) = .ok [] := rfl

theorem overrideContainer_again {host port : String} {raw overridden : Json}
    (made : overrideContainer host port raw = .ok overridden) : ∃ container after : Object, raw = .obj container ∧
      overridden = .obj after ∧ value after "image" = value container "image" ∧
      overrideContainer host port overridden = .ok overridden := by
  obtain ⟨container, isContainer, made⟩ := bind_ok made
  obtain ⟨environment, _, made⟩ := bind_ok made
  obtain ⟨kept, areKept, made⟩ := bind_ok made
  cases made
  refine ⟨container, _, mapping_ok isContainer, rfl, value_set_ne (by decide) _, ?_⟩
  rw [overrideContainer, mapping_iff.mpr rfl, ok_bind_eq, valueOr_set_self, list_iff.mpr rfl, ok_bind_eq,
    keptEntries_again areKept (keptEntries_overrides host port), ok_bind_eq, Object.set_set]
  rfl

theorem overrideContainers_again {host port : String} {containers overridden : List Json}
    (made : List.Forall₂ (fun raw after => overrideContainer host port raw = .ok after) containers overridden) :
    overridden.mapM (overrideContainer host port) = .ok overridden := by
  rw [mapM_ok]
  induction made with
  | nil => exact .nil
  | cons first _ ih =>
      obtain ⟨_, _, _, _, _, redone⟩ := overrideContainer_again first
      exact .cons redone ih

theorem anyImage_overridden {host port suffix : String} {containers overridden : List Json}
    (made : List.Forall₂ (fun raw after => overrideContainer host port raw = .ok after) containers overridden) :
    anyImage suffix overridden = anyImage suffix containers := by
  induction made with
  | nil => rfl
  | cons first _ ih =>
      obtain ⟨container, after, isContainer, isAfter, image, _⟩ := overrideContainer_again first
      rw [isContainer, isAfter, anyImage, anyImage, mapping_iff.mpr rfl, mapping_iff.mpr rfl, ok_bind_eq, ok_bind_eq,
        image, ih]

/-! ## DaemonSets -/

/-- The template of a DaemonSet has the annotation. -/
structure Annotated (document : Object) (configDigest : String) : Prop where
  reached : ∃ spec template metadata annotations : Object, value document "spec" = .obj spec ∧
    value spec "template" = .obj template ∧ value template "metadata" = .obj metadata ∧
    value metadata "annotations" = .obj annotations ∧ value annotations rolloutAnnotation = .str configDigest

/-- What a change of the template leaves of a DaemonSet. -/
structure Retemplated (document final : Object) (version : String) : Prop where
  others : ∀ key, key ≠ "spec" → value final key = value document key
  image : flannelDaemonMatches final version = flannelDaemonMatches document version

theorem flannelDaemonMatches_eq {document spec template : Object} (isSpec : value document "spec" = .obj spec)
    (isTemplate : value spec "template" = .obj template) :
    flannelDaemonMatches document version = podContainers template >>= anyImage (":v" ++ version) := by
  rw [flannelDaemonMatches, podTemplate, isSpec, mapping_iff.mpr rfl, ok_bind_eq, isTemplate, mapping_iff.mpr rfl]
  rfl

theorem annotateCniRollout_annotated {document annotated : Object}
    (made : annotateCniRollout document configDigest = .ok annotated) (version : String) :
    Annotated annotated configDigest ∧ Retemplated document annotated version := by
  obtain ⟨spec, isSpec, made⟩ := bind_ok made
  obtain ⟨template, isTemplate, made⟩ := bind_ok made
  obtain ⟨metadata, _, made⟩ := bind_ok made
  obtain ⟨annotations, _, made⟩ := bind_ok made
  cases made
  refine ⟨⟨_, _, _, _, value_set_self _ _ _, value_set_self _ _ _, value_set_self _ _ _, value_set_self _ _ _,
    value_set_self _ _ _⟩, fun key other => value_set_ne (Ne.symm other) _, ?_⟩
  rw [flannelDaemonMatches_eq (value_set_self _ _ _) (value_set_self _ _ _),
    flannelDaemonMatches_eq (mapping_ok isSpec) (mapping_ok isTemplate), podContainers, podContainers,
    value_set_ne (by decide)]

theorem annotateCniRollout_again {document : Object} (annotated : Annotated document configDigest) :
    annotateCniRollout document configDigest = .ok document := by
  obtain ⟨spec, template, metadata, annotations, isSpec, isTemplate, isMetadata, areAnnotations, isDigest⟩ :=
    annotated.reached
  rw [annotateCniRollout, isSpec, mapping_iff.mpr rfl, ok_bind_eq, isTemplate, mapping_iff.mpr rfl, ok_bind_eq,
    valueOr_of_value isMetadata (by simp), mapping_iff.mpr rfl, ok_bind_eq,
    valueOr_of_value areAnnotations (by simp), mapping_iff.mpr rfl, ok_bind_eq,
    Object.set_get? _ _ (get?_of_value isDigest (by simp))]
  dsimp only
  rw [Object.set_get? _ _ (get?_of_value areAnnotations (by simp)),
    Object.set_get? _ _ (get?_of_value isMetadata (by simp)),
    Object.set_get? _ _ (get?_of_value isTemplate (by simp)), Object.set_get? _ _ (get?_of_value isSpec (by simp))]
  rfl

theorem useDirectApiEndpoint_again {document final : Object} {endpoint : String}
    (made : useDirectApiEndpoint document endpoint = .ok final) (annotated : Annotated document configDigest)
    (version : String) : Annotated final configDigest ∧ Retemplated document final version ∧
      useDirectApiEndpoint final endpoint = .ok final := by
  unfold useDirectApiEndpoint at made ⊢
  generalize (rpartition endpoint).getD ("", endpoint) = parts at made ⊢
  obtain ⟨host, port⟩ := parts
  obtain ⟨spec, isSpec, made⟩ := bind_ok made
  obtain ⟨template, isTemplate, made⟩ := bind_ok made
  obtain ⟨pod, isPod, made⟩ := bind_ok made
  obtain ⟨containers, areContainers, made⟩ := bind_ok made
  obtain ⟨overridden, replaced, made⟩ := bind_ok made
  cases made
  rw [mapM_ok] at replaced
  obtain ⟨spec', template', metadata, annotations, isSpec', isTemplate', isMetadata, areAnnotations, isDigest⟩ :=
    annotated.reached
  cases (mapping_ok isSpec).symm.trans isSpec'
  cases (mapping_ok isTemplate).symm.trans isTemplate'
  refine ⟨⟨_, _, metadata, annotations, value_set_self _ _ _, value_set_self _ _ _, ?_, areAnnotations, isDigest⟩,
    ⟨fun key other => value_set_ne (Ne.symm other) _, ?_⟩, ?_⟩
  · rw [value_set_ne (by decide), isMetadata]
  · rw [flannelDaemonMatches_eq (value_set_self _ _ _) (value_set_self _ _ _),
      flannelDaemonMatches_eq (mapping_ok isSpec) (mapping_ok isTemplate), podContainers, podContainers,
      value_set_self, mapping_iff.mpr rfl, isPod, ok_bind_eq, ok_bind_eq, areContainers, value_set_self,
      list_iff.mpr rfl, ok_bind_eq, ok_bind_eq, anyImage_overridden replaced]
  · dsimp only
    rw [value_set_self, mapping_iff.mpr rfl, ok_bind_eq, value_set_self, mapping_iff.mpr rfl, ok_bind_eq,
      value_set_self, mapping_iff.mpr rfl, ok_bind_eq, value_set_self, list_iff.mpr rfl, ok_bind_eq,
      overrideContainers_again replaced, ok_bind_eq]
    simp only [Object.set_set]
    rfl

/-- A rolled document keeps all that the first loop reads, and needs no second change. -/
theorem rollResource_again {document : Object} {rolled : Json} (version : String)
    (made : rollResource plan settings configDigest document = .ok rolled) : ∃ final : Object, rolled = .obj final ∧
      rollResource plan settings configDigest final = .ok rolled ∧ Retemplated document final version ∧
      (isDaemonSet document = true → Annotated final configDigest) ∧ (isDaemonSet document = false → final = document) := by
  cases daemon : isDaemonSet document with
  | false =>
      rw [rollResource, daemon, if_neg (by decide)] at made
      cases made
      refine ⟨document, rfl, ?_, ⟨fun _ _ => rfl, rfl⟩, (fun isDaemon => by cases isDaemon), fun _ => rfl⟩
      rw [rollResource, daemon, if_neg (by decide)]
      rfl
  | true =>
      rw [rollResource, daemon, if_pos rfl] at made
      obtain ⟨annotated, isAnnotated, made⟩ := bind_ok made
      obtain ⟨holds, kept⟩ := annotateCniRollout_annotated isAnnotated version
      split at made
      · rename_i direct
        obtain ⟨endpoint, isEndpoint, made⟩ := bind_ok made
        obtain ⟨final, isFinal, made⟩ := bind_ok made
        cases made
        obtain ⟨holds', kept', again⟩ := useDirectApiEndpoint_again isFinal holds version
        have others : ∀ key, key ≠ "spec" → value final key = value document key :=
          fun key other => (kept'.others key other).trans (kept.others key other)
        have stays : isDaemonSet final = true := by
          rw [isDaemonSet, others _ (by decide)]
          exact daemon
        refine ⟨final, rfl, ?_, ⟨others, kept'.image.trans kept.image⟩, fun _ => holds', fun other => by cases other⟩
        rw [rollResource, stays, if_pos rfl, annotateCniRollout_again holds', ok_bind_eq, if_pos direct, isEndpoint,
          ok_bind_eq, again]
        rfl
      · rename_i indirect
        cases made
        have stays : isDaemonSet annotated = true := by
          rw [isDaemonSet, kept.others _ (by decide)]
          exact daemon
        refine ⟨annotated, rfl, ?_, kept, fun _ => holds, fun other => by cases other⟩
        rw [rollResource, stays, if_pos rfl, annotateCniRollout_again holds, ok_bind_eq, if_neg indirect]
        rfl

/-! ## The first loop -/

/-- What one document adds to the first loop: itself, perhaps a digest, perhaps an image check. -/
structure Contribution where
  document : Object
  configDigest : Option String
  foundDaemon : Option Bool

def Contribution.after (contribution : Contribution) (before : Adaptation) : Adaptation :=
  ⟨before.documents ++ [contribution.document], contribution.configDigest.getD before.configDigest,
    contribution.foundDaemon.getD before.foundDaemon⟩

/-- How a document and what it adds belong together. -/
structure Adapts (sha256 : String → String) (plan settings : Object) (version : String) (raw : Json)
    (contribution : Contribution) : Prop where
  made : ∃ document labelled metadata : Object, raw = .obj document ∧
    labelResource document plan = .ok (labelled, metadata) ∧
    (if isFlannelConfig labelled metadata then
      ∃ configDigest, contribution.configDigest = some configDigest ∧
        configureNetwork sha256 labelled settings = .ok (contribution.document, configDigest)
    else contribution.configDigest = none ∧ contribution.document = labelled) ∧
    (if isDaemonSet contribution.document then
      ∃ found, contribution.foundDaemon = some found ∧ flannelDaemonMatches contribution.document version = .ok found
    else contribution.foundDaemon = none)

theorem adaptResource_iff {raw : Json} {before after : Adaptation} :
    adaptResource sha256 plan settings version raw before = .ok after ↔
      ∃ contribution, Adapts sha256 plan settings version raw contribution ∧ after = contribution.after before := by
  constructor
  · intro made
    obtain ⟨document, isDocument, made⟩ := bind_ok made
    obtain ⟨⟨labelled, metadata⟩, isLabelled, made⟩ := bind_ok made
    obtain ⟨⟨configured, configDigest⟩, isConfigured, made⟩ := bind_ok made
    obtain ⟨foundDaemon, isFound, made⟩ := bind_ok made
    cases made
    refine ⟨⟨configured, if isFlannelConfig labelled metadata then some configDigest else none,
      if isDaemonSet configured then some foundDaemon else none⟩,
      ⟨document, labelled, metadata, mapping_ok isDocument, isLabelled, ?_, ?_⟩, ?_⟩
    · unfold configureResource at isConfigured
      split at isConfigured
      · rename_i config
        rw [if_pos config]
        exact ⟨configDigest, if_pos config, isConfigured⟩
      · rename_i other
        rw [if_neg other]
        cases isConfigured
        exact ⟨if_neg other, rfl⟩
    · unfold checkDaemon at isFound
      split at isFound
      · rename_i daemon
        rw [if_pos daemon]
        exact ⟨foundDaemon, if_pos daemon, isFound⟩
      · rename_i other
        rw [if_neg other]
        exact if_neg other
    · unfold configureResource at isConfigured
      unfold checkDaemon at isFound
      rw [Contribution.after]
      congr 1
      · split at isConfigured
        · rename_i config
          rw [if_pos config]
          rfl
        · rename_i other
          cases isConfigured
          rw [if_neg other]
          rfl
      · split at isFound
        · rename_i daemon
          rw [if_pos daemon]
          rfl
        · rename_i other
          cases isFound
          rw [if_neg other]
          rfl
  · intro ⟨contribution, ⟨document, labelled, metadata, isDocument, isLabelled, configured, daemon⟩, isAfter⟩
    obtain ⟨final, digest, found⟩ := contribution
    dsimp only at configured daemon
    have second : checkDaemon final version before.foundDaemon = .ok (found.getD before.foundDaemon) := by
      unfold checkDaemon
      split at daemon
      · rename_i daemonSet
        obtain ⟨matching, isFound, checked⟩ := daemon
        rw [if_pos daemonSet, isFound, checked]
        rfl
      · rename_i other
        rw [if_neg other, daemon]
        rfl
    have first : configureResource sha256 settings labelled metadata before.configDigest =
        .ok (final, digest.getD before.configDigest) := by
      unfold configureResource
      split at configured
      · rename_i config
        obtain ⟨configDigest, isDigest, made⟩ := configured
        rw [if_pos config, made, isDigest]
        rfl
      · rename_i other
        obtain ⟨isDigest, isFinal⟩ := configured
        rw [if_neg other, isDigest, isFinal]
        rfl
    rw [adaptResource, isDocument, mapping_iff.mpr rfl, ok_bind_eq, isLabelled, ok_bind_eq]
    dsimp only
    rw [first, ok_bind_eq]
    dsimp only
    rw [second, isAfter]
    rfl

def contributed (contributions : List Contribution) (before : Adaptation) : Adaptation :=
  contributions.foldl (fun state contribution => contribution.after state) before

theorem adaptResources_iff {listed : List Json} {before after : Adaptation} :
    adaptResources sha256 plan settings version listed before = .ok after ↔
      ∃ contributions, List.Forall₂ (Adapts sha256 plan settings version) listed contributions ∧
        after = contributed contributions before := by
  induction listed generalizing before with
  | nil =>
      constructor
      · intro made
        cases made
        exact ⟨[], .nil, rfl⟩
      · intro ⟨contributions, each, isAfter⟩
        cases each
        rw [isAfter]
        rfl
  | cons raw rest ih =>
      constructor
      · intro made
        obtain ⟨next, first, made⟩ := bind_ok made
        obtain ⟨contribution, adds, isNext⟩ := adaptResource_iff.mp first
        obtain ⟨others, each, isAfter⟩ := ih.mp made
        refine ⟨contribution :: others, .cons adds each, ?_⟩
        rw [isAfter, isNext]
        rfl
      · intro ⟨contributions, each, isAfter⟩
        cases each with
        | cons adds each =>
            rw [adaptResources, adaptResource_iff.mpr ⟨_, adds, rfl⟩, ok_bind_eq]
            exact ih.mpr ⟨_, each, isAfter⟩

theorem contributed_documents (contributions : List Contribution) (before : Adaptation) :
    (contributed contributions before).documents = before.documents ++ contributions.map Contribution.document := by
  induction contributions generalizing before with
  | nil => simp [contributed]
  | cons contribution rest ih =>
      have step := ih (contribution.after before)
      simpa [contributed, Contribution.after] using step

/-- The data of a document that configures the network. -/
def networkData (item : Json) : Option Json :=
  if isFlannelConfig item.fields (value item.fields "metadata").fields then some (value item.fields "data") else none

/-- A document with its contribution, once rolled, adds the same again. -/
theorem adapts_again {raw rolled : Json} {contribution : Contribution}
    (contributes : Adapts sha256 plan settings version raw contribution)
    (made : rollResource plan settings configDigest contribution.document = .ok rolled) : ∃ final : Object,
      rolled = .obj final ∧ rollResource plan settings configDigest final = .ok rolled ∧
      Adapts sha256 plan settings version rolled { contribution with document := final } ∧
      contribution.configDigest = (networkData rolled).map (fun data => sha256 (Json.dumps data)) ∧
      (isDaemonSet final = true → Annotated final configDigest) := by
  obtain ⟨document, labelled, metadata, isDocument, isLabelled, configured, daemon⟩ := contributes.made
  obtain ⟨final, isFinal, again, kept, annotated, unchanged⟩ := rollResource_again version made
  have outside : ∀ key, key ≠ "data" → value contribution.document key = value labelled key := by
    intro key other
    split at configured
    · obtain ⟨_, _, network⟩ := configured
      obtain ⟨_, _, _, frame, _⟩ := configureNetwork_again network rfl
      exact frame key other
    · rw [configured.2]
  have kind : value final "kind" = value labelled "kind" :=
    (kept.others _ (by decide)).trans (outside _ (by decide))
  have metadataKept : value final "metadata" = value labelled "metadata" :=
    (kept.others _ (by decide)).trans (outside _ (by decide))
  obtain ⟨isMetadata, relabelled⟩ := labelResource_again isLabelled kind metadataKept
  have config : isFlannelConfig final metadata = isFlannelConfig labelled metadata := by
    rw [isFlannelConfig, isFlannelConfig, kind]
  have daemonSet : isDaemonSet final = isDaemonSet contribution.document := by
    rw [isDaemonSet, isDaemonSet, kept.others _ (by decide)]
  have data : networkData rolled =
      if isFlannelConfig labelled metadata then some (value contribution.document "data") else none := by
    rw [networkData, isFinal]
    show (if isFlannelConfig final (value final "metadata").fields then some (value final "data") else none) = _
    rw [metadataKept, isMetadata, ← config, kept.others "data" (by decide)]
    rfl
  refine ⟨final, isFinal, again, ⟨final, final, metadata, isFinal, relabelled, ?_, ?_⟩, ?_, ?_⟩
  · rw [config]
    split at configured
    · rename_i isConfig
      obtain ⟨digest, isDigest, network⟩ := configured
      obtain ⟨_, _, _, _, settled⟩ := configureNetwork_again network (kept.others "data" (by decide))
      rw [if_pos isConfig]
      exact ⟨digest, isDigest, settled⟩
    · rename_i other
      rw [if_neg other]
      exact ⟨configured.1, rfl⟩
  · show if isDaemonSet final then _ else _
    rw [daemonSet, kept.image]
    exact daemon
  · rw [data]
    split at configured
    · rename_i isConfig
      obtain ⟨digest, isDigest, network⟩ := configured
      obtain ⟨fields, isData, isHash, _, _⟩ := configureNetwork_again network rfl
      rw [if_pos isConfig, isDigest, isData, isHash]
      rfl
    · rename_i other
      rw [if_neg other, configured.1]
      rfl
  · intro isDaemon
    exact annotated (daemonSet.symm.trans isDaemon)

/-- The same over the whole list, for the items that the second loop makes of it. -/
theorem contributions_again {listed items : List Json} {contributions : List Contribution}
    (contributes : List.Forall₂ (Adapts sha256 plan settings version) listed contributions)
    (made : (contributions.map Contribution.document).mapM (rollResource plan settings configDigest) = .ok items) :
    ∃ again, List.Forall₂ (Adapts sha256 plan settings version) items again ∧
      (again.map Contribution.document).mapM (rollResource plan settings configDigest) = .ok items ∧
      again.map Contribution.configDigest = contributions.map Contribution.configDigest ∧
      again.map Contribution.foundDaemon = contributions.map Contribution.foundDaemon ∧
      items.map (fun item => (networkData item).map fun data => sha256 (Json.dumps data)) =
        contributions.map Contribution.configDigest ∧
      items = again.map (fun contribution => .obj contribution.document) ∧
      ∀ contribution ∈ again, isDaemonSet contribution.document = true → Annotated contribution.document configDigest := by
  rw [mapM_ok] at made
  induction contributes generalizing items with
  | nil =>
      cases made
      exact ⟨[], .nil, rfl, rfl, rfl, rfl, rfl, fun contribution listed => by cases listed⟩
  | cons first _ ih =>
      cases made with
      | cons rolled others =>
          obtain ⟨final, isFinal, redone, adds, digest, annotated⟩ := adapts_again first rolled
          obtain ⟨again, each, settled, digests, checks, data, shape, rolledOut⟩ := ih others
          refine ⟨_ :: again, .cons adds each, ?_, ?_, ?_, ?_, ?_, ?_⟩
          · rw [mapM_ok] at settled ⊢
            exact .cons redone settled
          · rw [List.map_cons, List.map_cons, digests]
          · rw [List.map_cons, List.map_cons, checks]
          · rw [List.map_cons, List.map_cons, data, digest]
          · rw [List.map_cons, isFinal, shape]
          · intro contribution listed
            cases List.mem_cons.mp listed with
            | inl same =>
                rw [same]
                exact annotated
            | inr later => exact rolledOut contribution later

/-- Digest and image check depend on what the documents add, not on the documents. -/
theorem contributed_congr {left right : List Contribution}
    (digests : left.map Contribution.configDigest = right.map Contribution.configDigest)
    (checks : left.map Contribution.foundDaemon = right.map Contribution.foundDaemon) {first second : Adaptation}
    (sameDigest : first.configDigest = second.configDigest) (sameCheck : first.foundDaemon = second.foundDaemon) :
    (contributed left first).configDigest = (contributed right second).configDigest ∧
      (contributed left first).foundDaemon = (contributed right second).foundDaemon := by
  induction left generalizing right first second with
  | nil =>
      cases right with
      | nil => exact ⟨sameDigest, sameCheck⟩
      | cons contribution rest => cases digests
  | cons contribution rest ih =>
      cases right with
      | nil => cases digests
      | cons contribution' rest' =>
          obtain ⟨digest, digests⟩ := List.cons.inj digests
          obtain ⟨check, checks⟩ := List.cons.inj checks
          apply ih digests checks
          · show contribution.configDigest.getD _ = contribution'.configDigest.getD _
            rw [digest, sameDigest]
          · show contribution.foundDaemon.getD _ = contribution'.foundDaemon.getD _
            rw [check, sameCheck]

theorem contributed_digest (contributions : List Contribution) (before : Adaptation) :
    (contributed contributions before).configDigest =
      ((contributions.filterMap Contribution.configDigest).getLast?).getD before.configDigest := by
  induction contributions generalizing before with
  | nil => rfl
  | cons contribution rest ih =>
      have step : (contributed (contribution :: rest) before).configDigest =
          ((rest.filterMap Contribution.configDigest).getLast?).getD
            (contribution.configDigest.getD before.configDigest) := ih (contribution.after before)
      rw [step]
      cases digest : contribution.configDigest with
      | none => rw [List.filterMap_cons_none digest, Option.getD_none]
      | some added => rw [List.filterMap_cons_some digest, List.getLast?_cons, Option.getD_some, Option.getD_some]

theorem contributed_check {contributions : List Contribution} {before : Adaptation}
    (found : (contributed contributions before).foundDaemon = true) :
    before.foundDaemon = true ∨ ∃ contribution ∈ contributions, contribution.foundDaemon.isSome = true := by
  induction contributions generalizing before with
  | nil => exact .inl found
  | cons contribution rest ih =>
      cases ih found with
      | inl here =>
          cases check : contribution.foundDaemon with
          | none =>
              have unchanged : (contribution.after before).foundDaemon = before.foundDaemon := by
                show contribution.foundDaemon.getD before.foundDaemon = _
                rw [check]
                rfl
              exact .inl (unchanged.symm.trans here)
          | some value => exact .inr ⟨contribution, List.mem_cons_self, by rw [check]; rfl⟩
      | inr later =>
          obtain ⟨other, listed, isSome⟩ := later
          exact .inr ⟨other, List.mem_cons_of_mem _ listed, isSome⟩

/-! ## Whole applications -/

/-- The data of the last document that configures the network. -/
def emittedData (items : List Json) : Option Json := (items.filterMap networkData).getLast?

def daemonSets (items : List Json) : List Json := items.filter fun item => isDaemonSet item.fields

/-- What a DaemonSet has under the annotation of its template. -/
def rolloutDigest (item : Json) : Json :=
  let template := (value (value item.fields "spec").fields "template").fields
  value (value (value template "metadata").fields "annotations").fields rolloutAnnotation

theorem rolloutDigest_annotated {document : Object} (annotated : Annotated document configDigest) :
    rolloutDigest (.obj document) = .str configDigest := by
  obtain ⟨spec, template, metadata, annotations, isSpec, isTemplate, isMetadata, areAnnotations, isDigest⟩ :=
    annotated.reached
  show value (value (value (value (value document "spec").fields "template").fields "metadata").fields
    "annotations").fields rolloutAnnotation = _
  rw [isSpec, Json.fields, isTemplate, Json.fields, isMetadata, Json.fields, areAnnotations, Json.fields, isDigest]

/-- What a successful application shows: its own stability, and the annotation of its DaemonSets. -/
structure Applied (sha256 : String → String) (rawPlan : Json) (result : Object) (items : List Json) : Prop where
  again : flannelObjects sha256 (.arr items) rawPlan = .ok result
  emitted : ∃ data, emittedData items = some data ∧
    ∀ item ∈ daemonSets items, rolloutDigest item = .str (sha256 (Json.dumps data))
  daemon : ∃ item, item ∈ daemonSets items

theorem flannelObjects_applied {rawDocuments rawPlan : Json} {result : Object}
    (made : flannelObjects sha256 rawDocuments rawPlan = .ok result) :
    ∃ items, value result "items" = .arr items ∧ Applied sha256 rawPlan result items := by
  obtain ⟨plan, isPlan, made⟩ := bind_ok made
  obtain ⟨settings, areSettings, made⟩ := bind_ok made
  obtain ⟨network, isNetwork, made⟩ := bind_ok made
  obtain ⟨version, isVersion, made⟩ := bind_ok made
  obtain ⟨listed, _, made⟩ := bind_ok made
  obtain ⟨adapted, adapts, made⟩ := bind_ok made
  obtain ⟨_, checked, made⟩ := bind_ok made
  obtain ⟨items, rolled, made⟩ := bind_ok made
  obtain ⟨contributions, contributes, isAdapted⟩ := adaptResources_iff.mp adapts
  have documents : adapted.documents = contributions.map Contribution.document := by
    rw [isAdapted, contributed_documents]
    rfl
  rw [documents] at rolled
  obtain ⟨again, each, settled, digests, checks, data, shape, rolledOut⟩ := contributions_again contributes rolled
  obtain ⟨sameDigest, sameCheck⟩ := contributed_congr digests checks (rfl : noAdaptation.configDigest = _) rfl
  have readapted : adaptResources sha256 plan settings version items noAdaptation =
      .ok (contributed again noAdaptation) := adaptResources_iff.mpr ⟨again, each, rfl⟩
  have redocuments : (contributed again noAdaptation).documents = again.map Contribution.document :=
    contributed_documents again noAdaptation
  have passed := demand_ok checked
  simp only [Bool.and_eq_true, decide_eq_true_eq] at passed
  obtain ⟨nonempty, found⟩ := passed
  cases made
  refine ⟨items, rfl, ?_, ?_, ?_⟩
  · rw [flannelObjects, isPlan, ok_bind_eq, areSettings, ok_bind_eq, isNetwork, ok_bind_eq, isVersion, ok_bind_eq,
      list_iff.mpr rfl, ok_bind_eq, readapted, ok_bind_eq, sameDigest, sameCheck, ← isAdapted, checked, ok_bind_eq,
      redocuments, settled]
    rfl
  · have hashes : contributions.filterMap Contribution.configDigest =
        (items.filterMap networkData).map fun data => sha256 (Json.dumps data) := by
      rw [List.map_filterMap]
      have flat := congrArg (List.filterMap id) data
      simpa only [List.filterMap_map, Function.id_comp] using flat.symm
    have last := contributed_digest contributions noAdaptation
    rw [← isAdapted, hashes, List.getLast?_map] at last
    cases emitted : emittedData items with
    | none =>
        rw [show (items.filterMap networkData).getLast? = none from emitted] at last
        exact absurd last nonempty
    | some document =>
        rw [show (items.filterMap networkData).getLast? = some document from emitted] at last
        refine ⟨document, rfl, ?_⟩
        intro item listed
        obtain ⟨member, isDaemon⟩ := List.mem_filter.mp listed
        rw [shape] at member
        obtain ⟨contribution, added, isItem⟩ := List.mem_map.mp member
        subst isItem
        rw [rolloutDigest_annotated (rolledOut contribution added isDaemon), last]
        rfl
  · rw [← show (contributed again noAdaptation).foundDaemon = adapted.foundDaemon by rw [sameCheck, isAdapted]] at found
    cases contributed_check found with
    | inl before => cases before
    | inr after =>
        obtain ⟨contribution, added, checkedImage⟩ := after
        obtain ⟨item, _, contributes⟩ := mem_right each added
        obtain ⟨_, _, _, _, _, _, daemon⟩ := contributes.made
        refine ⟨.obj contribution.document, List.mem_filter.mpr ⟨?_, ?_⟩⟩
        · rw [shape]
          exact List.mem_map.mpr ⟨contribution, added, rfl⟩
        · split at daemon
          · rename_i isDaemon
            exact isDaemon
          · rw [daemon] at checkedImage
            cases checkedImage

/-- A second application changes nothing, and two applications annotate alike
when they emit equal data for the network, and only then. -/
theorem flannel_objects_roll_with_data {sha256 : String → String} (injective : Function.Injective sha256) :
    (∀ rawDocuments rawPlan result, flannelObjects sha256 rawDocuments rawPlan = .ok result →
      flannelObjects sha256 (value result "items") rawPlan = .ok result) ∧
    ∀ rawDocuments rawPlan result rawDocuments' rawPlan' result',
      flannelObjects sha256 rawDocuments rawPlan = .ok result →
      flannelObjects sha256 rawDocuments' rawPlan' = .ok result' →
      ∃ items items' data data', value result "items" = .arr items ∧ value result' "items" = .arr items' ∧
        emittedData items = some data ∧ emittedData items' = some data' ∧
        daemonSets items ≠ [] ∧ daemonSets items' ≠ [] ∧
        ∀ daemon ∈ daemonSets items, ∀ daemon' ∈ daemonSets items',
          (rolloutDigest daemon = rolloutDigest daemon' ↔ Json.Same data data') := by
  constructor
  · intro rawDocuments rawPlan result made
    obtain ⟨items, areItems, applied⟩ := flannelObjects_applied made
    rw [areItems]
    exact applied.again
  · intro rawDocuments rawPlan result rawDocuments' rawPlan' result' made made'
    obtain ⟨items, areItems, applied⟩ := flannelObjects_applied made
    obtain ⟨items', areItems', applied'⟩ := flannelObjects_applied made'
    obtain ⟨data, emitted, digests⟩ := applied.emitted
    obtain ⟨data', emitted', digests'⟩ := applied'.emitted
    obtain ⟨found, listed⟩ := applied.daemon
    obtain ⟨found', listed'⟩ := applied'.daemon
    refine ⟨items, items', data, data', areItems, areItems', emitted, emitted', List.ne_nil_of_mem listed,
      List.ne_nil_of_mem listed', ?_⟩
    intro daemon isDaemon daemon' isDaemon'
    rw [digests daemon isDaemon, digests' daemon' isDaemon', ← Json.dumps_eq_iff]
    constructor
    · intro same
      exact injective (Json.str.inj same)
    · intro same
      rw [same]

/-! ### A release with one network and one DaemonSet -/

def flannelConfig : Json := .obj [
  ("kind", .str "ConfigMap"),
  ("metadata", .obj [("name", .str "kube-flannel-cfg"), ("namespace", .str "kube-flannel")]),
  ("data", .obj [("net-conf.json", .str "\x7b\x7d"),
    ("cni-conf.json", .str "\x7b\"plugins\":[\x7b\"type\":\"flannel\"\x7d]\x7d")])]

def flannelDaemon : Json := .obj [
  ("kind", .str "DaemonSet"),
  ("metadata", .obj [("name", .str "kube-flannel-ds"), ("namespace", .str "kube-flannel")]),
  ("spec", .obj [("template", .obj [("spec", .obj [("containers",
    .arr [.obj [("image", .str "flannel:v0.28.10")]])])])])]

def flannelPlan (network : String) : Json := .obj [
  ("uid", .str "c1"),
  ("settings", .obj [("network", .obj [("version", .str "0.28.10")]), ("podCIDR", .str network),
    ("controlPlaneEndpoint", .str "10.0.0.1:6443")])]

def flannelRelease : Json := .arr [flannelConfig, flannelDaemon]

/-- The digests of the two texts below; no other text has one of them. -/
def digestOf (text : String) : String :=
  if text = "\x7b\"cni-conf.json\": \"\x7b\\\"plugins\\\": [\x7b\\\"delegate\\\": \x7b\\\"forceAddress\\\": true\x7d, \\\"ipam\\\": \x7b\\\"dataDir\\\": \\\"/run/cni/flannel-networks\\\"\x7d, \\\"type\\\": \\\"flannel\\\"\x7d]\x7d\", \"net-conf.json\": \"\x7b\\\"Network\\\": \\\"172.28.0.0/16\\\"\x7d\"\x7d" then
    "f50550675c8ef6bef6d2350e95c49b58248433c2fefcb32c6c643ccb48369bc5"
  else if text = "\x7b\"cni-conf.json\": \"\x7b\\\"plugins\\\": [\x7b\\\"delegate\\\": \x7b\\\"forceAddress\\\": true\x7d, \\\"ipam\\\": \x7b\\\"dataDir\\\": \\\"/run/cni/flannel-networks\\\"\x7d, \\\"type\\\": \\\"flannel\\\"\x7d]\x7d\", \"net-conf.json\": \"\x7b\\\"Network\\\": \\\"10.244.0.0/16\\\"\x7d\"\x7d" then
    "79d5368922fc86e6344ee0df879704acbfab60fbba66cf555cf4fc7b403f95d3"
  else "-" ++ text

theorem digestOf_injective : Function.Injective digestOf := by
  have first (text : String) : ("-" ++ text).toList.head? = some '-' := by simp
  intro left right same
  unfold digestOf at same
  split at same
  · rename_i isLeft
    split at same
    · rename_i isRight
      exact isLeft.trans isRight.symm
    · split at same
      · exact absurd same (by decide)
      · have head := first right
        rw [← same] at head
        exact absurd head (by decide)
  · split at same
    · rename_i isLeft
      split at same
      · exact absurd same (by decide)
      · split at same
        · rename_i isRight
          exact isLeft.trans isRight.symm
        · have head := first right
          rw [← same] at head
          exact absurd head (by decide)
    · split at same
      · have head := first left
        rw [same] at head
        exact absurd head (by decide)
      · split at same
        · have head := first left
          rw [same] at head
          exact absurd head (by decide)
        · have texts := congrArg String.toList same
          simp only [String.toList_append, List.append_cancel_left_eq] at texts
          exact String.toList_inj.mp texts

def applicationData (network : String) : Option Json :=
  match flannelObjects digestOf flannelRelease (flannelPlan network) with
  | .ok result =>
      match value result "items" with
      | .arr items => emittedData items
      | _ => none
  | .error _ => none

theorem applicationData_some {network : String} {data : Json} (found : applicationData network = some data) :
    ∃ result items, flannelObjects digestOf flannelRelease (flannelPlan network) = .ok result ∧
      value result "items" = .arr items ∧ emittedData items = some data := by
  unfold applicationData at found
  split at found
  · rename_i result made
    split at found
    · rename_i items areItems
      exact ⟨result, items, made, areItems, found⟩
    · cases found
  · cases found

theorem other_pod_network_rolls : ∃ result result' items items',
    flannelObjects digestOf flannelRelease (flannelPlan "172.28.0.0/16") = .ok result ∧
    flannelObjects digestOf flannelRelease (flannelPlan "10.244.0.0/16") = .ok result' ∧
    flannelObjects digestOf (value result "items") (flannelPlan "172.28.0.0/16") = .ok result ∧
    value result "items" = .arr items ∧ value result' "items" = .arr items' ∧
    ∀ daemon ∈ daemonSets items, ∀ daemon' ∈ daemonSets items', rolloutDigest daemon ≠ rolloutDigest daemon' := by
  have facts : (applicationData "172.28.0.0/16").any (fun data =>
      (applicationData "10.244.0.0/16").any fun data' => !decide (Json.Same data data')) = true := by decide +kernel
  obtain ⟨data, first, facts⟩ := (Option.any_eq_true _ _).mp facts
  obtain ⟨data', second, facts⟩ := (Option.any_eq_true _ _).mp facts
  obtain ⟨result, items, made, areItems, emitted⟩ := applicationData_some first
  obtain ⟨result', items', made', areItems', emitted'⟩ := applicationData_some second
  obtain ⟨again, rolls⟩ := flannel_objects_roll_with_data digestOf_injective
  obtain ⟨others, others', found, found', areOthers, areOthers', isFound, isFound', _, _, iff⟩ :=
    rolls _ _ _ _ _ _ made made'
  cases areItems.symm.trans areOthers
  cases areItems'.symm.trans areOthers'
  cases emitted.symm.trans isFound
  cases emitted'.symm.trans isFound'
  refine ⟨result, result', items, items', made, made', again _ _ _ made, areItems, areItems', ?_⟩
  intro daemon isDaemon daemon' isDaemon' same
  have alike := (iff daemon isDaemon daemon' isDaemon').mp same
  rw [decide_eq_true alike] at facts
  cases facts

end Homelab.KubePlan
