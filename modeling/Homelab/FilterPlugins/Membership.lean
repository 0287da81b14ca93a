import Mathlib.Data.List.Nodup
import Homelab.FilterPlugins.LabelPatch

namespace Homelab.KubePlan

open Json (Object)

/-! # Observation, verification and repair of the same Nodes -/

/-! ## Indexed Nodes and members -/

theorem set_absent {fields : Object} {key : String} (absent : hasLabel fields key = false) (added : Json) :
    fields.set key added = fields ++ [(key, added)] := by
  induction fields with
  | nil => rfl
  | cons entry rest ih =>
      obtain ⟨name, old⟩ := entry
      by_cases same : name = key
      · simp [hasLabel, same] at absent
      · have later : hasLabel rest key = false := by simpa [hasLabel, same] using absent
        rw [Object.set, if_neg same, ih later, List.cons_append]

theorem hasLabel_iff {fields : Object} {key : String} : hasLabel fields key = true ↔ key ∈ fields.map Prod.fst := by
  induction fields with
  | nil => simp [hasLabel]
  | cons entry rest ih =>
      obtain ⟨name, old⟩ := entry
      by_cases same : name = key
      · simp [hasLabel, same]
      · rw [List.map_cons, List.mem_cons, ← ih]
        simp [hasLabel, same, Ne.symm same]

theorem set_distinct {fields : Object} (distinct : (fields.map Prod.fst).Nodup) (key : String) (added : Json) :
    ((fields.set key added).map Prod.fst).Nodup := by
  cases present : hasLabel fields key with
  | false =>
      rw [set_absent present, List.map_append, List.nodup_append]
      refine ⟨distinct, by simp, ?_⟩
      intro left listed right last same
      cases List.mem_singleton.mp last
      rw [same, ← hasLabel_iff, present] at listed
      cases listed
  | true =>
      have keys : (fields.set key added).map Prod.fst = fields.map Prod.fst := by
        clear distinct
        induction fields with
        | nil => cases present
        | cons entry rest ih =>
            obtain ⟨name, old⟩ := entry
            by_cases same : name = key
            · simp [Object.set, same]
            · have later : hasLabel rest key = true := by simpa [hasLabel, same] using present
              rw [Object.set, if_neg same, List.map_cons, List.map_cons, ih later]
      rw [keys]
      exact distinct

/-- A listed document is a Node with a name. -/
structure Named (raw : Json) (name : String) (node metadata : Object) : Prop where
  isNode : raw = .obj node
  isMetadata : value node "metadata" = .obj metadata
  named : value metadata "name" = .str name
  nonempty : name ≠ ""

def IndexedAs (raw : Json) (entry : String × Object) : Prop := ∃ metadata, Named raw entry.1 entry.2 metadata

def index (entries : List (String × Object)) : Object := entries.map fun entry => (entry.1, .obj entry.2)

theorem indexNodes_ok {items : List Json} {actual final : Object} (indexed : indexNodes items actual = .ok final)
    (distinct : (actual.map Prod.fst).Nodup) :
    ∃ entries, List.Forall₂ IndexedAs items entries ∧ final = actual ++ index entries ∧
      (final.map Prod.fst).Nodup := by
  induction items generalizing actual with
  | nil =>
      cases indexed
      exact ⟨[], .nil, by simp [index], distinct⟩
  | cons raw rest ih =>
      obtain ⟨node, isNode, indexed⟩ := bind_ok indexed
      obtain ⟨metadata, isMetadata, indexed⟩ := bind_ok indexed
      obtain ⟨name, isName, indexed⟩ := bind_ok indexed
      obtain ⟨_, fresh, indexed⟩ := bind_ok indexed
      have fresh : hasLabel actual name = false := by simpa using demand_ok fresh
      obtain ⟨entries, listed, same, final⟩ := ih indexed (set_distinct distinct name (.obj node))
      rw [set_absent fresh] at same
      have isText := text_ok isName
      refine ⟨(name, node) :: entries, .cons ⟨metadata, ⟨mapping_ok isNode, mapping_ok isMetadata, isText.1,
        isText.2⟩⟩ listed, ?_, final⟩
      rw [same, List.append_assoc]
      rfl

theorem indexMembers_distinct {memberContext nameContext : String} {members : List Json} {indexed final : Object}
    (collected : indexMembers memberContext nameContext members indexed = .ok final)
    (distinct : (indexed.map Prod.fst).Nodup) : (final.map Prod.fst).Nodup := by
  induction members generalizing indexed with
  | nil =>
      cases collected
      exact distinct
  | cons raw rest ih =>
      obtain ⟨member, _, collected⟩ := bind_ok collected
      obtain ⟨name, _, collected⟩ := bind_ok collected
      exact ih collected (set_distinct distinct name (.obj member))

/-- The contexts only name what is wrong. -/
theorem indexMembers_context {memberContext nameContext : String} (otherMember otherName : String)
    {members : List Json} {indexed final : Object}
    (collected : indexMembers memberContext nameContext members indexed = .ok final) :
    indexMembers otherMember otherName members indexed = .ok final := by
  induction members generalizing indexed with
  | nil => exact collected
  | cons raw rest ih =>
      obtain ⟨member, isMember, collected⟩ := bind_ok collected
      obtain ⟨name, isName, collected⟩ := bind_ok collected
      have isMember : mapping raw otherMember = .ok member := mapping_iff.mpr (mapping_ok isMember)
      have isName : text (value member "nodeName") otherName = .ok name := text_iff.mpr (text_ok isName)
      rw [indexMembers, isMember, ok_bind_eq, isName, ok_bind_eq]
      exact ih collected

theorem anyReady_context {context : String} (other : String) {conditions : List Json} {ready : Bool}
    (searched : anyReady context conditions = .ok ready) : anyReady other conditions = .ok ready := by
  induction conditions with
  | nil => exact searched
  | cons raw rest ih =>
      obtain ⟨condition, isCondition, searched⟩ := bind_ok searched
      have isCondition : mapping raw other = .ok condition := mapping_iff.mpr (mapping_ok isCondition)
      rw [anyReady, isCondition, ok_bind_eq]
      split at searched
      · rename_i found
        rw [if_pos found]
        exact searched
      · rename_i found
        rw [if_neg found]
        exact ih searched

/-! ## What an observation says -/

/-- A listed Node that stands for a member of the plan. -/
structure Stands (expected : Object) (items : List Json) (name : String) (member node metadata : Object) : Prop where
  selected : expected.get? name = some (.obj member)
  listed : .obj node ∈ items
  isMetadata : value node "metadata" = .obj metadata
  named : value metadata "name" = .str name

/-- The observation of one Node. -/
def Observes (plan expected actual : Object) (name : String) (entry : String × Bool × Bool) : Prop :=
  entry.1 = name ∧ ∃ node member, actual.get? name = some (.obj node) ∧ expected.get? name = some (.obj member) ∧
    observeNode plan member node = .ok entry.2

theorem observeEach_ok {plan expected actual : Object} {names : List String} {observed : List (String × Bool × Bool)}
    (done : observeEach plan expected actual names = .ok observed) :
    List.Forall₂ (Observes plan expected actual) names observed := by
  induction names generalizing observed with
  | nil =>
      cases done
      exact .nil
  | cons name rest ih =>
      obtain ⟨node, isNode, done⟩ := bind_ok done
      obtain ⟨member, isMember, done⟩ := bind_ok done
      obtain ⟨entry, observes, done⟩ := bind_ok done
      obtain ⟨later, remaining, done⟩ := bind_ok done
      cases done
      exact .cons ⟨rfl, node, member, itemObject_ok isNode, itemObject_ok isMember, observes⟩ (ih remaining)

/-- What membership observation has read. -/
structure Observed (rawPlan rawResponse : Json) (observation plan expected : Object) (items : List Json)
    (entries : List (String × Object)) (observed : List (String × Bool × Bool)) : Prop where
  isPlan : rawPlan = .obj plan
  byName : membersByName rawPlan = .ok expected
  isResponse : ∃ response, rawResponse = .obj response ∧ value response "items" = .arr items
  indexed : List.Forall₂ IndexedAs items entries
  distinct : ((index entries).map Prod.fst).Nodup
  observes : List.Forall₂ (Observes plan expected (index entries))
    (sortedNames ((expected.map Prod.fst).filter fun name => hasLabel (index entries) name)) observed
  ready : observation.get? "ready" = some (.bool
    ((sortedNames ((expected.map Prod.fst).filter fun name => !hasLabel (index entries) name)).isEmpty &&
      (sortedNames (((index entries).map Prod.fst).filter fun name => !hasLabel expected name)).isEmpty &&
      ((observed.filter fun entry => !entry.2.2).map Prod.fst).isEmpty &&
      ((observed.filter fun entry => entry.2.1).map Prod.fst).isEmpty))
  conflicts : observation.get? "identityConflicts" =
    some (nameList ((observed.filter fun entry => entry.2.1).map Prod.fst))

theorem membershipObservation_ok {rawPlan rawResponse : Json} {observation : Object}
    (done : membershipObservation rawPlan rawResponse = .ok observation) :
    ∃ plan expected items entries observed,
      Observed rawPlan rawResponse observation plan expected items entries observed := by
  obtain ⟨expected, byName, done⟩ := bind_ok done
  obtain ⟨response, isResponse, done⟩ := bind_ok done
  obtain ⟨items, isList, done⟩ := bind_ok done
  obtain ⟨actual, indexed, done⟩ := bind_ok done
  obtain ⟨plan, isPlan, done⟩ := bind_ok done
  obtain ⟨observed, observes, done⟩ := bind_ok done
  cases done
  obtain ⟨entries, listed, same, distinct⟩ := indexNodes_ok indexed .nil
  rw [List.nil_append] at same
  subst same
  exact ⟨plan, expected, items, entries, observed, mapping_ok isPlan, byName,
    ⟨response, mapping_ok isResponse, list_iff.mp isList⟩, listed, distinct, observeEach_ok observes, rfl, rfl⟩

theorem observeNode_ok {plan member node : Object} {conflict ready : Bool}
    (done : observeNode plan member node = .ok (conflict, ready)) :
    ∃ metadata labels desired status conditions, value node "metadata" = .obj metadata ∧
      valueOr metadata "labels" (.obj []) = .obj labels ∧ desiredLabels plan member = .ok desired ∧
      valueOr node "status" (.obj []) = .obj status ∧ valueOr status "conditions" (.arr []) = .arr conditions ∧
      anyReady "Node condition" conditions = .ok ready ∧ conflict = drifts desired labels := by
  obtain ⟨metadata, isMetadata, done⟩ := bind_ok done
  obtain ⟨labels, isLabels, done⟩ := bind_ok done
  obtain ⟨desired, wanted, done⟩ := bind_ok done
  obtain ⟨status, isStatus, done⟩ := bind_ok done
  obtain ⟨conditions, isList, done⟩ := bind_ok done
  obtain ⟨found, searched, done⟩ := bind_ok done
  cases done
  exact ⟨metadata, labels, desired, status, conditions, mapping_ok isMetadata, mapping_ok isLabels, wanted,
    mapping_ok isStatus, list_iff.mp isList, searched, rfl⟩

/-- A name among the identity conflicts. -/
def Conflicts (observation : Object) (name : String) : Prop :=
  ∃ names, observation.get? "identityConflicts" = some (.arr names) ∧ .str name ∈ names

section Observed

variable {rawPlan rawResponse : Json} {observation plan expected : Object} {items : List Json}
  {entries : List (String × Object)} {observed : List (String × Bool × Bool)}
  (seen : Observed rawPlan rawResponse observation plan expected items entries observed)

include seen

/-- A Node that stands for a member is the one indexed under its name. -/
theorem Observed.indexes {name : String} {member node metadata : Object}
    (stands : Stands expected items name member node metadata) :
    (index entries).get? name = some (.obj node) := by
  obtain ⟨entry, listed, metadata', named⟩ := mem_left seen.indexed stands.listed
  have isNode := named.isNode
  cases isNode
  cases stands.isMetadata.symm.trans named.isMetadata
  cases stands.named.symm.trans named.named
  have member : (entry.1, Json.obj entry.2) ∈ index entries := List.mem_map_of_mem (f := fun entry => (entry.1, Json.obj entry.2)) listed
  exact Object.get?_of_mem seen.distinct member

/-- Whatever is indexed under the name of a member stands for it. -/
theorem Observed.stands {name : String} {member node : Object}
    (found : (index entries).get? name = some (.obj node)) (selected : expected.get? name = some (.obj member)) :
    ∃ metadata, Stands expected items name member node metadata := by
  obtain ⟨entry, inside, same⟩ := List.mem_map.mp (Object.mem_of_get? found)
  cases same
  obtain ⟨raw, listed, metadata, named⟩ := mem_right seen.indexed inside
  rw [named.isNode] at listed
  exact ⟨metadata, selected, listed, named.isMetadata, named.named⟩

/-- The observation of a Node that stands for a member. -/
theorem Observed.observed_of_stands {name : String} {member node metadata : Object}
    (stands : Stands expected items name member node metadata) :
    ∃ entry ∈ observed, entry.1 = name ∧ observeNode plan member node = .ok entry.2 := by
  have present : hasLabel (index entries) name = true := by
    rw [hasLabel, seen.indexes stands]
    rfl
  have known : name ∈ expected.map Prod.fst := by
    rw [← hasLabel_iff, hasLabel, stands.selected]
    rfl
  have listed : name ∈ sortedNames ((expected.map Prod.fst).filter fun name => hasLabel (index entries) name) := by
    rw [sortedNames, List.mem_insertionSort, List.mem_filter]
    exact ⟨known, present⟩
  obtain ⟨entry, member', isName, node', member'', found, selected, observes⟩ := mem_left seen.observes listed
  rw [seen.indexes stands] at found
  rw [stands.selected] at selected
  cases found
  cases selected
  exact ⟨entry, member', isName, observes⟩

/-- Every entry of an observation is about a Node that stands for a member. -/
theorem Observed.stands_of_observed {entry : String × Bool × Bool} (listed : entry ∈ observed) :
    ∃ member node metadata, Stands expected items entry.1 member node metadata ∧
      observeNode plan member node = .ok entry.2 := by
  obtain ⟨name, _, isName, node, member, found, selected, observes⟩ := mem_right seen.observes listed
  subst isName
  obtain ⟨metadata, stands⟩ := seen.stands found selected
  exact ⟨member, node, metadata, stands, observes⟩

/-- The name of a Node that stands for a member is among the conflicts exactly
when the Node drifts from its labels. -/
theorem Observed.conflict_iff {name : String} {member node metadata labels desired : Object}
    (stands : Stands expected items name member node metadata)
    (labelled : valueOr metadata "labels" (.obj []) = .obj labels)
    (wanted : desiredLabels plan member = .ok desired) :
    Conflicts observation name ↔ drifts desired labels = true := by
  have decided {conflict ready : Bool} (observes : observeNode plan member node = .ok (conflict, ready)) :
      conflict = drifts desired labels := by
    obtain ⟨_, _, _, _, _, isMetadata, isLabels, isDesired, _, _, _, same⟩ := observeNode_ok observes
    cases stands.isMetadata.symm.trans isMetadata
    cases labelled.symm.trans isLabels
    cases Except.ok.inj (wanted.symm.trans isDesired)
    exact same
  constructor
  · intro ⟨names, found, listed⟩
    rw [seen.conflicts] at found
    cases found
    obtain ⟨other, listed, isName⟩ := List.mem_map.mp listed
    cases isName
    obtain ⟨entry, member', isName⟩ := List.mem_map.mp listed
    obtain ⟨inside, conflict⟩ := List.mem_filter.mp member'
    obtain ⟨member'', node', metadata', stands', observes⟩ := seen.stands_of_observed inside
    rw [isName] at stands'
    cases stands.selected.symm.trans stands'.selected
    cases (seen.indexes stands).symm.trans (seen.indexes stands')
    rw [← decided observes]
    exact conflict
  · intro drifting
    obtain ⟨entry, listed, isName, observes⟩ := seen.observed_of_stands stands
    refine ⟨_, seen.conflicts, List.mem_map_of_mem (f := Json.str) (List.mem_map.mpr ⟨entry, ?_, isName⟩)⟩
    rw [List.mem_filter]
    exact ⟨listed, (decided observes).trans drifting⟩

end Observed

/-! ## What registration makes of the same Node -/

def refusal : Exn := valueError "Refusing to adopt a Node owned by another Server or cluster"

/-- Registration refuses to adopt the Node or has labels to change. -/
def Flags (rawPlan : Json) (request : Object) : Prop :=
  registrationAction rawPlan (.obj request) = .error refusal ∨
    ∃ result, registrationAction rawPlan (.obj request) = .ok result ∧
      result.get? "labelsChanged" = some (.bool true)

/-- The only internal address of a Node. -/
def OnlyAddress (node : Object) (address : Json) : Prop :=
  ∃ status addresses internals, valueOr node "status" (.obj []) = .obj status ∧
    valueOr status "addresses" (.arr []) = .arr addresses ∧ internalAddresses addresses = .ok internals ∧
    Json.Same (.arr internals) (.arr [address])

/-- The registration request of a member about its present Node. -/
structure Requests (request : Object) (name : String) (member node : Object) (address : Json) : Prop where
  nodeName : value request "nodeName" = .str name
  serverUID : Json.Same (value member "uid") (value request "serverUID")
  role : Json.Same (value member "role") (value request "role")
  address : value request "address" = address
  node : value request "node" = .obj node

/-- A Node without a labels map has a resource version. -/
def HasVersion (metadata : Object) : Prop :=
  metadata.get? "labels" = none → ∃ version, value metadata "resourceVersion" = .str version ∧ version ≠ ""

/-- No identity label has another owner's value. -/
def Owned (desired labels : Object) : Prop :=
  checkOwner desired labels serverLabel = .ok () ∧ checkOwner desired labels clusterLabel = .ok ()

theorem owned_of_settled {plan member desired labels : Object} (wanted : desiredLabels plan member = .ok desired)
    (settled : drifts desired labels = false) : Owned desired labels := by
  obtain ⟨server, cluster, role, _, _, _, same⟩ := desiredLabels_ok wanted
  subst same
  rw [drifts, List.any_eq_false] at settled
  have first := settled (serverLabel, .str server) (by simp)
  have second := settled (clusterLabel, .str cluster) (by simp)
  have labels : serverLabel ≠ clusterLabel := by decide
  constructor
  · rw [checkOwner_iff]
    right
    simpa [value] using first
  · rw [checkOwner_iff]
    right
    simpa [value, labels] using second

theorem labelGuard_ok {metadata : Object} (labels : Object) (versioned : HasVersion metadata) :
    ∃ guarding, labelGuard metadata labels = .ok guarding := by
  unfold labelGuard
  cases present : metadata.get? "labels" with
  | some map => exact ⟨_, rfl⟩
  | none =>
      obtain ⟨version, stored, nonempty⟩ := versioned present
      have isText : text (value metadata "resourceVersion") "Node resource version" = .ok version :=
        text_iff.mpr ⟨stored, nonempty⟩
      simp only [isText, ok_bind_eq]
      exact ⟨_, rfl⟩

theorem text_error {found : Json} {context : String} (absent : ∀ name, found = .str name → name = "") :
    text found context = .error (valueError (context ++ " must be a nonempty string")) := by
  cases found with
  | str name => rw [text, if_pos (absent name rfl)]
  | _ => rfl

theorem labelGuard_error {metadata labels : Object} (unversioned : ¬ HasVersion metadata) :
    labelGuard metadata labels =
      .error (valueError ("Node resource version" ++ " must be a nonempty string")) := by
  unfold HasVersion at unversioned
  push Not at unversioned
  obtain ⟨absent, unversioned⟩ := unversioned
  unfold labelGuard
  rw [absent]
  simp only [text_error unversioned]
  rfl

section Flags

variable {plan request member node metadata labels desired : Object}

/-- A readable Node of the member, up to the checks of its owner. -/
structure Readable (plan request member node metadata labels desired : Object) : Prop where
  isMetadata : value node "metadata" = .obj metadata
  named : Json.Same (value metadata "name") (value request "nodeName")
  identified : holds metadata "uid" = true
  labelled : valueOr metadata "labels" (.obj []) = .obj labels
  wanted : desiredLabels plan member = .ok desired
  addressed : OnlyAddress node (value request "address")

variable (readable : Readable plan request member node metadata labels desired)

include readable

theorem Readable.repair : repairNode plan request member node = (do
    checkOwner desired labels serverLabel
    checkOwner desired labels clusterLabel
    let patch ← managedLabelPatch metadata desired (oppositeLabel member)
    return [("missing", .bool false),
      ("labelsChanged", .bool (drifts desired labels || hasLabel labels (oppositeLabel member))),
      ("labelPatch", .arr patch)]) := by
  obtain ⟨status, addresses, internals, isStatus, isList, read, addressed⟩ := readable.addressed
  simp [repairNode, readable.isMetadata, readable.named, readable.identified, readable.labelled, readable.wanted,
    isStatus, isList, read, addressed, mapping, list]

theorem Readable.patch : managedLabelPatch metadata desired (oppositeLabel member) = (do
    let guarding ← labelGuard metadata labels
    return testOperation "/metadata/uid" (value metadata "uid") :: guarding ++ labelAdditions desired ++
      labelRemovals labels (oppositeLabel member)) := by
  have identified := readable.identified
  cases stored : metadata.get? "uid" with
  | none =>
      rw [holds, stored] at identified
      cases identified
  | some uid => simp [managedLabelPatch, item, stored, value, readable.labelled, mapping]

/-- A foreign Node is refused. -/
theorem Readable.repair_refused (foreign : ¬ Owned desired labels) :
    repairNode plan request member node = .error refusal := by
  have either (key : String) : checkOwner desired labels key = .ok () ∨
      checkOwner desired labels key = .error refusal := by
    unfold checkOwner demand
    split
    · exact .inl rfl
    · exact .inr rfl
  rw [readable.repair]
  cases either serverLabel with
  | inr refused =>
      rw [refused]
      rfl
  | inl owned =>
      cases either clusterLabel with
      | inr refused =>
          rw [owned, ok_bind_eq, refused]
          rfl
      | inl both => exact absurd ⟨owned, both⟩ foreign

theorem Readable.repair_owned (owned : Owned desired labels) (versioned : HasVersion metadata) :
    ∃ patch, repairNode plan request member node =
      .ok [("missing", .bool false),
        ("labelsChanged", .bool (drifts desired labels || hasLabel labels (oppositeLabel member))),
        ("labelPatch", .arr patch)] := by
  obtain ⟨guarding, guarded⟩ := labelGuard_ok labels versioned
  rw [readable.repair, owned.1, ok_bind_eq, owned.2, ok_bind_eq, readable.patch, guarded]
  exact ⟨_, rfl⟩

theorem Readable.repair_unversioned (owned : Owned desired labels) (unversioned : ¬ HasVersion metadata) :
    repairNode plan request member node =
      .error (valueError ("Node resource version" ++ " must be a nonempty string")) := by
  rw [readable.repair, owned.1, ok_bind_eq, owned.2, ok_bind_eq, readable.patch, labelGuard_error unversioned]
  rfl

theorem Readable.flags_iff {rawPlan : Json}
    (repairs : registrationAction rawPlan (.obj request) = repairNode plan request member node) :
    Flags rawPlan request ↔ ¬ Owned desired labels ∨
      HasVersion metadata ∧ (drifts desired labels || hasLabel labels (oppositeLabel member)) = true := by
  unfold Flags
  rw [repairs]
  by_cases owned : Owned desired labels
  · by_cases versioned : HasVersion metadata
    · obtain ⟨patch, done⟩ := readable.repair_owned owned versioned
      rw [done]
      simp [owned, versioned]
    · rw [readable.repair_unversioned owned versioned]
      simp [owned, versioned, refusal, valueError]
  · rw [readable.repair_refused owned]
    simp [owned]

omit readable in
/-- Without a labels map nothing is owned by others, and everything is missing. -/
theorem unlabelled_drifts (wanted : desiredLabels plan member = .ok desired) :
    drifts desired [] = true ∧ Owned desired [] := by
  obtain ⟨server, cluster, role, _, _, _, same⟩ := desiredLabels_ok wanted
  subst same
  constructor
  · simp [drifts, value]
  · exact ⟨checkOwner_iff.mpr (.inl rfl), checkOwner_iff.mpr (.inl rfl)⟩

/-- Observation and registration agree on a Node exactly when it does not carry
the opposite role beside all its labels, and can be guarded. -/
theorem Readable.agrees_iff {rawPlan : Json}
    (repairs : registrationAction rawPlan (.obj request) = repairNode plan request member node) :
    (drifts desired labels = true ↔ Flags rawPlan request) ↔
      (drifts desired labels = false → hasLabel labels (oppositeLabel member) = false) ∧ HasVersion metadata := by
  rw [readable.flags_iff repairs]
  by_cases owned : Owned desired labels
  · by_cases versioned : HasVersion metadata
    · cases drifting : drifts desired labels <;> simp [owned, versioned]
    · have absent : metadata.get? "labels" = none := by
        unfold HasVersion at versioned
        push Not at versioned
        exact versioned.1
      have labelled := readable.labelled
      rw [valueOr, absent] at labelled
      cases labelled
      simp [owned, versioned, (unlabelled_drifts readable.wanted).1]
  · have drifting : drifts desired labels = true := by
      cases settled : drifts desired labels with
      | true => rfl
      | false => exact absurd (owned_of_settled readable.wanted settled) owned
    have versioned : HasVersion metadata := by
      intro absent
      have labelled := readable.labelled
      rw [valueOr, absent] at labelled
      cases labelled
      exact absurd (unlabelled_drifts readable.wanted).2 owned
    simp [owned, versioned, drifting]

end Flags

end Homelab.KubePlan
