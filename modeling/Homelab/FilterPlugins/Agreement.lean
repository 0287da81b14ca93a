import Homelab.FilterPlugins.Membership

namespace Homelab.KubePlan

open Json (Object)

/-! # When observation, verification and repair agree -/

/-! ## Errors of the verification -/

/-- The messages about membership, identities, the control-plane role and readiness. -/
def reported : List String :=
  ["Actual Kubernetes Node membership differs from the selected Servers",
    "Unexpected or duplicate Kubernetes Node identity", "Node Server identity does not match",
    "Node cluster identity does not match", "Node control-plane role does not match", "Node is not Ready"]

def Reported (failure : Exn) : Prop := ∃ message ∈ reported, failure = valueError message

theorem unreported {message : String} (other : message ∉ reported) : ¬ Reported (valueError message) := by
  intro ⟨listed, member, same⟩
  cases same
  exact other member

theorem bind_error {ε α β : Type} {first : Except ε α} {next : α → Except ε β} {failure : ε}
    (failed : first >>= next = .error failure) :
    first = .error failure ∨ ∃ value, first = .ok value ∧ next value = .error failure := by
  cases first with
  | error stopped =>
      cases failed
      exact .inl rfl
  | ok value => exact .inr ⟨value, rfl, failed⟩

theorem mapping_error {found : Json} {context : String} {failure : Exn} (failed : mapping found context = .error failure) :
    failure = valueError (context ++ " must be a mapping") := by
  cases found <;> cases failed <;> rfl

theorem text_failure {found : Json} {context : String} {failure : Exn} (failed : text found context = .error failure) :
    failure = valueError (context ++ " must be a nonempty string") := by
  cases found with
  | str name =>
      rw [text] at failed
      split at failed
      · cases failed
        rfl
      · cases failed
  | _ =>
      cases failed
      rfl

theorem demand_error {condition : Bool} {failure other : Exn} (failed : demand condition failure = .error other) :
    other = failure := by
  cases condition with
  | true => cases failed
  | false =>
      cases failed
      rfl

theorem ipv4Network_unreported {found : Json} {context : String} {failure : Exn}
    (plain : context ++ " must be a nonempty string" ∉ reported) (four : context ++ " must be IPv4 in v1" ∉ reported)
    (failed : ipv4Network found context = .error failure) : ¬ Reported failure := by
  cases bind_error failed with
  | inl unread =>
      rw [text_failure unread]
      exact unreported plain
  | inr read =>
      obtain ⟨written, _, failed⟩ := read
      split at failed
      · cases failed
      · cases failed
        exact unreported four

theorem validateVersions_unreported {status settings : Object} {failure : Exn}
    (failed : validateVersions status settings = .error failure) : ¬ Reported failure := by
  rcases bind_error failed with unread | ⟨information, _, failed⟩
  · rw [mapping_error unread]
    exact unreported (by decide)
  rcases bind_error failed with unread | ⟨kubernetes, _, failed⟩
  · rw [text_failure unread]
    exact unreported (by decide)
  rcases bind_error failed with differs | ⟨_, _, failed⟩
  · rw [demand_error differs]
    exact unreported (by decide)
  rcases bind_error failed with unread | ⟨containerd, _, failed⟩
  · rw [text_failure unread]
    exact unreported (by decide)
  rw [demand_error failed]
  exact unreported (by decide)

theorem nodeSubnet_unreported {settings node : Object} {subnets : List Ipv4Network} {failure : Exn}
    (failed : nodeSubnet settings node subnets = .error failure) : ¬ Reported failure := by
  rcases bind_error failed with unread | ⟨spec, _, failed⟩
  · rw [mapping_error unread]
    exact unreported (by decide)
  rcases bind_error failed with unread | ⟨subnet, _, failed⟩
  · exact ipv4Network_unreported (by decide) (by decide) unread
  rcases bind_error failed with unread | ⟨network, _, failed⟩
  · exact ipv4Network_unreported (by decide) (by decide) unread
  rcases bind_error failed with outside | ⟨_, _, failed⟩
  · rw [demand_error outside]
    exact unreported (by decide)
  rcases bind_error failed with overlaps | ⟨_, _, failed⟩
  · rw [demand_error overlaps]
    exact unreported (by decide)
  cases failed

/-! ## Verification of settled Nodes -/

/-- A Node with a labels map that has all the labels desired for its member. -/
def Labelled (plan member metadata : Object) : Prop :=
  ∃ labels desired, value metadata "labels" = .obj labels ∧ desiredLabels plan member = .ok desired ∧
    drifts desired labels = false

def IsReady (node : Object) : Prop :=
  ∃ status conditions, value node "status" = .obj status ∧ value status "conditions" = .arr conditions ∧
    anyReady "condition" conditions = .ok true

/-- A Node that also carries the label of the opposite role. -/
def Contradicts (member metadata : Object) : Prop :=
  ∃ labels, value metadata "labels" = .obj labels ∧ hasLabel labels (oppositeLabel member) = true

theorem drifts_false {desired labels : Object} (settled : drifts desired labels = false) {entry : String × Json}
    (listed : entry ∈ desired) : Json.Same (value labels entry.1) entry.2 := by
  rw [drifts, List.any_eq_false] at settled
  simpa using settled entry listed

def roleMismatch : Exn := valueError "Node control-plane role does not match"

section Settled

variable {plan member node metadata settings : Object} (isMetadata : value node "metadata" = .obj metadata)
  (labelled : Labelled plan member metadata) (ready : IsReady node)

include isMetadata labelled ready

/-- Of a Node with all its labels and Ready, the role and the versions are left to check. -/
theorem validate_settled : ∃ status labels, value node "status" = .obj status ∧ value metadata "labels" = .obj labels ∧
    validateNode member node settings plan = (do
      demand (isControlPlane member == hasLabel labels controlPlaneLabel) roleMismatch
      validateVersions status settings) := by
  obtain ⟨labels, desired, isLabels, wanted, settled⟩ := labelled
  obtain ⟨status, conditions, isStatus, isList, found⟩ := ready
  obtain ⟨server, cluster, role, isServer, isCluster, isRole, same⟩ := desiredLabels_ok wanted
  subst same
  have first := drifts_false settled (by simp : (serverLabel, Json.str server) ∈ _)
  have second := drifts_false settled (by simp : (clusterLabel, Json.str cluster) ∈ _)
  rw [← isServer] at first
  rw [← isCluster] at second
  have serverRead : Json.Same (value labels "homelab.io/server-uid") (value member "uid") := first
  have clusterRead : Json.Same (value labels "homelab.io/kube-cluster-uid") (value plan "uid") := second
  refine ⟨status, labels, isStatus, isLabels, ?_⟩
  simp only [validateNode, isMetadata, isLabels, isStatus, mapping, ok_bind_eq, serverRead, clusterRead, decide_true,
    demand_true, isList, list, found]
  congr 1
  funext _
  cases validateVersions status settings with
  | error failure => rfl
  | ok checked => rfl

/-- A worker with the control-plane label is turned away. -/
theorem validate_contradicting (worker : isControlPlane member = false) (contradicts : Contradicts member metadata) :
    validateNode member node settings plan = .error roleMismatch := by
  obtain ⟨status, labels, _, isLabels, same⟩ := @validate_settled _ _ _ _ settings isMetadata labelled ready
  obtain ⟨others, isOthers, opposite⟩ := contradicts
  cases isLabels.symm.trans isOthers
  have carried : hasLabel labels controlPlaneLabel = true := by
    rw [oppositeLabel, worker] at opposite
    exact opposite
  rw [same, worker, carried]
  rfl

/-- Of any other Node only the versions are left to check. -/
theorem validate_consistent (consistent : isControlPlane member = false → ¬ Contradicts member metadata) :
    ∃ status, value node "status" = .obj status ∧
      validateNode member node settings plan = validateVersions status settings := by
  obtain ⟨status, labels, isStatus, isLabels, same⟩ := @validate_settled _ _ _ _ settings isMetadata labelled ready
  refine ⟨status, isStatus, ?_⟩
  have matching : (isControlPlane member == hasLabel labels controlPlaneLabel) = true := by
    cases control : isControlPlane member with
    | false =>
        cases carried : hasLabel labels controlPlaneLabel with
        | false => rfl
        | true =>
            have opposite : hasLabel labels (oppositeLabel member) = true := by
              rw [oppositeLabel, control]
              exact carried
            exact absurd ⟨labels, isLabels, opposite⟩ (consistent control)
    | true =>
        obtain ⟨others, desired, isOthers, wanted, settled⟩ := labelled
        cases isLabels.symm.trans isOthers
        obtain ⟨server, cluster, role, _, _, isRole, isDesired⟩ := desiredLabels_ok wanted
        subst isDesired
        have named : role = "control-plane" := by
          rw [isControlPlane, isRole] at control
          simpa using control
        have carried := drifts_false settled (by simp : (roleLabel role, Json.str "") ∈ _)
        rw [Json.same_str, named] at carried
        have present : hasLabel labels controlPlaneLabel = true := by
          cases lookup : Object.get? labels controlPlaneLabel with
          | some _ => rw [hasLabel, lookup]; rfl
          | none =>
              have missing : value labels (roleLabel "control-plane") = .null := by
                rw [value]
                exact congrArg (fun found => Option.getD found Json.null) lookup
              rw [missing] at carried
              cases carried
        rw [present]
        rfl
  rw [same, matching]
  rfl

end Settled

/-! ## The loop over the Nodes -/

/-- Nodes that pass the remaining checks: their versions and their pod subnets. -/
def Admits (settings : Object) : List Json → List Ipv4Network → Prop
  | [], _ => True
  | raw :: rest, subnets => ∃ node status subnet, raw = .obj node ∧ value node "status" = .obj status ∧
      validateVersions status settings = .ok () ∧ nodeSubnet settings node subnets = .ok subnet ∧
      Admits settings rest (subnets ++ [subnet])

/-- The Node of a worker that carries the control-plane label. -/
def Mislabelled (expected : Object) (items : List Json) (node : Object) : Prop :=
  ∃ name member metadata, Stands expected items name member node metadata ∧ isControlPlane member = false ∧
    Contradicts member metadata

theorem mislabelled_iff {expected : Object} {items : List Json} {name : String} {member node metadata : Object}
    (stands : Stands expected items name member node metadata) :
    Mislabelled expected items node ↔ isControlPlane member = false ∧ Contradicts member metadata := by
  constructor
  · intro ⟨name', member', metadata', stands', mislabelled⟩
    cases stands.isMetadata.symm.trans stands'.isMetadata
    cases stands.named.symm.trans stands'.named
    cases stands.selected.symm.trans stands'.selected
    exact mislabelled
  · intro mislabelled
    exact ⟨name, member, metadata, stands, mislabelled⟩

/-- Every Node that stands for a member has all its labels and is Ready. -/
def AllSettled (plan expected : Object) (items : List Json) : Prop :=
  ∀ name member node metadata, Stands expected items name member node metadata →
    Labelled plan member metadata ∧ IsReady node

theorem verifyEach_reported {plan expected settings : Object} {items rest : List Json}
    {entries : List (String × Object)} {subnets : List Ipv4Network} {names : List String}
    (settled : AllSettled plan expected items)
    (stand : ∀ raw ∈ rest, ∃ name member node metadata, raw = .obj node ∧ Stands expected items name member node metadata)
    (indexed : List.Forall₂ IndexedAs rest entries) (distinct : (entries.map Prod.fst).Nodup)
    (fresh : ∀ entry ∈ entries, entry.1 ∉ names) :
    (∃ failure, verifyEachNode expected settings plan rest subnets names = .error failure ∧ Reported failure) ↔
      ∃ before node after, rest = before ++ .obj node :: after ∧ Admits settings before subnets ∧
        Mislabelled expected items node := by
  induction indexed generalizing subnets names with
  | nil =>
      constructor
      · rintro ⟨failure, failed, _⟩
        cases failed
      · rintro ⟨before, node, after, empty, _⟩
        simp at empty
  | @cons raw entry rest entries first later ih =>
      obtain ⟨name, member, node, metadata, isNode, stands⟩ := stand raw (by simp)
      obtain ⟨metadata', named⟩ := first
      subst isNode
      cases named.isNode
      cases stands.isMetadata.symm.trans named.isMetadata
      cases stands.named.symm.trans named.named
      obtain ⟨labelled, ready⟩ := settled _ _ _ _ stands
      obtain ⟨unseen, distinct⟩ := List.nodup_cons.mp distinct
      have known : (!names.contains entry.1 && hasLabel expected entry.1) = true := by
        have unlisted : entry.1 ∉ names := fresh entry (by simp)
        simp [unlisted, hasLabel, stands.selected]
      have isName : text (value metadata "name") "Node name" = .ok entry.1 := text_iff.mpr ⟨named.named, named.nonempty⟩
      have found : value expected entry.1 = .obj member := value_some stands.selected
      have unfolds : verifyEachNode expected settings plan (.obj entry.2 :: rest) subnets names = (do
          validateNode member entry.2 settings plan
          let subnet ← nodeSubnet settings entry.2 subnets
          verifyEachNode expected settings plan rest (subnets ++ [subnet]) (entry.1 :: names)) := by
        simp only [verifyEachNode, mapping, ok_bind_eq, stands.isMetadata, isName, known, demand_true, found]
      have continues := fun subnets : List Ipv4Network => @ih subnets (entry.1 :: names)
        (fun raw listed => stand raw (by simp [listed])) distinct (by
          intro other listed
          rw [List.mem_cons, not_or]
          refine ⟨?_, fresh other (by simp [listed])⟩
          intro same
          exact unseen (same ▸ List.mem_map_of_mem listed))
      rw [unfolds]
      by_cases mislabelled : Mislabelled expected items entry.2
      · obtain ⟨worker, contradicts⟩ := (mislabelled_iff stands).mp mislabelled
        rw [validate_contradicting stands.isMetadata labelled ready worker contradicts]
        constructor
        · intro _
          exact ⟨[], entry.2, rest, rfl, trivial, mislabelled⟩
        · intro _
          exact ⟨roleMismatch, rfl, _, by decide, rfl⟩
      · have consistent : isControlPlane member = false → ¬ Contradicts member metadata := by
          intro worker contradicts
          exact mislabelled ((mislabelled_iff stands).mpr ⟨worker, contradicts⟩)
        obtain ⟨status, isStatus, same⟩ := @validate_consistent plan member _ _ settings stands.isMetadata labelled
          ready consistent
        -- The head is not mislabelled, so a mislabelled Node stands after it.
        have split : (∃ before node after, Json.obj entry.2 :: rest = before ++ .obj node :: after ∧
            Admits settings before subnets ∧ Mislabelled expected items node) ↔
            ∃ subnet, validateVersions status settings = .ok () ∧ nodeSubnet settings entry.2 subnets = .ok subnet ∧
              ∃ before node after, rest = before ++ .obj node :: after ∧
                Admits settings before (subnets ++ [subnet]) ∧ Mislabelled expected items node := by
          constructor
          · rintro ⟨before, node, after, parts, admits, found⟩
            cases before with
            | nil =>
                cases parts
                exact absurd found mislabelled
            | cons head before =>
                cases parts
                obtain ⟨node', status', subnet, isNode, isStatus', versions, fits, admits⟩ := admits
                cases isNode
                cases isStatus.symm.trans isStatus'
                exact ⟨subnet, versions, fits, before, node, after, rfl, admits, found⟩
          · rintro ⟨subnet, versions, fits, before, node, after, parts, admits, found⟩
            rw [parts]
            exact ⟨.obj entry.2 :: before, node, after, rfl,
              ⟨entry.2, status, subnet, rfl, isStatus, versions, fits, admits⟩, found⟩
        rw [split, same]
        cases versions : validateVersions status settings with
        | error failure =>
            constructor
            · rintro ⟨stopped, failed, isReported⟩
              cases failed
              exact absurd isReported (validateVersions_unreported versions)
            · rintro ⟨_, passed, _⟩
              cases passed
        | ok _ =>
            cases fits : nodeSubnet settings entry.2 subnets with
            | error failure =>
                constructor
                · rintro ⟨stopped, failed, isReported⟩
                  cases failed
                  exact absurd isReported (nodeSubnet_unreported fits)
                · rintro ⟨_, _, passed, _⟩
                  cases passed
            | ok subnet =>
                have next := continues (subnets ++ [subnet])
                constructor
                · intro failed
                  exact ⟨subnet, rfl, rfl, next.mp failed⟩
                · rintro ⟨_, _, passed, found⟩
                  cases passed
                  exact next.mpr found

/-! ## A complete list -/

theorem value_of_valueOr {fields : Object} {key : String} {default found : Json}
    (read : valueOr fields key default = found) (other : found ≠ default) : value fields key = found := by
  unfold valueOr at read
  cases stored : fields.get? key with
  | none =>
      rw [stored] at read
      exact absurd read.symm other
  | some inside =>
      rw [stored] at read
      exact (value_some stored).trans read

theorem valueOr_of_value {fields : Object} {key : String} {default found : Json}
    (read : value fields key = found) (other : found ≠ .null) : valueOr fields key default = found := by
  unfold value at read
  cases stored : fields.get? key with
  | none =>
      rw [stored] at read
      exact absurd read.symm other
  | some inside =>
      rw [stored] at read
      rw [valueOr, stored]
      exact read

/-- Exactly one Node for each member, with all its labels and Ready. -/
structure Complete (plan expected : Object) (items : List Json) : Prop where
  present : ∀ name, hasLabel expected name = true →
    ∃ member node metadata, Stands expected items name member node metadata
  selected : ∀ raw ∈ items, ∃ name member node metadata, raw = .obj node ∧
    Stands expected items name member node metadata
  settled : AllSettled plan expected items

/-- The observation of a Node with all its labels and Ready finds nothing amiss. -/
theorem settles_iff {plan expected member node metadata : Object} {items : List Json} {name : String}
    {conflict ready : Bool} (stands : Stands expected items name member node metadata)
    (observes : observeNode plan member node = .ok (conflict, ready)) :
    conflict = false ∧ ready = true ↔ Labelled plan member metadata ∧ IsReady node := by
  obtain ⟨_, labels, desired, status, conditions, isMetadata, isLabels, wanted, isStatus, isList, searched, same⟩ :=
    observeNode_ok observes
  cases stands.isMetadata.symm.trans isMetadata
  constructor
  · intro ⟨settled, found⟩
    subst same found
    have mapped : Json.obj labels ≠ .obj [] := by
      intro empty
      cases empty
      rw [(unlabelled_drifts wanted).1] at settled
      cases settled
    have listed : Json.arr conditions ≠ .arr [] := by
      intro empty
      cases empty
      cases searched
    have stated : Json.obj status ≠ .obj [] := by
      intro empty
      cases empty
      exact listed isList.symm
    exact ⟨⟨labels, desired, value_of_valueOr isLabels mapped, wanted, settled⟩,
      status, conditions, value_of_valueOr isStatus stated, value_of_valueOr isList listed,
      anyReady_context "condition" searched⟩
  · intro ⟨⟨others, desired', isOthers, wanted', settled⟩, status', conditions', isStatus', isList', found⟩
    cases isLabels.symm.trans (valueOr_of_value isOthers nofun)
    cases isStatus.symm.trans (valueOr_of_value isStatus' nofun)
    cases isList.symm.trans (valueOr_of_value isList' nofun)
    cases Except.ok.inj (wanted.symm.trans wanted')
    cases Except.ok.inj ((anyReady_context "condition" searched).symm.trans found)
    exact ⟨same.trans settled, rfl⟩

theorem sortedNames_eq_nil {names : List String} : sortedNames names = [] ↔ names = [] := by
  rw [← List.length_eq_zero_iff, sortedNames, List.length_insertionSort, List.length_eq_zero_iff]

section Observed

variable {rawPlan rawResponse : Json} {observation plan expected : Object} {items : List Json}
  {entries : List (String × Object)} {observed : List (String × Bool × Bool)}
  (seen : Observed rawPlan rawResponse observation plan expected items entries observed)

include seen

theorem Observed.members_distinct : (expected.map Prod.fst).Nodup := by
  obtain ⟨_, _, byName⟩ := bind_ok seen.byName
  obtain ⟨members, _, indexed⟩ := bind_ok byName
  exact indexMembers_distinct indexed .nil

/-- A member whose name is indexed has a Node. -/
theorem Observed.stands_of_present {name : String} (known : hasLabel expected name = true)
    (present : hasLabel (index entries) name = true) :
    ∃ member node metadata, Stands expected items name member node metadata := by
  have listed : name ∈ sortedNames ((expected.map Prod.fst).filter fun name => hasLabel (index entries) name) := by
    rw [sortedNames, List.mem_insertionSort, List.mem_filter]
    exact ⟨hasLabel_iff.mp known, present⟩
  obtain ⟨entry, _, _, node, member, found, selected, _⟩ := mem_left seen.observes listed
  obtain ⟨metadata, stands⟩ := seen.stands found selected
  exact ⟨member, node, metadata, stands⟩

theorem Observed.ready_flags : observation.get? "ready" = some (.bool true) ↔
    (∀ name ∈ expected.map Prod.fst, hasLabel (index entries) name = true) ∧
    (∀ name ∈ (index entries).map Prod.fst, hasLabel expected name = true) ∧
    ∀ entry ∈ observed, entry.2.1 = false ∧ entry.2.2 = true := by
  rw [seen.ready]
  simp only [Option.some.injEq, Json.bool.injEq, Bool.and_eq_true, List.isEmpty_iff, sortedNames_eq_nil,
    List.map_eq_nil_iff, List.filter_eq_nil_iff, Bool.not_eq_true, Bool.not_eq_false', and_assoc]
  constructor
  · rintro ⟨present, selected, ready, settled⟩
    exact ⟨present, selected, fun entry listed => ⟨settled entry listed, ready entry listed⟩⟩
  · rintro ⟨present, selected, both⟩
    exact ⟨present, selected, fun entry listed => (both entry listed).2, fun entry listed => (both entry listed).1⟩

/-- An observation is ready exactly when the list is complete. -/
theorem Observed.ready_iff : observation.get? "ready" = some (.bool true) ↔ Complete plan expected items := by
  rw [seen.ready_flags]
  constructor
  · intro ⟨present, selected, settled⟩
    constructor
    · intro name known
      exact seen.stands_of_present known (present name (hasLabel_iff.mp known))
    · intro raw listed
      obtain ⟨entry, inside, metadata, named⟩ := mem_left seen.indexed listed
      have indexed : (entry.1, Json.obj entry.2) ∈ index entries :=
        List.mem_map_of_mem (f := fun entry => (entry.1, Json.obj entry.2)) inside
      have known := selected entry.1 (List.mem_map_of_mem indexed)
      obtain ⟨member, node, metadata', stands⟩ := seen.stands_of_present known
        (hasLabel_iff.mpr (List.mem_map_of_mem indexed))
      cases (seen.indexes stands).symm.trans (Object.get?_of_mem seen.distinct indexed)
      exact ⟨entry.1, member, entry.2, metadata', named.isNode, stands⟩
    · intro name member node metadata stands
      obtain ⟨entry, listed, _, observes⟩ := seen.observed_of_stands stands
      exact (settles_iff stands observes).mp (settled entry listed)
  · intro complete
    refine ⟨?_, ?_, ?_⟩
    · intro name known
      obtain ⟨member, node, metadata, stands⟩ := complete.present name (hasLabel_iff.mpr known)
      rw [hasLabel, seen.indexes stands]
      rfl
    · intro name known
      obtain ⟨pair, indexed, isName⟩ := List.mem_map.mp known
      obtain ⟨entry, inside, same⟩ := List.mem_map.mp indexed
      subst same isName
      obtain ⟨raw, listed, metadata, named⟩ := mem_right seen.indexed inside
      obtain ⟨name, member, node, metadata', isNode, stands⟩ := complete.selected raw listed
      cases named.isNode.symm.trans isNode
      cases named.isMetadata.symm.trans stands.isMetadata
      cases named.named.symm.trans stands.named
      rw [hasLabel, stands.selected]
      rfl
    · intro entry listed
      obtain ⟨member, node, metadata, stands, observes⟩ := seen.stands_of_observed listed
      exact (settles_iff stands observes).mpr (complete.settled _ _ _ _ stands)

/-- A complete list has as many Nodes as the plan has members. -/
theorem Observed.complete_length (complete : Complete plan expected items) : items.length = expected.length := by
  obtain ⟨present, selected, _⟩ := seen.ready_flags.mp (seen.ready_iff.mpr complete)
  have same : ((index entries).map Prod.fst).Perm (expected.map Prod.fst) := by
    rw [List.perm_ext_iff_of_nodup seen.distinct seen.members_distinct]
    intro name
    rw [← hasLabel_iff, ← hasLabel_iff]
    exact ⟨fun listed => selected name (hasLabel_iff.mp listed), fun known => present name (hasLabel_iff.mp known)⟩
  have lengths := same.length_eq
  have listed := seen.indexed.length_eq
  simp only [index, List.length_map] at lengths
  omega

/-- Of a complete list, verification reports a worker's Node with the
control-plane label, once it gets that far. -/
theorem Observed.verifyNodes_reported (complete : Complete plan expected items) :
    (∃ failure, verifyNodes rawPlan rawResponse = .error failure ∧ Reported failure) ↔
      ∃ settings before node after, value plan "settings" = .obj settings ∧
        items = before ++ .obj node :: after ∧ Admits settings before [] ∧ Mislabelled expected items node := by
  obtain ⟨response, isResponse, isItems⟩ := seen.isResponse
  obtain ⟨plan', isPlan, byName⟩ := bind_ok seen.byName
  cases seen.isPlan.symm.trans (mapping_ok isPlan)
  obtain ⟨members, isMembers, indexed⟩ := bind_ok byName
  have collected := indexMembers_context "expected member" "node name" indexed
  have length := seen.complete_length complete
  have distinct : (entries.map Prod.fst).Nodup := by
    have keys := seen.distinct
    rw [index, List.map_map] at keys
    exact keys
  have loop := fun settings : Object => @verifyEach_reported plan expected settings items items entries [] []
    complete.settled complete.selected seen.indexed distinct (by simp)
  have isMembers := list_iff.mp isMembers
  cases read : mapping (value plan "settings") "settings" with
  | ok settings =>
      have isSettings := mapping_ok read
      have unfolds : verifyNodes rawPlan rawResponse = (do
          verifyEachNode expected settings plan items [] []
          return plan) := by
        simp [verifyNodes, seen.isPlan, mapping, isSettings, isResponse, isMembers, isItems, list, collected, length]
      rw [unfolds]
      constructor
      · rintro ⟨failure, failed, isReported⟩
        cases bind_error failed with
        | inl stopped =>
            obtain ⟨before, node, after, parts⟩ := (loop settings).mp ⟨failure, stopped, isReported⟩
            exact ⟨settings, before, node, after, isSettings, parts⟩
        | inr passed =>
            obtain ⟨_, _, failed⟩ := passed
            cases failed
      · rintro ⟨settings', before, node, after, same, parts⟩
        cases isSettings.symm.trans same
        obtain ⟨failure, stopped, isReported⟩ := (loop settings).mpr ⟨before, node, after, parts⟩
        exact ⟨failure, by rw [stopped]; rfl, isReported⟩
  | error unread =>
      have unfolds : verifyNodes rawPlan rawResponse = .error unread := by
        have isObject : mapping (.obj plan) "cluster plan" = .ok plan := rfl
        rw [verifyNodes, seen.isPlan, isObject, ok_bind_eq, read]
        rfl
      rw [unfolds, mapping_error read]
      constructor
      · rintro ⟨failure, failed, isReported⟩
        cases failed
        exact absurd isReported (unreported (by decide))
      · rintro ⟨settings, _, _, _, isSettings, _⟩
        rw [isSettings] at read
        cases read

/-- Agreement of observation and registration about one Node. -/
theorem Observed.node_agrees_iff {name : String} {member node metadata request : Object} {address : Json}
    (stands : Stands expected items name member node metadata) (identified : holds metadata "uid" = true)
    (addressed : OnlyAddress node address) (requests : Requests request name member node address) :
    (Conflicts observation name ↔ Flags rawPlan request) ↔
      (Labelled plan member metadata → ¬ Contradicts member metadata) ∧ HasVersion metadata := by
  obtain ⟨entry, _, _, observes⟩ := seen.observed_of_stands stands
  obtain ⟨_, labels, desired, _, _, isMetadata, isLabels, wanted, _⟩ := observeNode_ok observes
  cases stands.isMetadata.symm.trans isMetadata
  obtain ⟨pair, _, _, named⟩ := mem_left seen.indexed stands.listed
  cases named.isNode
  cases stands.isMetadata.symm.trans named.isMetadata
  cases stands.named.symm.trans named.named
  have selected : Selected rawPlan request plan member :=
    ⟨seen.isPlan, ⟨expected, pair.1, seen.byName, requests.nodeName, named.nonempty, stands.selected⟩,
      requests.serverUID, requests.role⟩
  have listed : pair.2.isEmpty = false := by
    cases empty : pair.2 with
    | nil =>
        have isMetadata := stands.isMetadata
        rw [empty] at isMetadata
        cases isMetadata
    | cons first rest => rfl
  have repairs := registrationAction_selected selected requests.node listed
  have readable : Readable plan request member pair.2 metadata labels desired :=
    ⟨stands.isMetadata, by rw [stands.named, requests.nodeName]; exact .refl _, identified, isLabels, wanted,
      by rw [requests.address]; exact addressed⟩
  rw [seen.conflict_iff stands isLabels wanted, readable.agrees_iff repairs]
  have opposite : (drifts desired labels = false → hasLabel labels (oppositeLabel member) = false) ↔
      (Labelled plan member metadata → ¬ Contradicts member metadata) := by
    constructor
    · intro apart ⟨others, desired', isOthers, wanted', settled⟩ ⟨again, isAgain, carried⟩
      cases isOthers.symm.trans isAgain
      cases isLabels.symm.trans (valueOr_of_value isOthers nofun)
      cases Except.ok.inj (wanted.symm.trans wanted')
      rw [apart settled] at carried
      cases carried
    · intro apart settled
      have mapped : Json.obj labels ≠ .obj [] := by
        intro empty
        cases empty
        rw [(unlabelled_drifts wanted).1] at settled
        cases settled
      have isMap := value_of_valueOr isLabels mapped
      cases carried : hasLabel labels (oppositeLabel member) with
      | false => rfl
      | true => exact absurd ⟨labels, isMap, carried⟩ (apart ⟨labels, desired, isMap, wanted, settled⟩)
  rw [opposite]

end Observed

/-! ## Agreement -/

/-- What an observation means to verification and to registration. -/
structure Agreement (rawPlan rawResponse : Json) (observation expected : Object) (items : List Json) : Prop where
  verified : observation.get? "ready" = some (.bool true) →
    ∀ failure, verifyNodes rawPlan rawResponse = .error failure → ¬ Reported failure
  registered : ∀ name member node metadata address request, Stands expected items name member node metadata →
    holds metadata "uid" = true → OnlyAddress node address → Requests request name member node address →
    (Conflicts observation name ↔ Flags rawPlan request)

/-- No Node has all its labels beside the opposite role, or nothing to guard a patch with. -/
structure Consistent (plan expected : Object) (items : List Json) : Prop where
  nodes : ∀ name member node metadata, Stands expected items name member node metadata →
    holds metadata "uid" = true → (∃ address, OnlyAddress node address) →
    (Labelled plan member metadata → ¬ Contradicts member metadata) ∧ HasVersion metadata
  workers : Complete plan expected items → ∀ settings before node after, value plan "settings" = .obj settings →
    items = before ++ .obj node :: after → Admits settings before [] → ¬ Mislabelled expected items node

theorem membership_agrees_iff {plan response observation expected : Object} {items : List Json}
    (members : membersByName (.obj plan) = .ok expected) (listed : value response "items" = .arr items)
    (observed : membershipObservation (.obj plan) (.obj response) = .ok observation) :
    Agreement (.obj plan) (.obj response) observation expected items ↔ Consistent plan expected items := by
  obtain ⟨plan', expected', items', entries, results, seen⟩ := membershipObservation_ok observed
  cases seen.isPlan
  cases Except.ok.inj (members.symm.trans seen.byName)
  obtain ⟨response', isResponse, isItems⟩ := seen.isResponse
  cases isResponse
  cases listed.symm.trans isItems
  constructor
  · intro agreement
    constructor
    · intro name member node metadata stands identified ⟨address, addressed⟩
      have requests : Requests [("nodeName", .str name), ("serverUID", value member "uid"),
          ("role", value member "role"), ("address", address), ("node", .obj node)] name member node address :=
        ⟨rfl, .refl _, .refl _, rfl, rfl⟩
      exact (seen.node_agrees_iff stands identified addressed requests).mp
        (agreement.registered _ _ _ _ _ _ stands identified addressed requests)
    · intro complete settings before node after isSettings parts admits mislabelled
      obtain ⟨failure, failed, isReported⟩ := (seen.verifyNodes_reported complete).mpr
        ⟨settings, before, node, after, isSettings, parts, admits, mislabelled⟩
      exact agreement.verified (seen.ready_iff.mpr complete) failure failed isReported
  · intro consistent
    constructor
    · intro ready failure failed isReported
      have complete := seen.ready_iff.mp ready
      obtain ⟨settings, before, node, after, isSettings, parts, admits, mislabelled⟩ :=
        (seen.verifyNodes_reported complete).mp ⟨failure, failed, isReported⟩
      exact consistent.workers complete settings before node after isSettings parts admits mislabelled
    · intro name member node metadata address request stands identified addressed requests
      exact (seen.node_agrees_iff stands identified addressed requests).mpr
        (consistent.nodes _ _ _ _ stands identified ⟨address, addressed⟩)

/-! ### A small cluster -/

def clusterTarget : Json :=
  .obj [("kind", .str "KubeCluster"), ("metadata", .obj [("name", .str "prod"), ("uid", .str "cluster-1")]),
    ("spec", .obj [("kubernetesVersion", .str "1.33.1"), ("containerdVersion", .str "2.1.0"),
      ("network", .obj [("provider", .str "flannel"), ("version", .str "0.26.7")]),
      ("podCIDR", .str "10.244.0.0/16"), ("serviceCIDR", .str "10.96.0.0/12"),
      ("controlPlaneEndpoint", .str "10.0.0.1:6443")])]

def capturedServer (name uid role : String) : Json :=
  .obj [("name", .str name), ("uid", .str uid),
    ("labels", .obj [("homelab.io/kube-cluster", .str "prod"), ("homelab.io/kube-role", .str role)])]

def capturedServers : Json :=
  .arr [capturedServer "main" "server-1" "control-plane", capturedServer "beelink" "server-2" "worker"]

def readyNode (name server podCIDR : String) (roles : Object) : Json :=
  .obj [
    ("metadata", .obj [("name", .str name), ("uid", .str ("node-" ++ name)), ("labels", .obj
      ([(serverLabel, .str server), (clusterLabel, .str "cluster-1")] ++ roles))]),
    ("spec", .obj [("podCIDR", .str podCIDR)]),
    ("status", .obj [
      ("nodeInfo", .obj [("kubeletVersion", .str "v1.33.1"), ("containerRuntimeVersion", .str "containerd://2.1.0")]),
      ("conditions", .arr [.obj [("type", .str "Ready"), ("status", .str "True")]])])]

/-- The two Nodes of the cluster; the worker carries further role labels. -/
def nodeItems (further : Object) : List Json :=
  [readyNode "main" "server-1" "10.244.0.0/24" [(controlPlaneLabel, .str "")],
    readyNode "beelink" "server-2" "10.244.1.0/24" ((roleLabel "worker", .str "") :: further)]

def nodeList (further : Object) : Object := [("items", .arr (nodeItems further))]

/-- The plan, its members and the observation of the two Nodes. -/
def observeCluster (further : Object) : Except Exn (Object × Object × Object) := do
  let plan ← clusterPlan clusterTarget capturedServers
  let expected ← membersByName (.obj plan)
  let observation ← membershipObservation (.obj plan) (.obj (nodeList further))
  return (plan, expected, observation)

theorem observeCluster_ok {further plan expected observation : Object}
    (done : observeCluster further = .ok (plan, expected, observation)) :
    clusterPlan clusterTarget capturedServers = .ok plan ∧ membersByName (.obj plan) = .ok expected ∧
      membershipObservation (.obj plan) (.obj (nodeList further)) = .ok observation := by
  obtain ⟨plan', planned, done⟩ := bind_ok done
  obtain ⟨expected', members, done⟩ := bind_ok done
  obtain ⟨observation', observed, done⟩ := bind_ok done
  cases done
  exact ⟨planned, members, observed⟩

theorem ok_of_toOption {ε α : Type} {outcome : Except ε α} {result : α} (found : outcome.toOption = some result) :
    outcome = .ok result := by
  cases outcome with
  | error failure => cases found
  | ok value =>
      cases found
      rfl

theorem membership_agrees_small : ∃ plan expected observation,
    clusterPlan clusterTarget capturedServers = .ok plan ∧
      (Agreement (.obj plan) (.obj (nodeList [])) observation expected (nodeItems []) ↔
        Consistent plan expected (nodeItems [])) := by
  have decided : (observeCluster []).toOption.isSome = true := by decide +kernel
  obtain ⟨⟨plan, expected, observation⟩, found⟩ := Option.isSome_iff_exists.mp decided
  obtain ⟨planned, members, observed⟩ := observeCluster_ok (ok_of_toOption found)
  exact ⟨plan, expected, observation, planned, membership_agrees_iff members rfl observed⟩

/-- A ready observation although verification turns the worker away. -/
theorem promoted_worker_observed_ready : ∃ plan expected observation,
    clusterPlan clusterTarget capturedServers = .ok plan ∧ membersByName (.obj plan) = .ok expected ∧
      membershipObservation (.obj plan) (.obj (nodeList [(controlPlaneLabel, .str "")])) = .ok observation ∧
      ¬ Agreement (.obj plan) (.obj (nodeList [(controlPlaneLabel, .str "")])) observation expected
        (nodeItems [(controlPlaneLabel, .str "")]) := by
  have decided : (observeCluster [(controlPlaneLabel, .str "")]).toOption.any (fun (plan, _, observation) =>
      observation.get? "ready" == some (.bool true) &&
        decide (verifyNodes (.obj plan) (.obj (nodeList [(controlPlaneLabel, .str "")])) = .error roleMismatch)) =
      true := by decide +kernel
  obtain ⟨⟨plan, expected, observation⟩, found, checked⟩ := (Option.any_eq_true _ _).mp decided
  obtain ⟨planned, members, observed⟩ := observeCluster_ok (ok_of_toOption found)
  rw [Bool.and_eq_true, decide_eq_true_eq] at checked
  refine ⟨plan, expected, observation, planned, members, observed, fun agreement => ?_⟩
  exact agreement.verified (eq_of_beq checked.1) roleMismatch checked.2 ⟨_, by decide, rfl⟩

end Homelab.KubePlan
