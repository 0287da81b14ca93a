import Mathlib.Data.List.Perm.Subperm
import Homelab.FilterPlugins.ClusterPlan

namespace Homelab.KubePlan

open Json (Object)

/-! # Public observations of verified Nodes -/

/-- Index the actual Nodes by their names; a later Node replaces an earlier one. -/
def indexByName : List Json → Object → Except Exn Object
  | [], indexed => .ok indexed
  | raw :: rest, indexed => do
      let node ← mapping raw "Node"
      let metadata ← mapping (value node "metadata") "metadata"
      let name ← text (value metadata "name") "name"
      indexByName rest (indexed.set name (.obj node))

def internalTexts : List Json → Except Exn (List String)
  | [] => .ok []
  | raw :: rest => do
      let address ← mapping raw "address"
      if value address "type" = .str "InternalIP" then do
        let found ← text (value address "address") "InternalIP"
        let later ← internalTexts rest
        return found :: later
      else internalTexts rest

def onlyInternal : List String → Except Exn String
  | [internal] => .ok internal
  | _ => .error (valueError "V1 requires one actual Node InternalIP")

/-- `text.removeprefix(start)` -/
def removePrefix (text start : String) : String :=
  if text.startsWith start then String.ofList (text.toList.drop start.length) else text

/-- What is public about the Node of a member. -/
def publicNode (indexed member : Object) : Except Exn Json := do
  let nodeName ← text (value member "nodeName") "Node name"
  let node ← itemObject indexed nodeName
  let status ← mapping (value node "status") "Node status"
  let information ← mapping (value status "nodeInfo") "Node info"
  let addresses ← list (value status "addresses") "Node addresses must be an array"
  let internals ← internalTexts addresses
  let internal ← onlyInternal internals
  let serverName ← item member "name"
  let serverUid ← item member "uid"
  let name ← item member "nodeName"
  let metadata ← mapping (value node "metadata") "metadata"
  let nodeUid ← text (value metadata "uid") "Node UID"
  let role ← item member "role"
  let spec ← mapping (value node "spec") "Node spec"
  let podCIDR ← text (value spec "podCIDR") "pod CIDR"
  let kubelet ← text (value information "kubeletVersion") "kubelet version"
  let runtime ← text (value information "containerRuntimeVersion") "runtime"
  let image ← text (value information "osImage") "OS image"
  let kernel ← text (value information "kernelVersion") "kernel version"
  return .obj [
    ("serverRef", .obj [("name", serverName), ("uid", serverUid)]), ("nodeName", name), ("nodeUID", .str nodeUid),
    ("role", role), ("ready", .bool true), ("internalIP", .str internal), ("podCIDR", .str podCIDR),
    ("kubeletVersion", .str kubelet), ("containerdVersion", .str (removePrefix runtime "containerd://")),
    ("operatingSystem", .str image), ("kernelVersion", .str kernel)]

/-- Expose only verified public Node observations, never kubeconfigs or pod inputs. -/
def nodeObservations (rawPlan rawResponse : Json) : Except Exn Object := do
  let plan ← verifyNodes rawPlan rawResponse
  let response ← mapping rawResponse "Node response"
  let members ← list (value plan "members") "Verified members and Nodes must be arrays"
  let nodes ← list (value response "items") "Verified members and Nodes must be arrays"
  let indexed ← indexByName nodes []
  let observed ← members.mapM fun raw => do
    let member ← mapping raw "member"
    publicNode indexed member
  return [("nodes", .arr observed)]

/-! ## One Node on its own -/

/-- A Node that verification accepts on its own, with its name and pod subnet. -/
def Accepts (indexed settings plan : Object) (raw : Json) (entry : String × Ipv4Network) : Prop :=
  ∃ node metadata member, raw = .obj node ∧ value node "metadata" = .obj metadata ∧
    text (value metadata "name") "Node name" = .ok entry.1 ∧ indexed.get? entry.1 = some (.obj member) ∧
    validateNode member node settings plan = .ok () ∧ nodeSubnet settings node [] = .ok entry.2

variable {indexed settings plan node : Object} {subnets : List Ipv4Network} {subnet : Ipv4Network}

theorem nodeSubnet_iff : nodeSubnet settings node subnets = .ok subnet ↔
    nodeSubnet settings node [] = .ok subnet ∧ ∀ earlier ∈ subnets, subnet.overlaps earlier = false := by
  unfold nodeSubnet
  constructor
  · intro done
    obtain ⟨spec, isSpec, done⟩ := bind_ok done
    obtain ⟨found, isFound, done⟩ := bind_ok done
    obtain ⟨network, isNetwork, done⟩ := bind_ok done
    obtain ⟨_, inside, done⟩ := bind_ok done
    obtain ⟨_, apart, done⟩ := bind_ok done
    obtain rfl := Except.ok.inj done
    refine ⟨?_, by simpa using demand_ok apart⟩
    rw [isSpec, ok_bind_eq, isFound, ok_bind_eq, isNetwork, ok_bind_eq, inside]
    rfl
  · intro ⟨done, apart⟩
    obtain ⟨spec, isSpec, done⟩ := bind_ok done
    obtain ⟨found, isFound, done⟩ := bind_ok done
    obtain ⟨network, isNetwork, done⟩ := bind_ok done
    obtain ⟨_, inside, done⟩ := bind_ok done
    obtain ⟨_, _, done⟩ := bind_ok done
    obtain rfl := Except.ok.inj done
    have none : (!subnets.any found.overlaps) = true := by simpa using apart
    rw [isSpec, ok_bind_eq, isFound, ok_bind_eq, isNetwork, ok_bind_eq, inside, ok_bind_eq, none]
    rfl

/-- The loop accepts Nodes that are acceptable on their own, with distinct names and disjoint subnets. -/
theorem verifyEach_iff {items : List Json} {seen : List String} :
    verifyEachNode indexed settings plan items subnets seen = .ok () ↔
      ∃ entries, List.Forall₂ (Accepts indexed settings plan) items entries ∧
        (entries.map Prod.fst).Nodup ∧ (∀ entry ∈ entries, entry.1 ∉ seen) ∧
        (entries.map Prod.snd).Pairwise (fun left right => right.overlaps left = false) ∧
        ∀ entry ∈ entries, ∀ earlier ∈ subnets, entry.2.overlaps earlier = false := by
  induction items generalizing subnets seen with
  | nil =>
      constructor
      · intro _
        exact ⟨[], .nil, by simp, by simp, by simp, by simp⟩
      · intro _
        rfl
  | cons raw rest ih =>
      constructor
      · intro done
        obtain ⟨node, isNode, done⟩ := bind_ok done
        obtain ⟨metadata, isMetadata, done⟩ := bind_ok done
        obtain ⟨name, isName, done⟩ := bind_ok done
        obtain ⟨_, known, done⟩ := bind_ok done
        obtain ⟨member, isMember, done⟩ := bind_ok done
        obtain ⟨_, valid, done⟩ := bind_ok done
        obtain ⟨subnet, fits, done⟩ := bind_ok done
        obtain ⟨entries, accepted, distinct, fresh, apart, clear⟩ := ih.mp done
        obtain ⟨alone, earlier⟩ := nodeSubnet_iff.mp fits
        have known := demand_ok known
        rw [Bool.and_eq_true] at known
        have unseen : name ∉ seen := by simpa using known.1
        have found : indexed.get? name = some (.obj member) := by
          obtain ⟨stored, lookup⟩ := Option.isSome_iff_exists.mp known.2
          rw [value, lookup, Option.getD_some] at isMember
          rw [lookup, mapping_ok isMember]
        refine ⟨(name, subnet) :: entries, .cons ⟨node, metadata, member, mapping_ok isNode, mapping_ok isMetadata,
          isName, found, valid, alone⟩ accepted, ?_, ?_, ?_, ?_⟩
        · rw [List.map_cons, List.nodup_cons]
          refine ⟨fun listed => ?_, distinct⟩
          obtain ⟨entry, member, same⟩ := List.mem_map.mp listed
          exact fresh entry member (by simp [same])
        · intro entry listed
          cases List.mem_cons.mp listed with
          | inl same =>
              subst same
              exact unseen
          | inr later => exact fun taken => fresh entry later (by simp [taken])
        · rw [List.map_cons, List.pairwise_cons]
          refine ⟨fun other listed => ?_, apart⟩
          obtain ⟨entry, member, rfl⟩ := List.mem_map.mp listed
          exact clear entry member subnet (by simp)
        · intro entry listed
          cases List.mem_cons.mp listed with
          | inl same =>
              subst same
              exact earlier
          | inr later => exact fun network before => clear entry later network (by simp [before])
      · rintro ⟨entries, accepted, distinct, fresh, apart, clear⟩
        cases accepted with
        | @cons _ entry _ entries first accepted =>
            obtain ⟨node, metadata, member, rfl, isMetadata, isName, found, valid, alone⟩ := first
            rw [List.map_cons, List.nodup_cons] at distinct
            rw [List.map_cons, List.pairwise_cons] at apart
            have unseen : entry.1 ∉ seen := fresh entry (by simp)
            have known : (!seen.contains entry.1 && hasLabel indexed entry.1) = true := by
              simp [unseen, hasLabel, found]
            have fits : nodeSubnet settings node subnets = .ok entry.2 :=
              nodeSubnet_iff.mpr ⟨alone, clear entry (by simp)⟩
            rw [verifyEachNode, mapping, ok_bind_eq, isMetadata, mapping, ok_bind_eq, isName, ok_bind_eq, known,
              demand_true, ok_bind_eq, value_some found, mapping, ok_bind_eq, valid, ok_bind_eq, fits, ok_bind_eq]
            refine ih.mpr ⟨entries, accepted, distinct.2, ?_, apart.2, ?_⟩
            · intro other listed taken
              cases List.mem_cons.mp taken with
              | inl same => exact distinct.1 (same ▸ List.mem_map_of_mem listed)
              | inr before => exact fresh other (by simp [listed]) before
            · intro other listed network before
              cases List.mem_append.mp before with
              | inl earlier => exact clear other (by simp [listed]) network earlier
              | inr last =>
                  cases List.mem_singleton.mp last
                  exact apart.1 other.2 (List.mem_map_of_mem listed)

/-! ## The members of a plan -/

/-- Members with distinct names for their Nodes. -/
structure Addressable (members : List Object) : Prop where
  named : ∀ member ∈ members, member.get? "nodeName" = some (.str (nodeNameOf member)) ∧ nodeNameOf member ≠ ""
  distinct : (members.map nodeNameOf).Nodup

def memberIndex (members : List Object) : Object := members.map fun member => (nodeNameOf member, .obj member)

theorem Selection.addressable {clusterName clusterUid : String} {items : List Json} {members : List Object}
    (selection : Selection clusterName clusterUid items members) : Addressable members := by
  refine ⟨fun member listed => ?_, selection.distinct⟩
  obtain ⟨nodes, _, contribute⟩ := selection.exactly
  obtain ⟨node, _, contributes⟩ := mem_right contribute listed
  have nonempty : nodeNameOf member ≠ "" := by
    intro empty
    have valid := contributes.valid
    rw [empty] at valid
    exact absurd valid (by decide)
  refine ⟨?_, nonempty⟩
  unfold nodeNameOf at nonempty ⊢
  split at nonempty
  · rename_i name found
    rw [found]
  · exact absurd rfl nonempty

theorem memberIndex_names {members : List Object} :
    (memberIndex members).map Prod.fst = members.map nodeNameOf := by
  rw [memberIndex, List.map_map]
  rfl

theorem indexMembers_eq {memberContext nameContext : String} {members : List Object} {earlier : Object}
    (named : ∀ member ∈ members, member.get? "nodeName" = some (.str (nodeNameOf member)) ∧ nodeNameOf member ≠ "")
    (distinct : (earlier.map Prod.fst ++ members.map nodeNameOf).Nodup) :
    indexMembers memberContext nameContext (members.map .obj) earlier = .ok (earlier ++ memberIndex members) := by
  induction members generalizing earlier with
  | nil => simp [indexMembers, memberIndex]
  | cons member rest ih =>
      obtain ⟨stored, nonempty⟩ := named member (by simp)
      have isName : text (value member "nodeName") nameContext = .ok (nodeNameOf member) :=
        text_iff.mpr ⟨value_some stored, nonempty⟩
      have absent : hasLabel earlier (nodeNameOf member) = false := by
        rw [← Bool.not_eq_true, hasLabel_iff]
        intro listed
        have apart := (List.nodup_append.mp distinct).2.2
        exact apart _ listed _ (by simp) rfl
      rw [List.map_cons, indexMembers, mapping, ok_bind_eq, isName, ok_bind_eq, set_absent absent]
      rw [ih (fun other listed => named other (by simp [listed]))]
      · rw [List.append_assoc]
        rfl
      · rw [List.map_append, List.append_assoc]
        exact distinct

section Verified

variable {members : List Object} {response : Object} {items others : List Json}

/-- The Nodes are acceptable on their own, as many as the members, apart in their names and subnets. -/
def Verified (plan settings : Object) (members : List Object) (items : List Json)
    (entries : List (String × Ipv4Network)) : Prop :=
  List.Forall₂ (Accepts (memberIndex members) settings plan) items entries ∧ (entries.map Prod.fst).Nodup ∧
    (entries.map Prod.snd).Pairwise (fun left right => right.overlaps left = false) ∧ items.length = members.length

theorem verifyNodes_iff (areSettings : value plan "settings" = .obj settings)
    (listed : value plan "members" = .arr (members.map .obj)) (addressable : Addressable members)
    (isList : value response "items" = .arr items) {result : Object} :
    verifyNodes (.obj plan) (.obj response) = .ok result ↔
      result = plan ∧ ∃ entries, Verified plan settings members items entries := by
  have byName : indexMembers "expected member" "node name" (members.map .obj) [] = .ok ([] ++ memberIndex members) :=
    indexMembers_eq addressable.named addressable.distinct
  have size : (memberIndex members).length = members.length := List.length_map _
  rw [verifyNodes, mapping, ok_bind_eq, areSettings, mapping, ok_bind_eq, mapping, ok_bind_eq, listed, list,
    ok_bind_eq, isList, list, ok_bind_eq, byName, ok_bind_eq, List.nil_append, size]
  constructor
  · intro done
    obtain ⟨_, counted, done⟩ := bind_ok done
    obtain ⟨_, looped, done⟩ := bind_ok done
    obtain ⟨entries, accepted, distinct, _, apart, _⟩ := verifyEach_iff.mp looped
    exact ⟨(Except.ok.inj done).symm, entries, accepted, distinct, apart, by simpa using demand_ok counted⟩
  · rintro ⟨same, entries, accepted, distinct, apart, counted⟩
    have looped : verifyEachNode (memberIndex members) settings plan items [] [] = .ok () :=
      verifyEach_iff.mpr ⟨entries, accepted, distinct, by simp, apart, by simp⟩
    rw [counted, looped, same]
    simp [pure, Except.pure]

/-- The names of verified Nodes are those of the members. -/
theorem Verified.names {entries : List (String × Ipv4Network)}
    (verified : Verified plan settings members items entries) :
    (entries.map Prod.fst).Perm (members.map nodeNameOf) := by
  obtain ⟨accepted, distinct, _, counted⟩ := verified
  have known : entries.map Prod.fst ⊆ members.map nodeNameOf := by
    intro name listed
    obtain ⟨entry, member, rfl⟩ := List.mem_map.mp listed
    obtain ⟨raw, _, node, metadata, selected, _, _, _, found, _⟩ := mem_right accepted member
    rw [← memberIndex_names, ← hasLabel_iff, hasLabel, found]
    rfl
  apply (List.subperm_of_subset distinct known).perm_of_length_le
  rw [List.length_map, List.length_map, ← accepted.length_eq, counted]

/-- The Nodes of the members, in the order of the members. -/
theorem Verified.matched {entries : List (String × Ipv4Network)}
    (verified : Verified plan settings members items entries) :
    ∃ nodes matched, nodes.Perm items ∧ matched.Perm entries ∧
      List.Forall₂ (Accepts (memberIndex members) settings plan) nodes matched ∧
      List.Forall₂ (fun member entry => nodeNameOf member = entry.1) members matched := by
  have named : List.Forall₂ (fun (name : String) (entry : String × Ipv4Network) => name = entry.1)
      (entries.map Prod.fst) entries := by
    rw [List.forall₂_map_left_iff]
    exact List.forall₂_same.mpr fun _ _ => rfl
  obtain ⟨matched, ordered, perm⟩ := List.perm_comp_forall₂ verified.names.symm named
  obtain ⟨nodes, accepted, reordered⟩ := List.perm_comp_forall₂ perm verified.1.flip
  refine ⟨nodes, matched, reordered, perm, accepted.flip, ?_⟩
  rw [List.forall₂_map_left_iff] at ordered
  exact ordered

theorem Verified.perm {entries : List (String × Ipv4Network)} (same : items.Perm others)
    (verified : Verified plan settings members items entries) :
    ∃ permuted, permuted.Perm entries ∧ Verified plan settings members others permuted := by
  obtain ⟨accepted, distinct, apart, counted⟩ := verified
  obtain ⟨permuted, accepted, perm⟩ := List.perm_comp_forall₂ same.symm accepted
  refine ⟨permuted, perm, accepted, (perm.map _).nodup_iff.mpr distinct, ?_, same.length_eq.symm.trans counted⟩
  refine ((perm.map _).pairwise_iff ?_).mpr apart
  intro left right apart
  rw [Ipv4Network.overlaps_comm]
  exact apart

end Verified

/-! ## What a verified Node carries -/

def metadataOf (raw : Json) : Object := (value raw.fields "metadata").fields

def labelsOf (raw : Json) : Object := (value (metadataOf raw) "labels").fields

def podCIDROf (raw : Json) : Json := value (value raw.fields "spec").fields "podCIDR"

theorem metadataOf_obj {metadata : Object} (isMetadata : value node "metadata" = .obj metadata) :
    metadataOf (.obj node) = metadata := by
  rw [metadataOf, Json.fields, isMetadata, Json.fields]

theorem podCIDROf_obj {spec : Object} (isSpec : value node "spec" = .obj spec) :
    podCIDROf (.obj node) = value spec "podCIDR" := by
  rw [podCIDROf, Json.fields, isSpec, Json.fields]

/-- The Node of a member, with its pod subnet. -/
structure Carries (plan member : Object) (raw : Json) (subnet : Ipv4Network) : Prop where
  name : value (metadataOf raw) "name" = .str (nodeNameOf member)
  server : value (labelsOf raw) "homelab.io/server-uid" = value member "uid"
  cluster : value (labelsOf raw) "homelab.io/kube-cluster-uid" = value plan "uid"
  control : hasLabel (labelsOf raw) "node-role.kubernetes.io/control-plane" = isControlPlane member
  subnet : ipv4Network (podCIDROf raw) "Node podCIDR" = .ok subnet

/-- Both identities that a Node must carry are texts. -/
structure Identified (plan member : Object) : Prop where
  server : ∃ uid, value member "uid" = .str uid
  cluster : ∃ uid, value plan "uid" = .str uid

theorem nodeSubnet_inside {pods : Ipv4Network} (arePods : ipv4Network (value settings "podCIDR") "podCIDR" = .ok pods)
    (fits : nodeSubnet settings node [] = .ok subnet) :
    ipv4Network (podCIDROf (.obj node)) "Node podCIDR" = .ok subnet ∧
      ∀ address, subnet.Contains address → pods.Contains address := by
  obtain ⟨spec, isSpec, fits⟩ := bind_ok fits
  obtain ⟨found, isFound, fits⟩ := bind_ok fits
  obtain ⟨network, isNetwork, fits⟩ := bind_ok fits
  obtain ⟨_, inside, fits⟩ := bind_ok fits
  obtain ⟨_, _, fits⟩ := bind_ok fits
  obtain rfl := Except.ok.inj fits
  cases arePods.symm.trans isNetwork
  refine ⟨?_, Ipv4Network.subnetOf_iff.mp (demand_ok inside)⟩
  rw [podCIDROf_obj (mapping_ok isSpec)]
  exact isFound

theorem validateNode_carries {member metadata : Object} (identified : Identified plan member)
    (isMetadata : value node "metadata" = .obj metadata) (valid : validateNode member node settings plan = .ok ()) :
    value (labelsOf (.obj node)) "homelab.io/server-uid" = value member "uid" ∧
      value (labelsOf (.obj node)) "homelab.io/kube-cluster-uid" = value plan "uid" ∧
      hasLabel (labelsOf (.obj node)) "node-role.kubernetes.io/control-plane" = isControlPlane member := by
  obtain ⟨metadata', isMetadata', valid⟩ := bind_ok valid
  obtain ⟨labels, areLabels, valid⟩ := bind_ok valid
  obtain ⟨status, _, valid⟩ := bind_ok valid
  obtain ⟨_, server, valid⟩ := bind_ok valid
  obtain ⟨_, cluster, valid⟩ := bind_ok valid
  obtain ⟨_, control, valid⟩ := bind_ok valid
  cases isMetadata.symm.trans (mapping_ok isMetadata')
  have labelled : labelsOf (.obj node) = labels := by
    rw [labelsOf, metadataOf_obj isMetadata, mapping_ok areLabels, Json.fields]
  obtain ⟨serverUid, isServer⟩ := identified.server
  obtain ⟨clusterUid, isCluster⟩ := identified.cluster
  have server := of_decide_eq_true (demand_ok server)
  have cluster := of_decide_eq_true (demand_ok cluster)
  rw [isServer, Json.same_str] at server
  rw [isCluster, Json.same_str] at cluster
  rw [labelled, isServer, isCluster]
  exact ⟨server, cluster, (eq_of_beq (demand_ok control)).symm⟩

/-! ## What an observation shows -/

def isInternal (address : Json) : Bool := value address.fields "type" = .str "InternalIP"

/-- The internal addresses of a Node. -/
def internalIPs (raw : Json) : List Json :=
  match value (value raw.fields "status").fields "addresses" with
  | .arr addresses => (addresses.filter isInternal).map fun address => value address.fields "address"
  | _ => []

/-- An entry pairs the Server of a member with what its Node reports. -/
structure Shows (member : Object) (raw entry : Json) : Prop where
  server : value (value entry.fields "serverRef").fields "uid" = value member "uid"
  nodeName : value entry.fields "nodeName" = .str (nodeNameOf member)
  node : value entry.fields "nodeUID" = value (metadataOf raw) "uid"
  podCIDR : value entry.fields "podCIDR" = podCIDROf raw
  internal : internalIPs raw = [value entry.fields "internalIP"]

theorem internalTexts_ok {addresses : List Json} {internals : List String}
    (read : internalTexts addresses = .ok internals) :
    ((addresses.filter isInternal).map fun address => value address.fields "address") = internals.map .str := by
  induction addresses generalizing internals with
  | nil =>
      cases read
      rfl
  | cons raw rest ih =>
      obtain ⟨address, isAddress, read⟩ := bind_ok read
      rw [mapping_ok isAddress]
      split at read
      · rename_i internal
        obtain ⟨found, isFound, read⟩ := bind_ok read
        obtain ⟨later, remaining, read⟩ := bind_ok read
        obtain rfl := Except.ok.inj read
        have internal : isInternal (.obj address) = true := decide_eq_true internal
        rw [List.filter_cons_of_pos internal, List.map_cons, ih remaining, Json.fields, (text_ok isFound).1,
          List.map_cons]
      · rename_i other
        have other : ¬ isInternal (.obj address) = true := by
          rw [isInternal, decide_eq_true_eq]
          exact other
        rw [List.filter_cons_of_neg other, ih read]

theorem publicNode_shows {member : Object} {entry : Json}
    (found : indexed.get? (nodeNameOf member) = some (.obj node))
    (stored : member.get? "nodeName" = some (.str (nodeNameOf member)))
    (done : publicNode indexed member = .ok entry) : Shows member (.obj node) entry := by
  obtain ⟨nodeName, isName, done⟩ := bind_ok done
  obtain ⟨node', isNode, done⟩ := bind_ok done
  obtain ⟨status, isStatus, done⟩ := bind_ok done
  obtain ⟨information, _, done⟩ := bind_ok done
  obtain ⟨addresses, areAddresses, done⟩ := bind_ok done
  obtain ⟨internals, areInternal, done⟩ := bind_ok done
  obtain ⟨internal, single, done⟩ := bind_ok done
  obtain ⟨serverName, _, done⟩ := bind_ok done
  obtain ⟨serverUid, isUid, done⟩ := bind_ok done
  obtain ⟨name, isMemberName, done⟩ := bind_ok done
  obtain ⟨metadata, isMetadata, done⟩ := bind_ok done
  obtain ⟨nodeUid, isNodeUid, done⟩ := bind_ok done
  obtain ⟨role, _, done⟩ := bind_ok done
  obtain ⟨spec, isSpec, done⟩ := bind_ok done
  obtain ⟨podCIDR, isPodCIDR, done⟩ := bind_ok done
  obtain ⟨_, _, done⟩ := bind_ok done
  obtain ⟨_, _, done⟩ := bind_ok done
  obtain ⟨_, _, done⟩ := bind_ok done
  obtain ⟨_, _, done⟩ := bind_ok done
  obtain rfl := Except.ok.inj done
  obtain rfl : nodeNameOf member = nodeName := Json.str.inj ((value_some stored).symm.trans (text_ok isName).1)
  have sameNode : node' = node := by
    have lookup := itemObject_ok isNode
    rw [found] at lookup
    exact (Json.obj.inj (Option.some.inj lookup)).symm
  subst sameNode
  exact {
    server := by
      rw [value_some (item_ok isUid)]
      rfl
    nodeName := by
      have named := item_ok isMemberName
      rw [stored] at named
      obtain rfl := Option.some.inj named
      rfl
    node := by
      rw [metadataOf_obj (mapping_ok isMetadata), (text_ok isNodeUid).1]
      rfl
    podCIDR := by
      rw [podCIDROf_obj (mapping_ok isSpec), (text_ok isPodCIDR).1]
      rfl
    internal := by
      have texts := internalTexts_ok areInternal
      rw [internalIPs, Json.fields, mapping_ok isStatus, Json.fields, list_iff.mp areAddresses]
      cases internals with
      | nil => cases single
      | cons first rest =>
          cases rest with
          | nil =>
              obtain rfl := Except.ok.inj single
              exact texts
          | cons _ _ => cases single }

/-! ## The index of the Nodes -/

theorem indexByName_eq {items : List Json} {entries : List (String × Object)} {earlier : Object}
    (listed : List.Forall₂ IndexedAs items entries) (distinct : ((earlier ++ index entries).map Prod.fst).Nodup) :
    indexByName items earlier = .ok (earlier ++ index entries) := by
  induction listed generalizing earlier with
  | nil => simp [indexByName, index]
  | @cons raw entry rest entries first _ ih =>
      obtain ⟨metadata, named⟩ := first
      have isName : text (value metadata "name") "name" = .ok entry.1 := text_iff.mpr ⟨named.named, named.nonempty⟩
      have absent : hasLabel earlier entry.1 = false := by
        rw [← Bool.not_eq_true, hasLabel_iff]
        intro present
        rw [List.map_append] at distinct
        exact (List.nodup_append.mp distinct).2.2 _ present _ (by simp [index]) rfl
      have whole : earlier ++ index (entry :: entries) = earlier ++ [(entry.1, .obj entry.2)] ++ index entries := by
        rw [List.append_assoc]
        rfl
      rw [whole] at distinct ⊢
      rw [named.isNode, indexByName, mapping, ok_bind_eq, named.isMetadata, mapping, ok_bind_eq, isName, ok_bind_eq,
        set_absent absent, ih distinct]

theorem Verified.named {members : List Object} {items : List Json} {entries : List (String × Ipv4Network)}
    (verified : Verified plan settings members items entries) :
    ∃ named, List.Forall₂ IndexedAs items named ∧ (named.map Prod.fst).Nodup := by
  have accepted := verified.1
  have distinct := verified.2.1
  have indexed : ∃ named : List (String × Object), List.Forall₂ IndexedAs items named ∧
      named.map Prod.fst = entries.map Prod.fst := by
    clear verified distinct
    induction accepted with
    | nil => exact ⟨[], .nil, rfl⟩
    | @cons raw entry rest entries first _ ih =>
        obtain ⟨node, metadata, member, isNode, isMetadata, isName, _⟩ := first
        obtain ⟨named, listed, same⟩ := ih
        have isText := text_ok isName
        refine ⟨(entry.1, node) :: named, .cons ⟨metadata, isNode, isMetadata, isText.1, isText.2⟩ listed, ?_⟩
        rw [List.map_cons, List.map_cons, same]
  obtain ⟨named, listed, same⟩ := indexed
  exact ⟨named, listed, same ▸ distinct⟩

theorem index_names {entries : List (String × Object)} : (index entries).map Prod.fst = entries.map Prod.fst := by
  rw [index, List.map_map]
  rfl

theorem get?_perm {left right : Object} (same : left.Perm right) (distinct : (right.map Prod.fst).Nodup)
    (key : String) : left.get? key = right.get? key := by
  have permuted := (same.map Prod.fst).nodup_iff.mpr distinct
  cases found : right.get? key with
  | some stored => exact Object.get?_of_mem permuted (same.mem_iff.mpr (Object.mem_of_get? found))
  | none =>
      cases other : left.get? key with
      | none => rfl
      | some stored =>
          have listed := same.mem_iff.mp (Object.mem_of_get? other)
          rw [Object.get?_of_mem distinct listed] at found
          cases found

/-- An observation reads the index only through its lookups. -/
theorem publicNode_same {left right : Object} (same : ∀ key, left.get? key = right.get? key) (member : Object) :
    publicNode left member = publicNode right member := by
  unfold publicNode itemObject item
  simp only [same]

section Response

variable {members : List Object} {response other : Object} {items others : List Json} {observation : Object}
  (areSettings : value plan "settings" = .obj settings) (listed : value plan "members" = .arr (members.map .obj))
  (addressable : Addressable members) (isList : value response "items" = .arr items)

include areSettings listed addressable isList

theorem nodeObservations_iff : nodeObservations (.obj plan) (.obj response) = .ok observation ↔
    ∃ named observed, (∃ entries, Verified plan settings members items entries) ∧
      List.Forall₂ IndexedAs items named ∧ (named.map Prod.fst).Nodup ∧
      List.Forall₂ (fun member entry => publicNode (index named) member = .ok entry) members observed ∧
      observation = [("nodes", .arr observed)] := by
  have indexes {named : List (String × Object)} (indexed : List.Forall₂ IndexedAs items named)
      (distinct : (named.map Prod.fst).Nodup) : indexByName items [] = .ok (index named) := by
    have names : ((([] : Object) ++ index named).map Prod.fst).Nodup := by
      rw [List.nil_append, index_names]
      exact distinct
    exact indexByName_eq indexed names
  constructor
  · intro done
    obtain ⟨verified, checked, done⟩ := bind_ok done
    obtain ⟨same, entries, verifies⟩ := (verifyNodes_iff areSettings listed addressable isList).mp checked
    obtain ⟨named, indexed, distinct⟩ := verifies.named
    rw [same] at done
    obtain ⟨_, isResponse, done⟩ := bind_ok done
    cases isResponse
    obtain ⟨raws, areMembers, done⟩ := bind_ok done
    cases listed.symm.trans (list_iff.mp areMembers)
    obtain ⟨nodes, areNodes, done⟩ := bind_ok done
    cases isList.symm.trans (list_iff.mp areNodes)
    obtain ⟨byName, isIndex, done⟩ := bind_ok done
    cases (indexes indexed distinct).symm.trans isIndex
    obtain ⟨observed, each, done⟩ := bind_ok done
    obtain rfl := Except.ok.inj done
    have each := mapM_ok.mp each
    rw [List.forall₂_map_left_iff] at each
    exact ⟨named, observed, ⟨entries, verifies⟩, indexed, distinct, each, rfl⟩
  · intro ⟨named, observed, verified, indexed, distinct, each, same⟩
    have checked := (verifyNodes_iff areSettings listed addressable isList).mpr ⟨rfl, verified⟩
    have each : (members.map Json.obj).mapM (fun raw => do
        let member ← mapping raw "member"
        publicNode (index named) member) = .ok observed := by
      rw [mapM_ok, List.forall₂_map_left_iff]
      exact each
    rw [nodeObservations, checked, ok_bind_eq, mapping, ok_bind_eq, listed, list, ok_bind_eq, isList, list, ok_bind_eq,
      indexes indexed distinct, ok_bind_eq, each, same]
    rfl

theorem nodeObservations_perm (same : items.Perm others) (areOthers : value other "items" = .arr others)
    (done : nodeObservations (.obj plan) (.obj response) = .ok observation) :
    nodeObservations (.obj plan) (.obj other) = .ok observation := by
  obtain ⟨named, observed, ⟨entries, verified⟩, indexed, distinct, each, shape⟩ :=
    (nodeObservations_iff areSettings listed addressable isList).mp done
  obtain ⟨permuted, _, verifies⟩ := verified.perm same
  obtain ⟨reordered, indexes, perm⟩ := List.perm_comp_forall₂ same.symm indexed
  have names : ((index named).map Prod.fst).Nodup := by
    rw [index_names]
    exact distinct
  have lookups := fun key : String => get?_perm (perm.map fun entry : String × Object =>
    (entry.1, Json.obj entry.2)) names key
  refine (nodeObservations_iff areSettings listed addressable areOthers).mpr ⟨reordered, observed, ⟨permuted, verifies⟩,
    indexes, (perm.map _).nodup_iff.mpr distinct, ?_, shape⟩
  refine each.imp ?_
  intro member entry shown
  exact (publicNode_same lookups member).trans shown

end Response

/-! ## The Nodes of a plan -/

/-- The listed Nodes are those of the members, one each, on disjoint subnets of the pod network. -/
structure Matched (plan : Object) (pods : Ipv4Network) (members : List Object) (items : List Json)
    (matched : List (Json × Ipv4Network)) : Prop where
  every : (matched.map Prod.fst).Perm items
  carries : List.Forall₂ (fun member node => Carries plan member node.1 node.2) members matched
  distinct : (members.map nodeNameOf).Nodup
  inside : ∀ node ∈ matched, ∀ address, node.2.Contains address → pods.Contains address
  disjoint : matched.Pairwise fun left right => ∀ address, left.2.Contains address → ¬ right.2.Contains address

theorem memberIndex_get? {members : List Object} {member found : Object} (distinct : (members.map nodeNameOf).Nodup)
    (listed : member ∈ members) (lookup : (memberIndex members).get? (nodeNameOf member) = some (.obj found)) :
    found = member := by
  have names : ((memberIndex members).map Prod.fst).Nodup := by
    rw [memberIndex_names]
    exact distinct
  have stored := Object.get?_of_mem names
    (List.mem_map_of_mem (f := fun member => (nodeNameOf member, Json.obj member)) listed)
  rw [stored] at lookup
  exact (Json.obj.inj (Option.some.inj lookup)).symm

theorem accepted_carries {members : List Object} {member : Object} {raw : Json} {entry : String × Ipv4Network}
    {pods : Ipv4Network} (distinct : (members.map nodeNameOf).Nodup) (listed : member ∈ members)
    (identified : Identified plan member) (arePods : ipv4Network (value settings "podCIDR") "podCIDR" = .ok pods)
    (named : nodeNameOf member = entry.1) (accepted : Accepts (memberIndex members) settings plan raw entry) :
    Carries plan member raw entry.2 ∧ ∀ address, entry.2.Contains address → pods.Contains address := by
  obtain ⟨node, metadata, found, rfl, isMetadata, isName, lookup, valid, fits⟩ := accepted
  rw [← named] at lookup isName
  obtain rfl := memberIndex_get? distinct listed lookup
  obtain ⟨server, cluster, control⟩ := validateNode_carries identified isMetadata valid
  obtain ⟨subnet, inside⟩ := nodeSubnet_inside arePods fits
  refine ⟨⟨?_, server, cluster, control, subnet⟩, inside⟩
  rw [metadataOf_obj isMetadata]
  exact (text_ok isName).1

theorem Verified.carried {members : List Object} {items : List Json} {entries : List (String × Ipv4Network)}
    {pods : Ipv4Network} (verified : Verified plan settings members items entries)
    (distinct : (members.map nodeNameOf).Nodup) (identified : ∀ member ∈ members, Identified plan member)
    (arePods : ipv4Network (value settings "podCIDR") "podCIDR" = .ok pods) :
    ∃ matched, Matched plan pods members items matched := by
  obtain ⟨nodes, ordered, every, perm, accepted, named⟩ := verified.matched
  have apart : (ordered.map Prod.snd).Pairwise fun left right => right.overlaps left = false := by
    refine ((perm.map Prod.snd).pairwise_iff ?_).mpr verified.2.2.1
    intro left right apart
    rw [Ipv4Network.overlaps_comm]
    exact apart
  have pairs : ∀ {chosen}, List.Forall₂ (fun member entry => nodeNameOf member = entry.1) chosen ordered →
      chosen ⊆ members → ∃ matched : List (Json × Ipv4Network), matched.map Prod.fst = nodes ∧
        matched.map Prod.snd = ordered.map Prod.snd ∧
        List.Forall₂ (fun member node => Carries plan member node.1 node.2) chosen matched ∧
        ∀ node ∈ matched, ∀ address, node.2.Contains address → pods.Contains address := by
    clear every perm apart named
    induction accepted with
    | nil =>
        intro chosen named _
        cases named
        exact ⟨[], rfl, rfl, .nil, by simp⟩
    | @cons raw entry nodes ordered first _ ih =>
        intro chosen named known
        cases named with
        | @cons member _ chosen _ same later =>
            have listed := known List.mem_cons_self
            obtain ⟨matched, isFirst, isSecond, carries, inside⟩ :=
              ih later fun other inside => known (List.mem_cons_of_mem _ inside)
            obtain ⟨carried, within⟩ := accepted_carries distinct listed (identified member listed) arePods same first
            refine ⟨(raw, entry.2) :: matched, ?_, ?_, .cons carried carries, ?_⟩
            · rw [List.map_cons, isFirst]
            · rw [List.map_cons, List.map_cons, isSecond]
            · intro node member
              cases List.mem_cons.mp member with
              | inl same =>
                  subst same
                  exact within
              | inr later => exact inside node later
  obtain ⟨matched, isFirst, isSecond, carries, inside⟩ := pairs named (List.Subset.refl _)
  refine ⟨matched, isFirst ▸ every, carries, distinct, inside, ?_⟩
  rw [← isSecond, List.pairwise_map] at apart
  refine apart.imp ?_
  intro left right apart address inLeft inRight
  rw [Ipv4Network.overlaps_iff.mpr ⟨address, inRight, inLeft⟩] at apart
  cases apart

/-- What an observation of verified Nodes shows, member by member. -/
theorem observed_shows {members : List Object} {items : List Json} {matched : List (Json × Ipv4Network)}
    {named : List (String × Object)} {observed : List Json} (addressable : Addressable members)
    (carries : List.Forall₂ (fun member node => Carries plan member node.1 node.2) members matched)
    (every : ∀ node ∈ matched, node.1 ∈ items) (indexed : List.Forall₂ IndexedAs items named)
    (distinct : (named.map Prod.fst).Nodup)
    (each : List.Forall₂ (fun member entry => publicNode (index named) member = .ok entry) members observed) :
    List.Forall₂ (fun pair entry => Shows pair.1 pair.2.1 entry) (members.zip matched) observed := by
  have stored := addressable.named
  clear addressable
  induction carries generalizing observed with
  | nil =>
      cases each
      exact .nil
  | @cons member node members matched carried _ ih =>
      cases each with
      | @cons _ entry _ observed shown each =>
          refine .cons ?_ (ih (fun node listed => every node (by simp [listed])) each
            fun other listed => stored other (by simp [listed]))
          obtain ⟨entry', listed, metadata, named'⟩ := mem_left indexed (every node (by simp))
          have sameName : entry'.1 = nodeNameOf member := by
            have name := carried.name
            rw [named'.isNode, metadataOf_obj named'.isMetadata, named'.named] at name
            exact Json.str.inj name
          have names : ((index named).map Prod.fst).Nodup := by
            rw [index_names]
            exact distinct
          have lookup := Object.get?_of_mem names
            (List.mem_map_of_mem (f := fun entry : String × Object => (entry.1, Json.obj entry.2)) listed)
          rw [sameName] at lookup
          rw [named'.isNode]
          exact publicNode_shows lookup (stored member (by simp)).1 shown

/-- Verified Nodes are those of the planned members, and their observation is about exactly these, in any order. -/
theorem nodes_observed {target captured response : Json} {result : Object}
    (planned : clusterPlan target captured = .ok plan) (verified : verifyNodes (.obj plan) response = .ok result) :
    ∃ servers members pods services items matched, Planned target servers plan members pods services ∧
      value response.fields "items" = .arr items ∧ Matched plan pods members items matched ∧
      (∀ observation, nodeObservations (.obj plan) response = .ok observation →
        ∃ entries, observation = [("nodes", .arr entries)] ∧
          List.Forall₂ (fun pair entry => Shows pair.1 pair.2.1 entry) (members.zip matched) entries) ∧
      ∀ other others, value other "items" = .arr others → items.Perm others →
        ∀ observation, nodeObservations (.obj plan) response = .ok observation ↔
          nodeObservations (.obj plan) (.obj other) = .ok observation := by
  obtain ⟨servers, members, pods, services, _, agreed⟩ := clusterPlan_ok planned
  obtain ⟨clusterName, clusterUid, _, _, _, isUid, selection⟩ := agreed.selected
  obtain ⟨settings, _, areSettings, arePods, _⟩ := agreed.settled
  have addressable := selection.addressable
  have identified : ∀ member ∈ members, Identified plan member := by
    intro member listed
    obtain ⟨nodes, _, contribute⟩ := selection.exactly
    obtain ⟨node, _, contributes⟩ := mem_right contribute listed
    obtain ⟨uid, isServer⟩ := contributes.identified
    exact ⟨⟨uid, contributes.uid.trans isServer⟩, ⟨clusterUid, isUid⟩⟩
  obtain ⟨fields, rfl, items, isList⟩ : ∃ fields, response = .obj fields ∧
      ∃ items, value fields "items" = .arr items := by
    obtain ⟨plan', _, read⟩ := bind_ok verified
    obtain ⟨settings', _, read⟩ := bind_ok read
    obtain ⟨fields, isResponse, read⟩ := bind_ok read
    obtain ⟨expected, _, read⟩ := bind_ok read
    obtain ⟨items, isList, _⟩ := bind_ok read
    exact ⟨fields, mapping_ok isResponse, items, list_iff.mp isList⟩
  obtain ⟨_, entries, verifies⟩ := (verifyNodes_iff areSettings agreed.listed addressable isList).mp verified
  obtain ⟨matched, matches'⟩ := verifies.carried addressable.distinct identified arePods
  refine ⟨servers, members, pods, services, items, matched, agreed, isList, matches', ?_, ?_⟩
  · intro observation observed
    obtain ⟨named, shown, _, indexed, distinct, each, shape⟩ :=
      (nodeObservations_iff areSettings agreed.listed addressable isList).mp observed
    have every : ∀ node ∈ matched, node.1 ∈ items :=
      fun node member => matches'.every.mem_iff.mp (List.mem_map_of_mem member)
    exact ⟨shown, shape, observed_shows addressable matches'.carries every indexed distinct each⟩
  · intro other others areOthers same observation
    constructor
    · exact nodeObservations_perm areSettings agreed.listed addressable isList same areOthers
    · exact nodeObservations_perm areSettings agreed.listed addressable areOthers same.symm isList

/-! ### Two Nodes that report their systems -/

def reportingNode (name server podCIDR address : String) (roles : Object) : Json :=
  .obj [
    ("metadata", .obj [("name", .str name), ("uid", .str ("node-" ++ name)), ("labels", .obj
      ([(serverLabel, .str server), (clusterLabel, .str "cluster-1")] ++ roles))]),
    ("spec", .obj [("podCIDR", .str podCIDR)]),
    ("status", .obj [
      ("nodeInfo", .obj [("kubeletVersion", .str "v1.33.1"), ("containerRuntimeVersion", .str "containerd://2.1.0"),
        ("osImage", .str "Debian GNU/Linux 13"), ("kernelVersion", .str "6.12.0")]),
      ("addresses", .arr [.obj [("type", .str "Hostname"), ("address", .str name)],
        .obj [("type", .str "InternalIP"), ("address", .str address)]]),
      ("conditions", .arr [.obj [("type", .str "Ready"), ("status", .str "True")]])])]

def reportingNodes : List Json :=
  [reportingNode "main" "server-1" "10.244.0.0/24" "10.0.0.1" [(controlPlaneLabel, .str "")],
    reportingNode "beelink" "server-2" "10.244.1.0/24" "10.0.0.2" []]

theorem nodes_observed_reporting : ∃ plan observation pods members matched entries,
    clusterPlan clusterTarget capturedServers = .ok plan ∧ Matched plan pods members reportingNodes matched ∧
      nodeObservations (.obj plan) (.obj [("items", .arr reportingNodes)]) = .ok observation ∧
      nodeObservations (.obj plan) (.obj [("items", .arr reportingNodes.reverse)]) = .ok observation ∧
      observation = [("nodes", .arr entries)] := by
  have decided : (clusterPlan clusterTarget capturedServers).toOption.any (fun plan =>
      (verifyNodes (.obj plan) (.obj [("items", .arr reportingNodes)])).toOption.isSome &&
        (nodeObservations (.obj plan) (.obj [("items", .arr reportingNodes)])).toOption.isSome) = true := by
    decide +kernel
  obtain ⟨plan, found, checked⟩ := (Option.any_eq_true _ _).mp decided
  rw [Bool.and_eq_true, Option.isSome_iff_exists, Option.isSome_iff_exists] at checked
  obtain ⟨⟨result, verified⟩, observation, observed⟩ := checked
  have planned := ok_of_toOption found
  obtain ⟨servers, members, pods, services, items, matched, _, isList, matches', shows, order⟩ :=
    nodes_observed planned (ok_of_toOption verified)
  cases isList
  obtain ⟨entries, shape, _⟩ := shows observation (ok_of_toOption observed)
  have reversed := (order [("items", .arr reportingNodes.reverse)] _ rfl (List.reverse_perm _).symm observation).mp
    (ok_of_toOption observed)
  exact ⟨plan, observation, pods, members, matched, entries, planned, matches', ok_of_toOption observed, reversed,
    shape⟩

end Homelab.KubePlan
