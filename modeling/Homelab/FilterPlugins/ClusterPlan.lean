import Mathlib.Data.List.Pairwise
import Mathlib.Data.List.Perm.Basic
import Mathlib.Data.List.ReduceOption
import Homelab.FilterPlugins.Agreement

namespace Homelab.KubePlan

open Json (Object)

/-! # The cluster plan

The order in which Servers were captured decides neither whether they make a
cluster nor which one.
-/

/-- The captured Server is labelled with the name of the cluster. -/
def Labels (clusterName : String) (raw : Json) : Prop :=
  value (value raw.fields "labels").fields "homelab.io/kube-cluster" = .str clusterName

instance (clusterName : String) (raw : Json) : Decidable (Labels clusterName raw) :=
  inferInstanceAs (Decidable (_ = _))

/-- What a labelled Server contributes to the plan. -/
structure Contributes (clusterName clusterUid : String) (node member : Object) : Prop where
  labelled : Labels clusterName (.obj node)
  binding : value (value node "annotations").fields "homelab.io/kube-cluster-uid" = .null ∨
    value (value node "annotations").fields "homelab.io/kube-cluster-uid" = .str clusterUid
  name : value node "name" = .str (nameOf member)
  uid : value member "uid" = value node "uid"
  identified : ∃ uid, value node "uid" = .str uid
  nodeName : nodeNameOf member =
    match (value node "annotations").fields.get? "homelab.io/kube-node-name" with
    | some (.str chosen) => chosen
    | _ => nameOf member
  valid : dnsName (nodeNameOf member) = true
  role : value member "role" = value (value node "labels").fields "homelab.io/kube-role"

variable {clusterName clusterUid : String} {node member : Object} {names : List String}

theorem valueOr_fields {fields inner : Object} {key : String}
    (found : valueOr fields key (.obj []) = .obj inner) : (value fields key).fields = inner := by
  unfold valueOr at found
  unfold value
  cases lookup : fields.get? key with
  | none =>
      rw [lookup] at found
      cases found
      rfl
  | some stored =>
      rw [lookup] at found
      obtain rfl : stored = .obj inner := found
      rfl

theorem valueOr_str {fields : Object} {key chosen default : String}
    (found : valueOr fields key (.str default) = .str chosen) :
    chosen = match fields.get? key with
      | some (.str written) => written
      | _ => default := by
  unfold valueOr at found
  cases lookup : fields.get? key with
  | none =>
      rw [lookup] at found
      exact (Json.str.inj found).symm
  | some stored =>
      rw [lookup] at found
      obtain rfl : stored = .str chosen := found
      rfl

/-- Selecting a member depends on the names taken already only through their being taken. -/
theorem selectMember_some :
    selectMember node clusterName clusterUid names = .ok (some member) ↔
      selectMember node clusterName clusterUid [] = .ok (some member) ∧ nodeNameOf member ∉ names := by
  unfold selectMember
  constructor
  · intro done
    obtain ⟨labels, isLabels, done⟩ := bind_ok done
    simp only [isLabels, ok_bind_eq]
    split at done
    · rename_i labelled
      obtain ⟨annotations, isAnnotations, done⟩ := bind_ok done
      obtain ⟨_, bound, done⟩ := bind_ok done
      obtain ⟨name, isName, done⟩ := bind_ok done
      obtain ⟨nodeName, isNodeName, done⟩ := bind_ok done
      obtain ⟨role, isRole, done⟩ := bind_ok done
      obtain ⟨_, knownRole, done⟩ := bind_ok done
      obtain ⟨_, fresh, done⟩ := bind_ok done
      obtain ⟨uid, isUid, done⟩ := bind_ok done
      obtain ⟨options, areOptions, done⟩ := bind_ok done
      obtain rfl := Option.some.inj (Except.ok.inj done)
      have fresh := Bool.and_eq_true_iff.mp (demand_ok fresh)
      refine ⟨?_, ?_⟩
      · simp only [if_pos labelled, isAnnotations, ok_bind_eq, bound, isName, isNodeName, isRole,
          knownRole, isUid, areOptions, fresh.1]
        rfl
      · have taken : nodeName ∉ names := by simpa using fresh.2
        simpa [nodeNameOf] using taken
    · cases done
  · intro ⟨done, absent⟩
    obtain ⟨labels, isLabels, done⟩ := bind_ok done
    simp only [isLabels, ok_bind_eq]
    split at done
    · rename_i labelled
      obtain ⟨annotations, isAnnotations, done⟩ := bind_ok done
      obtain ⟨_, bound, done⟩ := bind_ok done
      obtain ⟨name, isName, done⟩ := bind_ok done
      obtain ⟨nodeName, isNodeName, done⟩ := bind_ok done
      obtain ⟨role, isRole, done⟩ := bind_ok done
      obtain ⟨_, knownRole, done⟩ := bind_ok done
      obtain ⟨_, fresh, done⟩ := bind_ok done
      obtain ⟨uid, isUid, done⟩ := bind_ok done
      obtain ⟨options, areOptions, done⟩ := bind_ok done
      obtain rfl := Option.some.inj (Except.ok.inj done)
      have valid := (Bool.and_eq_true_iff.mp (demand_ok fresh)).1
      have free : (!names.contains nodeName) = true := by simpa [nodeNameOf] using absent
      simp only [if_pos labelled, isAnnotations, ok_bind_eq, bound, isName, isNodeName, isRole,
        knownRole, isUid, areOptions, valid, free]
      rfl
    · cases done

theorem selectMember_none_iff : selectMember node clusterName clusterUid names = .ok none ↔
    ∃ labels, mapping (valueOr node "labels" (.obj [])) "Server labels" = .ok labels ∧
      value labels "homelab.io/kube-cluster" ≠ .str clusterName := by
  unfold selectMember
  constructor
  · intro done
    obtain ⟨labels, isLabels, done⟩ := bind_ok done
    refine ⟨labels, isLabels, ?_⟩
    split at done
    · obtain ⟨_, _, done⟩ := bind_ok done
      obtain ⟨_, _, done⟩ := bind_ok done
      obtain ⟨_, _, done⟩ := bind_ok done
      obtain ⟨_, _, done⟩ := bind_ok done
      obtain ⟨_, _, done⟩ := bind_ok done
      obtain ⟨_, _, done⟩ := bind_ok done
      obtain ⟨_, _, done⟩ := bind_ok done
      obtain ⟨_, _, done⟩ := bind_ok done
      obtain ⟨_, _, done⟩ := bind_ok done
      cases done
    · rename_i other
      exact other
  · intro ⟨labels, isLabels, other⟩
    rw [isLabels, ok_bind_eq, if_neg other]
    rfl

theorem selectMember_none : selectMember node clusterName clusterUid names = .ok none ↔
    selectMember node clusterName clusterUid [] = .ok none :=
  selectMember_none_iff.trans selectMember_none_iff.symm

theorem selectMember_contributes (selected : selectMember node clusterName clusterUid [] = .ok (some member)) :
    Contributes clusterName clusterUid node member := by
  unfold selectMember at selected
  obtain ⟨labels, isLabels, selected⟩ := bind_ok selected
  have sameLabels := valueOr_fields (mapping_ok isLabels)
  split at selected
  · rename_i labelled
    obtain ⟨annotations, isAnnotations, selected⟩ := bind_ok selected
    obtain ⟨_, bound, selected⟩ := bind_ok selected
    obtain ⟨name, isName, selected⟩ := bind_ok selected
    obtain ⟨nodeName, isNodeName, selected⟩ := bind_ok selected
    obtain ⟨role, isRole, selected⟩ := bind_ok selected
    obtain ⟨_, _, selected⟩ := bind_ok selected
    obtain ⟨_, fresh, selected⟩ := bind_ok selected
    obtain ⟨uid, isUid, selected⟩ := bind_ok selected
    obtain ⟨options, _, selected⟩ := bind_ok selected
    obtain rfl := Option.some.inj (Except.ok.inj selected)
    have sameAnnotations := valueOr_fields (mapping_ok isAnnotations)
    exact {
      labelled := by
        rw [Labels, Json.fields, sameLabels]
        exact labelled
      binding := by
        rw [sameAnnotations]
        simpa using demand_ok bound
      name := by
        rw [(text_ok isName).1]
        simp [nameOf]
      uid := by
        rw [(text_ok isUid).1]
        simp [value]
      identified := ⟨uid, (text_ok isUid).1⟩
      nodeName := by
        rw [sameAnnotations]
        have chosen := valueOr_str (text_ok isNodeName).1
        simpa [nodeNameOf, nameOf] using chosen
      valid := by
        simpa [nodeNameOf] using (Bool.and_eq_true_iff.mp (demand_ok fresh)).1
      role := by
        rw [sameLabels, (text_ok isRole).1]
        simp [value] }
  · cases selected

/-! ## Collecting members -/

/-- What one captured Server is, whatever the others are. -/
def selectOne (clusterName clusterUid : String) (raw : Json) : Except Exn (Option Object) := do
  let node ← mapping raw "captured Server"
  selectMember node clusterName clusterUid []

/-- Collecting fails on no order of Servers, or on all of them. -/
theorem collectMembers_iff {items : List Json} {members result : List Object} :
    collectMembers clusterName clusterUid items members = .ok result ↔
      ∃ picks, List.Forall₂ (fun raw pick => selectOne clusterName clusterUid raw = .ok pick) items picks ∧
        result = members ++ picks.reduceOption ∧
        (picks.reduceOption.map nodeNameOf).Nodup ∧
        ∀ pick ∈ picks.reduceOption, nodeNameOf pick ∉ members.map nodeNameOf := by
  induction items generalizing members with
  | nil =>
      constructor
      · intro done
        cases done
        exact ⟨[], .nil, by simp [List.reduceOption_nil], by simp [List.reduceOption_nil],
          by simp [List.reduceOption_nil]⟩
      · rintro ⟨picks, picked, same, _⟩
        cases picked
        rw [same]
        simp [collectMembers, List.reduceOption_nil]
  | cons raw rest ih =>
      constructor
      · intro done
        obtain ⟨node, isNode, done⟩ := bind_ok done
        obtain ⟨pick, selected, done⟩ := bind_ok done
        cases pick with
        | none =>
            obtain ⟨picks, picked, facts⟩ := ih.mp done
            refine ⟨none :: picks, .cons ?_ picked, facts⟩
            rw [selectOne, isNode, ok_bind_eq]
            exact selectMember_none.mp selected
        | some member =>
            obtain ⟨alone, fresh⟩ := selectMember_some.mp selected
            obtain ⟨picks, picked, same, distinct, apart⟩ := ih.mp done
            refine ⟨some member :: picks, .cons ?_ picked, ?_, ?_, ?_⟩
            · rw [selectOne, isNode, ok_bind_eq]
              exact alone
            · rw [same, List.append_assoc]
              rfl
            · rw [List.reduceOption_cons_of_some, List.map_cons, List.nodup_cons]
              refine ⟨fun taken => ?_, distinct⟩
              obtain ⟨other, listed, equal⟩ := List.mem_map.mp taken
              exact apart other listed (by simp [equal])
            · intro pick listed
              rw [List.reduceOption_cons_of_some] at listed
              cases List.mem_cons.mp listed with
              | inl found =>
                  rw [found]
                  exact fresh
              | inr later =>
                  intro taken
                  exact apart pick later (by simp [taken])
      · rintro ⟨picks, picked, same, distinct, apart⟩
        cases picked with
        | @cons _ pick _ picks selected picked =>
            obtain ⟨node, isNode, alone⟩ := bind_ok selected
            rw [collectMembers, isNode, ok_bind_eq]
            cases pick with
            | none =>
                rw [selectMember_none.mpr alone, ok_bind_eq]
                exact ih.mpr ⟨picks, picked, same, distinct, apart⟩
            | some member =>
                rw [List.reduceOption_cons_of_some] at same distinct apart
                rw [List.map_cons, List.nodup_cons] at distinct
                have fresh := apart member List.mem_cons_self
                rw [selectMember_some.mpr ⟨alone, fresh⟩, ok_bind_eq]
                refine ih.mpr ⟨picks, picked, ?_, distinct.2, fun other listed => ?_⟩
                · rw [same, List.append_assoc]
                  rfl
                · rw [List.map_append, List.mem_append, not_or]
                  refine ⟨apart other (List.mem_cons_of_mem _ listed), fun same => ?_⟩
                  have equal : nodeNameOf other = nodeNameOf member := by simpa using same
                  exact distinct.1 (equal ▸ List.mem_map_of_mem listed)

/-! ## Any order of capture -/

/-- No two captured Servers have the same name. -/
def DistinctNames (items : List Json) : Prop :=
  items.Pairwise fun left right =>
    ∀ name, value left.fields "name" = .str name → value right.fields "name" ≠ .str name

theorem selectOne_contributes {raw : Json} (selected : selectOne clusterName clusterUid raw = .ok (some member)) :
    ∃ node, raw = .obj node ∧ Contributes clusterName clusterUid node member := by
  obtain ⟨node, isNode, alone⟩ := bind_ok selected
  exact ⟨node, mapping_ok isNode, selectMember_contributes alone⟩

theorem selectOne_none {raw : Json} (selected : selectOne clusterName clusterUid raw = .ok none) :
    ¬ Labels clusterName raw := by
  obtain ⟨node, isNode, alone⟩ := bind_ok selected
  obtain ⟨labels, isLabels, other⟩ := selectMember_none_iff.mp alone
  rw [mapping_ok isNode, Labels, Json.fields, valueOr_fields (mapping_ok isLabels)]
  exact other

theorem picked_names {items : List Json} {picks : List (Option Object)}
    (picked : List.Forall₂ (fun raw pick => selectOne clusterName clusterUid raw = .ok pick) items picks)
    (distinct : DistinctNames items) :
    picks.reduceOption.Pairwise fun left right => nameOf left ≠ nameOf right := by
  induction picked with
  | nil => simp [List.reduceOption_nil]
  | @cons raw pick rest picks selected picked ih =>
      obtain ⟨apart, distinct⟩ := List.pairwise_cons.mp distinct
      cases pick with
      | none => exact ih distinct
      | some member =>
          rw [List.reduceOption_cons_of_some, List.pairwise_cons]
          refine ⟨fun other listed same => ?_, ih distinct⟩
          obtain ⟨node, rfl, contributes⟩ := selectOne_contributes selected
          obtain ⟨later, present, chosen⟩ := mem_right picked (List.reduceOption_mem_iff.mp listed)
          obtain ⟨second, rfl, others⟩ := selectOne_contributes chosen
          exact apart _ present _ contributes.name (same ▸ others.name)

theorem collectMembers_perm {items others : List Json} {result : List Object} (same : items.Perm others)
    (done : collectMembers clusterName clusterUid items [] = .ok result) :
    ∃ permuted, collectMembers clusterName clusterUid others [] = .ok permuted ∧ permuted.Perm result := by
  obtain ⟨picks, picked, rfl, distinct, _⟩ := collectMembers_iff.mp done
  obtain ⟨middle, chosen, perm⟩ := List.perm_comp_forall₂ same.symm picked
  have members : middle.reduceOption.Perm picks.reduceOption := perm.filterMap id
  refine ⟨middle.reduceOption, collectMembers_iff.mpr ⟨middle, chosen, rfl, ?_, by simp⟩, members⟩
  exact (members.map nodeNameOf).nodup_iff.mpr distinct

/-- Members with distinct names have one order by name. -/
theorem sorted_eq {left right : List Object} (same : left.Perm right)
    (distinct : right.Pairwise fun first second => nameOf first ≠ nameOf second) :
    left.insertionSort (fun first second => nameOf first ≤ nameOf second) =
      right.insertionSort fun first second => nameOf first ≤ nameOf second := by
  have total : Std.Total fun first second : Object => nameOf first ≤ nameOf second :=
    ⟨fun first second => String.le_total (nameOf first) (nameOf second)⟩
  have transitive : IsTrans Object fun first second => nameOf first ≤ nameOf second :=
    ⟨fun _ _ _ lower upper => String.le_trans lower upper⟩
  have perm := (List.perm_insertionSort (fun first second => nameOf first ≤ nameOf second) left).trans
    (same.trans (List.perm_insertionSort (fun first second => nameOf first ≤ nameOf second) right).symm)
  refine List.Perm.eq_of_pairwise ?_ (List.pairwise_insertionSort _ left) (List.pairwise_insertionSort _ right) perm
  intro first second listed other lower upper
  have listed := same.mem_iff.mp ((List.mem_insertionSort _).mp listed)
  have other := (List.mem_insertionSort _).mp other
  have equal := String.le_antisymm lower upper
  by_cases identical : first = second
  · exact identical
  · have symmetric : Std.Symm fun first second : Object => nameOf first ≠ nameOf second := ⟨fun _ _ apart => apart.symm⟩
    exact absurd equal (distinct.forall listed other identical)

theorem selectedMembers_perm {items others : List Json} {result : List Object} (same : items.Perm others)
    (distinct : DistinctNames items)
    (done : selectedMembers (.arr items) clusterName clusterUid = .ok result) :
    selectedMembers (.arr others) clusterName clusterUid = .ok result := by
  obtain ⟨listed, isList, done⟩ := bind_ok done
  cases isList
  obtain ⟨members, collected, done⟩ := bind_ok done
  obtain ⟨_, single, done⟩ := bind_ok done
  obtain ⟨permuted, again, perm⟩ := collectMembers_perm same collected
  obtain ⟨picks, picked, shape, _⟩ := collectMembers_iff.mp collected
  have names : members.Pairwise fun left right => nameOf left ≠ nameOf right := by
    rw [shape]
    exact picked_names picked distinct
  have counted : permuted.countP isControlPlane = members.countP isControlPlane := perm.countP_eq _
  have sorted := sorted_eq perm names
  rw [selectedMembers, list, ok_bind_eq, again, ok_bind_eq, counted, single, ok_bind_eq, sorted]
  exact done

/-! ## What a plan says -/

theorem picked_exactly {items : List Json} {picks : List (Option Object)}
    (picked : List.Forall₂ (fun raw pick => selectOne clusterName clusterUid raw = .ok pick) items picks) :
    ∃ nodes, items.filter (fun raw => Labels clusterName raw) = nodes.map .obj ∧
      List.Forall₂ (Contributes clusterName clusterUid) nodes picks.reduceOption := by
  induction picked with
  | nil => exact ⟨[], rfl, .nil⟩
  | @cons raw pick rest picks selected _ ih =>
      obtain ⟨nodes, same, contribute⟩ := ih
      cases pick with
      | none =>
          have unlabelled := selectOne_none selected
          refine ⟨nodes, ?_, contribute⟩
          rw [List.filter_cons_of_neg (by simpa using unlabelled), same]
      | some member =>
          obtain ⟨node, rfl, contributes⟩ := selectOne_contributes selected
          refine ⟨node :: nodes, ?_, ?_⟩
          · rw [List.filter_cons_of_pos (by simpa using contributes.labelled), same, List.map_cons]
          · rw [List.reduceOption_cons_of_some]
            exact .cons contributes contribute

/-- The members that are selected from the captured Servers. -/
structure Selection (clusterName clusterUid : String) (items : List Json) (members : List Object) : Prop where
  exactly : ∃ nodes, (items.filter fun raw => Labels clusterName raw).Perm (nodes.map .obj) ∧
    List.Forall₂ (Contributes clusterName clusterUid) nodes members
  sorted : members.Pairwise fun left right => nameOf left ≤ nameOf right
  distinct : (members.map nodeNameOf).Nodup
  control : members.countP isControlPlane = 1

theorem selectedMembers_ok {nodes : Json} {members : List Object}
    (done : selectedMembers nodes clusterName clusterUid = .ok members) :
    ∃ items, nodes = .arr items ∧ Selection clusterName clusterUid items members := by
  obtain ⟨items, isList, done⟩ := bind_ok done
  obtain ⟨collected, collects, done⟩ := bind_ok done
  obtain ⟨_, single, done⟩ := bind_ok done
  obtain rfl := Except.ok.inj done
  obtain ⟨picks, picked, rfl, distinct, _⟩ := collectMembers_iff.mp collects
  have perm := List.perm_insertionSort (fun left right => nameOf left ≤ nameOf right) ([] ++ picks.reduceOption)
  obtain ⟨captured, labelled, contribute⟩ := picked_exactly picked
  obtain ⟨members, contribute, reordered⟩ := List.perm_comp_forall₂ perm contribute.flip
  refine ⟨items, list_iff.mp isList, ?_, ?_, ?_, ?_⟩
  · refine ⟨members, ?_, contribute.flip⟩
    rw [labelled]
    exact (reordered.map _).symm
  · have total : Std.Total fun first second : Object => nameOf first ≤ nameOf second :=
      ⟨fun first second => String.le_total (nameOf first) (nameOf second)⟩
    have transitive : IsTrans Object fun first second => nameOf first ≤ nameOf second :=
      ⟨fun _ _ _ lower upper => String.le_trans lower upper⟩
    exact List.pairwise_insertionSort _ _
  · exact (perm.map nodeNameOf).nodup_iff.mpr distinct
  · rw [perm.countP_eq]
    simpa using demand_ok single

/-! ## Networks -/

namespace Ipv4Network

/-- The address lies in the network. -/
def Contains (network : Ipv4Network) (address : Nat) : Prop := network.first ≤ address ∧ address ≤ network.last

variable {network left right inner outer : Ipv4Network}

theorem first_le_last : network.first ≤ network.last := by
  have positive : 0 < 2 ^ (32 - network.length) := Nat.pow_pos (by decide)
  rw [first, last]
  omega

theorem overlaps_iff : left.overlaps right = true ↔ ∃ address, left.Contains address ∧ right.Contains address := by
  have leftOrdered := left.first_le_last
  have rightOrdered := right.first_le_last
  rw [overlaps, Bool.and_eq_true, decide_eq_true_eq, decide_eq_true_eq]
  constructor
  · intro ⟨before, after⟩
    by_cases lower : left.first ≤ right.first
    · exact ⟨right.first, ⟨lower, after⟩, ⟨Nat.le_refl _, rightOrdered⟩⟩
    · exact ⟨left.first, ⟨Nat.le_refl _, leftOrdered⟩, ⟨by omega, before⟩⟩
  · intro ⟨address, inLeft, inRight⟩
    exact ⟨Nat.le_trans inLeft.1 inRight.2, Nat.le_trans inRight.1 inLeft.2⟩

theorem overlaps_comm : left.overlaps right = right.overlaps left := by
  rw [overlaps, overlaps, Bool.and_comm]

theorem subnetOf_iff : inner.subnetOf outer = true ↔ ∀ address, inner.Contains address → outer.Contains address := by
  rw [subnetOf, Bool.and_eq_true, decide_eq_true_eq, decide_eq_true_eq]
  constructor
  · intro ⟨lower, upper⟩ address inside
    exact ⟨Nat.le_trans lower inside.1, Nat.le_trans inside.2 upper⟩
  · intro inside
    exact ⟨(inside _ ⟨Nat.le_refl _, first_le_last⟩).1, (inside _ ⟨first_le_last, Nat.le_refl _⟩).2⟩

/-- The /24 subnets of a network, in order. -/
def subnets (network : Ipv4Network) : List Ipv4Network :=
  (List.range (2 ^ (24 - network.length))).map fun index =>
    { address := network.address + 256 * index, length := 24 }

theorem subnets_inside (wide : network.length ≤ 24) {subnet : Ipv4Network} (listed : subnet ∈ network.subnets) :
    subnet.length = 24 ∧ subnet.subnetOf network = true := by
  obtain ⟨index, within, rfl⟩ := List.mem_map.mp listed
  have within := List.mem_range.mp within
  have size : 2 ^ (32 - network.length) = 256 * 2 ^ (24 - network.length) := by
    rw [show 32 - network.length = 8 + (24 - network.length) by omega, Nat.pow_add]
  refine ⟨rfl, ?_⟩
  rw [subnetOf, Bool.and_eq_true, decide_eq_true_eq, decide_eq_true_eq]
  simp only [first, last, size]
  omega

theorem subnets_apart : network.subnets.Pairwise fun left right => left.overlaps right = false := by
  rw [subnets, List.pairwise_map]
  refine List.pairwise_lt_range.imp ?_
  intro lower upper before
  have size : 2 ^ (32 - 24) = 256 := rfl
  rw [overlaps, Bool.and_eq_false_iff, decide_eq_false_iff_not, decide_eq_false_iff_not]
  simp only [first, last, size]
  omega

end Ipv4Network

theorem ipv4Network_context {found : Json} {context : String} (other : String) {network : Ipv4Network}
    (read : ipv4Network found context = .ok network) : ipv4Network found other = .ok network := by
  obtain ⟨written, isText, read⟩ := bind_ok read
  rw [ipv4Network, text_iff.mpr (text_ok isText), ok_bind_eq]
  cases parsed : Ipv4Network.parse written with
  | some network =>
      rw [parsed] at read
      exact read
  | none =>
      rw [parsed] at read
      cases read

/-- The settings of a plan: those of the spec, completed, with disjoint networks. -/
theorem validatedSettings_ok {rawSpec : Json} {settings : Object} (done : validatedSettings rawSpec = .ok settings) :
    ∃ (spec : Object) (pods services : Ipv4Network), rawSpec = .obj spec ∧
      settings = (spec.set "runcVersion" (valueOr spec "runcVersion" (.str "1.5.2"))).set "cniPluginsVersion"
        (valueOr spec "cniPluginsVersion" (.str "1.9.1")) ∧
      ipv4Network (value settings "podCIDR") "podCIDR" = .ok pods ∧
      ipv4Network (value settings "serviceCIDR") "serviceCIDR" = .ok services ∧ pods.overlaps services = false ∧
      ∃ network, value spec "network" = .obj network := by
  obtain ⟨spec, isSpec, done⟩ := bind_ok done
  obtain ⟨_, _, done⟩ := bind_ok done
  obtain ⟨_, _, done⟩ := bind_ok done
  obtain ⟨version, _, done⟩ := bind_ok done
  obtain ⟨_, _, done⟩ := bind_ok done
  obtain ⟨_, _, done⟩ := bind_ok done
  obtain ⟨network, isNetwork, done⟩ := bind_ok done
  obtain ⟨_, _, done⟩ := bind_ok done
  obtain ⟨flannel, _, done⟩ := bind_ok done
  obtain ⟨_, _, done⟩ := bind_ok done
  obtain ⟨pods, arePods, done⟩ := bind_ok done
  obtain ⟨services, areServices, done⟩ := bind_ok done
  obtain ⟨_, apart, done⟩ := bind_ok done
  obtain ⟨endpoint, _, done⟩ := bind_ok done
  obtain ⟨_, _, done⟩ := bind_ok done
  obtain ⟨_, _, done⟩ := bind_ok done
  obtain ⟨_, _, done⟩ := bind_ok done
  obtain rfl := Except.ok.inj done
  have pin : valueOr (spec.set "runcVersion" (valueOr spec "runcVersion" (.str "1.5.2"))) "cniPluginsVersion"
      (.str "1.9.1") = valueOr spec "cniPluginsVersion" (.str "1.9.1") := by
    unfold valueOr
    rw [Object.get?_set_ne _ _ (by decide)]
  refine ⟨spec, pods, services, mapping_ok isSpec, by rw [pin], ?_, ?_, by simpa using demand_ok apart, network,
    mapping_ok isNetwork⟩
  · rw [value, Object.get?_set_ne _ _ (by decide), Object.get?_set_ne _ _ (by decide)]
    exact arePods
  · rw [value, Object.get?_set_ne _ _ (by decide), Object.get?_set_ne _ _ (by decide)]
    exact areServices

/-- A plan for the cluster of a target, out of the captured Servers. -/
structure Planned (target : Json) (items : List Json) (plan : Object) (members : List Object)
    (pods services : Ipv4Network) : Prop where
  selected : ∃ clusterName clusterUid, value (value target.fields "metadata").fields "name" = .str clusterName ∧
    value (value target.fields "metadata").fields "uid" = .str clusterUid ∧
    value plan "name" = .str clusterName ∧ value plan "uid" = .str clusterUid ∧
    Selection clusterName clusterUid items members
  listed : value plan "members" = .arr (members.map .obj)
  control : ∃ control, value plan "controlPlane" = .obj control ∧
    ∀ member, member ∈ members ∧ isControlPlane member = true ↔ member = control
  settled : ∃ settings, validatedSettings (value target.fields "spec") = .ok settings ∧
    value plan "settings" = .obj settings ∧ ipv4Network (value settings "podCIDR") "podCIDR" = .ok pods ∧
    ipv4Network (value settings "serviceCIDR") "serviceCIDR" = .ok services
  disjoint : ∀ address, pods.Contains address → ¬ services.Contains address
  wide : pods.length ≤ 24
  room : members.length ≤ pods.subnets.length

theorem single_control {members : List Object} (single : members.countP isControlPlane = 1) (member : Object) :
    member ∈ members ∧ isControlPlane member = true ↔ member = (members.find? isControlPlane).getD [] := by
  have one := List.countP_eq_length_filter (p := isControlPlane) (l := members)
  rw [single] at one
  obtain ⟨control, alone⟩ := List.length_eq_one_iff.mp one.symm
  have first : members.find? isControlPlane = some control := by
    rw [← List.head?_filter, alone, List.head?_cons]
  rw [first, Option.getD_some, ← List.mem_filter, alone, List.mem_singleton]

theorem clusterPlan_ok {target nodes : Json} {plan : Object} (done : clusterPlan target nodes = .ok plan) :
    ∃ items members pods services, nodes = .arr items ∧ Planned target items plan members pods services := by
  obtain ⟨fields, isTarget, done⟩ := bind_ok done
  obtain ⟨_, _, done⟩ := bind_ok done
  obtain ⟨metadata, isMetadata, done⟩ := bind_ok done
  obtain ⟨name, isName, done⟩ := bind_ok done
  obtain ⟨uid, isUid, done⟩ := bind_ok done
  obtain ⟨settings, validated, done⟩ := bind_ok done
  obtain ⟨members, selected, done⟩ := bind_ok done
  obtain ⟨network, isNetwork, done⟩ := bind_ok done
  obtain ⟨_, wide, done⟩ := bind_ok done
  obtain ⟨annotations, _, done⟩ := bind_ok done
  obtain ⟨endpoint, _, done⟩ := bind_ok done
  obtain ⟨_, _, done⟩ := bind_ok done
  obtain rfl := Except.ok.inj done
  obtain rfl := mapping_ok isTarget
  obtain ⟨items, rfl, selection⟩ := selectedMembers_ok selected
  obtain ⟨_, pods, services, _, _, arePods, areServices, apart, _⟩ := validatedSettings_ok validated
  obtain rfl := Except.ok.inj (isNetwork.symm.trans arePods)
  have capacity := demand_ok wide
  rw [Bool.and_eq_true, decide_eq_true_eq, decide_eq_true_eq] at capacity
  have metadataOf : (value (Json.obj fields).fields "metadata").fields = metadata := by
    rw [Json.fields, mapping_ok isMetadata, Json.fields]
  refine ⟨items, members, network, services, rfl, ?_⟩
  exact {
    selected := by
      refine ⟨name, uid, ?_, ?_, rfl, rfl, selection⟩
      · rw [metadataOf]
        exact (text_ok isName).1
      · rw [metadataOf]
        exact (text_ok isUid).1
    listed := rfl
    control := ⟨_, rfl, single_control selection.control⟩
    settled := ⟨settings, validated, rfl, arePods, areServices⟩
    disjoint := by
      intro address inPods inServices
      have overlap := Ipv4Network.overlaps_iff.mpr ⟨address, inPods, inServices⟩
      rw [apart] at overlap
      cases overlap
    wide := capacity.1
    room := by
      rw [Ipv4Network.subnets, List.length_map, List.length_range]
      exact capacity.2 }

theorem clusterPlan_perm {target : Json} {items others : List Json} {plan : Object} (same : items.Perm others)
    (distinct : DistinctNames items) (done : clusterPlan target (.arr items) = .ok plan) :
    clusterPlan target (.arr others) = .ok plan := by
  obtain ⟨fields, isTarget, done⟩ := bind_ok done
  obtain ⟨_, kind, done⟩ := bind_ok done
  obtain ⟨metadata, isMetadata, done⟩ := bind_ok done
  obtain ⟨name, isName, done⟩ := bind_ok done
  obtain ⟨uid, isUid, done⟩ := bind_ok done
  obtain ⟨settings, validated, done⟩ := bind_ok done
  obtain ⟨members, selected, done⟩ := bind_ok done
  rw [clusterPlan, isTarget, ok_bind_eq, kind, ok_bind_eq, isMetadata, ok_bind_eq, isName, ok_bind_eq, isUid,
    ok_bind_eq, validated, ok_bind_eq, selectedMembers_perm same distinct selected]
  exact done

theorem DistinctNames.perm {items others : List Json} (distinct : DistinctNames items) (same : items.Perm others) :
    DistinctNames others := by
  have symmetric : ∀ {left right : Json},
      (∀ name, value left.fields "name" = .str name → value right.fields "name" ≠ .str name) →
      ∀ name, value right.fields "name" = .str name → value left.fields "name" ≠ .str name := by
    intro left right apart name found same
    exact apart name same found
  exact (same.pairwise_iff symmetric).mp distinct

/-- The plan does not depend on the order of capture, and is made of exactly the labelled Servers. -/
theorem cluster_plan_stable (target : Json) {items others : List Json} (same : items.Perm others)
    (distinct : DistinctNames items) :
    (∀ plan, clusterPlan target (.arr items) = .ok plan ↔ clusterPlan target (.arr others) = .ok plan) ∧
      ∀ plan, clusterPlan target (.arr items) = .ok plan →
        ∃ members pods services, Planned target items plan members pods services := by
  constructor
  · intro plan
    exact ⟨clusterPlan_perm same distinct, clusterPlan_perm same.symm (distinct.perm same)⟩
  · intro plan done
    obtain ⟨captured, members, pods, services, isList, planned⟩ := clusterPlan_ok done
    cases isList
    exact ⟨members, pods, services, planned⟩

theorem cluster_plan_stable_swapped : ∃ plan members pods services,
    clusterPlan clusterTarget (.arr [capturedServer "beelink" "server-2" "worker",
      capturedServer "main" "server-1" "control-plane"]) = .ok plan ∧
      Planned clusterTarget [capturedServer "main" "server-1" "control-plane",
        capturedServer "beelink" "server-2" "worker"] plan members pods services := by
  have decided : (clusterPlan clusterTarget capturedServers).toOption.isSome = true := by decide +kernel
  obtain ⟨plan, found⟩ := Option.isSome_iff_exists.mp decided
  have done := ok_of_toOption found
  have distinct : DistinctNames [capturedServer "main" "server-1" "control-plane",
      capturedServer "beelink" "server-2" "worker"] := by
    simp [DistinctNames, capturedServer, value, Json.fields]
  obtain ⟨order, planned⟩ := cluster_plan_stable clusterTarget (List.Perm.swap _ _ _) distinct
  obtain ⟨members, pods, services, planned⟩ := planned plan done
  exact ⟨plan, members, pods, services, (order plan).mp done, planned⟩

end Homelab.KubePlan
