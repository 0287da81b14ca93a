import Homelab.FilterPlugins.ClusterPlan

namespace Homelab.KubePlan

open Json (Object)

/-! # Connected networks of a host -/

/-- `ip_network(text, strict=False)`, when it is an IPv4 network. -/
def Ipv4Network.parseHost (text : String) : Option Ipv4Network := do
  let (address, length) ← match IpAddress.split '/' text with
    | [address] => some (address, 32)
    | [address, mask] => (lengthOf mask).map fun length => (address, length)
    | _ => none
  let found := addressOf (← IpAddress.ipv4 address)
  return { address := found - found % 2 ^ (32 - length), length }

/-- The raw addresses of an interface, the secondary ones first. -/
def interfaceAddresses (details : Object) : Except Exn (List Json) := do
  let secondaries ← list (valueOr details "ipv4_secondaries" (.arr []))
    "Secondary IPv4 interface facts must be an array"
  return secondaries ++ (details.get? "ipv4").toList

def connectedNetwork (rawAddress : Json) : Except Exn Ipv4Network := do
  let address ← mapping rawAddress "IPv4 interface facts"
  let written ← text (value address "address") "interface address"
  let netmask ← text (value address "netmask") "interface netmask"
  match Ipv4Network.parseHost (written ++ "/" ++ netmask) with
  | some network => return network
  | none => throw (valueError "IPv4 interface facts must contain IPv4 addresses")

/-- An interface of the installed CNI, on a subnet of the pod network. -/
def isManaged (plan : Object) (interfaceName : String) (connected pods : Ipv4Network) : Bool :=
  value plan "allowManagedCNI" = .bool true && (interfaceName = "cni0" || interfaceName = "flannel.1") &&
    connected.subnetOf pods

def checkAddresses (plan : Object) (pods services : Ipv4Network) (interfaceName : String) :
    List Json → Except Exn Unit
  | [] => .ok ()
  | rawAddress :: rest => do
      let connected ← connectedNetwork rawAddress
      demand (isManaged plan interfaceName connected pods || !(connected.overlaps pods || connected.overlaps services))
        (valueError ("Cluster CIDRs overlap connected network on " ++ interfaceName))
      checkAddresses plan pods services interfaceName rest

def checkInterfaces (plan facts : Object) (pods services : Ipv4Network) : List Json → Except Exn Unit
  | [] => .ok ()
  | interface :: rest => do
      let interfaceName ← text interface "interface name"
      let details ← mapping (valueOr facts interfaceName (.obj [])) "interface facts"
      let addresses ← interfaceAddresses details
      checkAddresses plan pods services interfaceName addresses
      checkInterfaces plan facts pods services rest

/-- Reject overlap with the node's connected IPv4 networks before installation. -/
def validateHostNetwork (rawPlan rawFacts : Json) : Except Exn Object := do
  let plan ← mapping rawPlan "cluster plan"
  let spec ← mapping (value plan "settings") "cluster settings"
  let facts ← mapping rawFacts "Ansible host facts"
  let interfaces ← list (value facts "interfaces") "Host interface facts are required for network validation"
  demand (!interfaces.isEmpty) (valueError "Host interface facts are required for network validation")
  let pods ← ipv4Network (value spec "podCIDR") "podCIDR"
  let services ← ipv4Network (value spec "serviceCIDR") "serviceCIDR"
  checkInterfaces plan facts pods services interfaces
  return plan

/-! ## Where the facts of an interface are -/

def factChar (char : Char) : Char := if char = '-' then '_' else char

/-- Ansible stores the facts of an interface under its name with underscores for hyphens. -/
def factKey (interfaceName : String) : String := String.ofList (interfaceName.toList.map factChar)

/-- A primary or secondary address of the interface puts the host on the network. -/
def Connected (facts : Object) (interfaceName : String) (network : Ipv4Network) : Prop :=
  ∃ (details : Object) (rawAddress : Json), facts.get? (factKey interfaceName) = some (.obj details) ∧
    ((∃ secondaries, value details "ipv4_secondaries" = .arr secondaries ∧ rawAddress ∈ secondaries) ∨
      details.get? "ipv4" = some rawAddress) ∧
    connectedNetwork rawAddress = .ok network

/-- No connected network of the interface overlaps the cluster's, the managed ones apart. -/
def ClearOn (plan facts : Object) (pods services : Ipv4Network) (interfaceName : String) : Prop :=
  ∀ network, Connected facts interfaceName network →
    (∀ address, network.Contains address → ¬ services.Contains address) ∧
    ((∀ address, network.Contains address → ¬ pods.Contains address) ∨
      (interfaceName = "cni0" ∨ interfaceName = "flannel.1") ∧ value plan "allowManagedCNI" = .bool true ∧
        ∀ address, network.Contains address → pods.Contains address)

/-- The plan of the cluster, as the play passes it on. -/
def Passed (plan passed : Object) : Prop :=
  passed = plan ∨ ∃ allowed, passed = plan.set "allowManagedCNI" (.bool allowed)

variable {plan facts : Object} {pods services connected : Ipv4Network} {interfaceName : String}

theorem factKey_plain (plain : '_' ∉ (factKey interfaceName).toList) : factKey interfaceName = interfaceName := by
  unfold factKey at plain ⊢
  rw [String.toList_ofList] at plain
  have same : interfaceName.toList.map factChar = interfaceName.toList.map id := by
    apply List.map_congr_left
    intro char listed
    by_cases hyphen : char = '-'
    · subst hyphen
      exact absurd (List.mem_map_of_mem (f := factChar) listed) plain
    · rw [factChar, if_neg hyphen, id]
  rw [same, List.map_id, String.ofList_toList]

theorem factKey_managed (managed : factKey interfaceName = "cni0" ∨ factKey interfaceName = "flannel.1") :
    interfaceName = "cni0" ∨ interfaceName = "flannel.1" := by
  have plain : '_' ∉ (factKey interfaceName).toList := by
    cases managed with
    | inl same =>
        rw [same]
        decide
    | inr same =>
        rw [same]
        decide
  rw [factKey_plain plain] at managed
  exact managed

theorem checkAddresses_ok {addresses : List Json}
    (passed : checkAddresses plan pods services interfaceName addresses = .ok ()) {rawAddress : Json}
    (listed : rawAddress ∈ addresses) :
    ∃ connected, connectedNetwork rawAddress = .ok connected ∧
      (isManaged plan interfaceName connected pods = true ∨
        connected.overlaps pods = false ∧ connected.overlaps services = false) := by
  induction addresses with
  | nil => cases listed
  | cons first rest ih =>
      obtain ⟨connected, isConnected, passed⟩ := bind_ok passed
      obtain ⟨_, clear, passed⟩ := bind_ok passed
      cases List.mem_cons.mp listed with
      | inl same =>
          subst same
          exact ⟨connected, isConnected, by simpa using demand_ok clear⟩
      | inr later => exact ih passed later

theorem checkInterfaces_ok {interfaces : List Json}
    (passed : checkInterfaces plan facts pods services interfaces = .ok ()) {interface : Json}
    (listed : interface ∈ interfaces) :
    ∃ interfaceName details addresses, text interface "interface name" = .ok interfaceName ∧
      mapping (valueOr facts interfaceName (.obj [])) "interface facts" = .ok details ∧
      interfaceAddresses details = .ok addresses ∧
      checkAddresses plan pods services interfaceName addresses = .ok () := by
  induction interfaces with
  | nil => cases listed
  | cons first rest ih =>
      obtain ⟨interfaceName, isName, passed⟩ := bind_ok passed
      obtain ⟨details, areDetails, passed⟩ := bind_ok passed
      obtain ⟨addresses, areAddresses, passed⟩ := bind_ok passed
      obtain ⟨_, clear, passed⟩ := bind_ok passed
      cases List.mem_cons.mp listed with
      | inl same =>
          subst same
          exact ⟨interfaceName, details, addresses, isName, areDetails, areAddresses, clear⟩
      | inr later => exact ih passed later

/-- Interfaces without facts pass. -/
theorem checkInterfaces_absent {names : List String} (nonempty : "" ∉ names)
    (absent : ∀ name ∈ names, facts.get? name = none) :
    checkInterfaces plan facts pods services (names.map .str) = .ok () := by
  induction names with
  | nil => rfl
  | cons name rest ih =>
      have isName : text (.str name) "interface name" = .ok name :=
        text_iff.mpr ⟨rfl, fun empty => nonempty (by simp [empty])⟩
      have noFacts : valueOr facts name (.obj []) = .obj [] := by
        rw [valueOr, absent name (by simp)]
        rfl
      rw [List.map_cons, checkInterfaces, isName, ok_bind_eq, noFacts]
      exact ih (fun listed => nonempty (by simp [listed])) fun other listed => absent other (by simp [listed])

/-- An interface is clear when its facts are found under a checked name. -/
theorem clearOn_of_checked {interfaces : List Json} (disjoint : ∀ address, pods.Contains address → ¬ services.Contains address)
    (passed : checkInterfaces plan facts pods services interfaces = .ok ())
    (listed : .str (factKey interfaceName) ∈ interfaces) : ClearOn plan facts pods services interfaceName := by
  intro network ⟨details, rawAddress, found, given, isNetwork⟩
  obtain ⟨name, details', addresses, isName, areDetails, areAddresses, checked⟩ := checkInterfaces_ok passed listed
  obtain rfl := Json.str.inj (text_ok isName).1
  have sameDetails : details' = details := by
    have stored := mapping_ok areDetails
    rw [valueOr, found, Option.getD_some] at stored
    exact (Json.obj.inj stored).symm
  subst sameDetails
  have member : rawAddress ∈ addresses := by
    obtain ⟨secondaries, areSecondaries, whole⟩ := bind_ok areAddresses
    obtain rfl := Except.ok.inj whole
    rw [List.mem_append]
    cases given with
    | inl secondary =>
        obtain ⟨items, stored, inside⟩ := secondary
        have stored : valueOr details' "ipv4_secondaries" (.arr []) = .arr items := valueOr_of_value stored (by simp)
        rw [stored] at areSecondaries
        cases areSecondaries
        exact .inl inside
    | inr primary => exact .inr (by simp [primary])
  obtain ⟨connected, isConnected, clear⟩ := checkAddresses_ok checked member
  obtain rfl := Except.ok.inj (isConnected.symm.trans isNetwork)
  cases clear with
  | inl managed =>
      rw [isManaged, Bool.and_eq_true, Bool.and_eq_true, decide_eq_true_eq, Bool.or_eq_true, decide_eq_true_eq,
        decide_eq_true_eq] at managed
      have inside := Ipv4Network.subnetOf_iff.mp managed.2
      exact ⟨fun address contained => disjoint address (inside address contained),
        .inr ⟨factKey_managed managed.1.2, managed.1.1, inside⟩⟩
  | inr apart =>
      have never {other : Ipv4Network} (apart : connected.overlaps other = false) (address : Nat)
          (contained : connected.Contains address) : ¬ other.Contains address := by
        intro within
        rw [Ipv4Network.overlaps_iff.mpr ⟨address, contained, within⟩] at apart
        cases apart
      exact ⟨never apart.2, .inl (never apart.1)⟩

theorem validateHostNetwork_ok {result : Object}
    (accepted : validateHostNetwork (.obj plan) (.obj facts) = .ok result) :
    ∃ settings interfaces pods services, value plan "settings" = .obj settings ∧
      value facts "interfaces" = .arr interfaces ∧ interfaces ≠ [] ∧
      ipv4Network (value settings "podCIDR") "podCIDR" = .ok pods ∧
      ipv4Network (value settings "serviceCIDR") "serviceCIDR" = .ok services ∧
      checkInterfaces plan facts pods services interfaces = .ok () := by
  obtain ⟨plan, isPlan, accepted⟩ := bind_ok accepted
  cases isPlan
  obtain ⟨settings, areSettings, accepted⟩ := bind_ok accepted
  obtain ⟨facts, areFacts, accepted⟩ := bind_ok accepted
  cases areFacts
  obtain ⟨interfaces, areInterfaces, accepted⟩ := bind_ok accepted
  obtain ⟨_, some, accepted⟩ := bind_ok accepted
  obtain ⟨pods, arePods, accepted⟩ := bind_ok accepted
  obtain ⟨services, areServices, accepted⟩ := bind_ok accepted
  obtain ⟨_, checked, accepted⟩ := bind_ok accepted
  exact ⟨settings, interfaces, pods, services, mapping_ok areSettings, list_iff.mp areInterfaces,
    by simpa using demand_ok some, arePods, areServices, checked⟩

/-! ## Interfaces whose facts no listed name finds -/

/-- The host lists the interface. -/
def Lists (interfaces : Json) (interfaceName : String) : Prop :=
  ∃ items, interfaces = .arr items ∧ .str interfaceName ∈ items

/-- Interface lists that no plan passes with, whatever the other facts are. -/
def Unreadable : Json → Prop
  | .arr items => items = [] ∨ .str "interfaces" ∈ items ∨ ∃ item ∈ items, ∀ name, item = .str name → name = ""
  | _ => True

/-- The listed interfaces that satisfy a condition are clear of the networks of the plan. -/
def Clear (among : String → Prop) (plan facts : Object) : Prop :=
  ∃ settings pods services, value plan "settings" = .obj settings ∧
    ipv4Network (value settings "podCIDR") "podCIDR" = .ok pods ∧
    ipv4Network (value settings "serviceCIDR") "serviceCIDR" = .ok services ∧
    ∀ interfaceName, Lists (value facts "interfaces") interfaceName → among interfaceName →
      ClearOn plan facts pods services interfaceName

theorem Passed.settings {passed : Object} (same : Passed plan passed) : value passed "settings" = value plan "settings" := by
  cases same with
  | inl same => rw [same]
  | inr flagged =>
      obtain ⟨allowed, same⟩ := flagged
      rw [same, value, Object.get?_set_ne _ _ (by decide)]
      rfl

theorem accepted_readable {result : Object} (accepted : validateHostNetwork (.obj plan) (.obj facts) = .ok result) :
    ¬ Unreadable (value facts "interfaces") := by
  obtain ⟨settings, interfaces, pods, services, _, listed, some, _, _, checked⟩ := validateHostNetwork_ok accepted
  rw [listed]
  rintro (none | inside | ⟨item, member, blank⟩)
  · exact some none
  · obtain ⟨name, details, addresses, isName, areDetails, _⟩ := checkInterfaces_ok checked inside
    obtain rfl := Json.str.inj (text_ok isName).1
    have stored : valueOr facts "interfaces" (.obj []) = .arr interfaces := valueOr_of_value listed (by simp)
    rw [mapping_ok areDetails] at stored
    cases stored
  · obtain ⟨name, details, addresses, isName, _⟩ := checkInterfaces_ok checked member
    exact (text_ok isName).2 (blank name (text_ok isName).1)

/-- A plan that the check accepts is clear of all interfaces but those with hidden facts. -/
theorem accepted_clear {target nodes : Json} {passed result : Object} (planned : clusterPlan target nodes = .ok plan)
    (same : Passed plan passed) (accepted : validateHostNetwork (.obj passed) (.obj facts) = .ok result)
    (hidden : Clear (fun name => ¬ Lists (value facts "interfaces") (factKey name)) passed facts) :
    Clear (fun _ => True) passed facts := by
  obtain ⟨settings, interfaces, pods, services, areSettings, listed, _, arePods, areServices, checked⟩ :=
    validateHostNetwork_ok accepted
  obtain ⟨items, members, pods', services', _, agreed⟩ := clusterPlan_ok planned
  obtain ⟨settings', _, areSettings', arePods', areServices'⟩ := agreed.settled
  rw [same.settings] at areSettings
  cases areSettings.symm.trans areSettings'
  cases arePods.symm.trans arePods'
  cases areServices.symm.trans areServices'
  refine ⟨settings, pods, services, same.settings.trans areSettings, arePods, areServices, ?_⟩
  intro name lists _
  by_cases found : Lists (value facts "interfaces") (factKey name)
  · obtain ⟨items, isList, member⟩ := found
    cases listed.symm.trans isList
    exact clearOn_of_checked agreed.disjoint checked member
  · obtain ⟨settings', pods', services', areSettings', arePods', areServices', clear⟩ := hidden
    rw [same.settings] at areSettings'
    cases areSettings.symm.trans areSettings'
    cases arePods.symm.trans arePods'
    cases areServices.symm.trans areServices'
    exact clear name lists found

/-! ### A host with one address in the pod network -/

def overlapping : Json :=
  .obj [("ipv4", .obj [("address", .str "10.244.1.1"), ("netmask", .str "255.255.255.0")])]

def hostFacts (names : List String) (key : String) : Object :=
  [("interfaces", .arr (names.map .str)), (key, overlapping)]

def podNetwork : Ipv4Network := { address := Ipv4Network.addressOf [10, 244, 0, 0], length := 16 }

def serviceNetwork : Ipv4Network := { address := Ipv4Network.addressOf [10, 96, 0, 0], length := 12 }

def hostNetwork : Ipv4Network := { address := Ipv4Network.addressOf [10, 244, 1, 0], length := 24 }

theorem clusterTarget_networks : ∃ plan settings, clusterPlan clusterTarget capturedServers = .ok plan ∧
    value plan "settings" = .obj settings ∧ ipv4Network (value settings "podCIDR") "podCIDR" = .ok podNetwork ∧
    ipv4Network (value settings "serviceCIDR") "serviceCIDR" = .ok serviceNetwork := by
  have decided : (clusterPlan clusterTarget capturedServers).toOption.any (fun plan =>
      decide (ipv4Network (value (value plan "settings").fields "podCIDR") "podCIDR" = .ok podNetwork) &&
        decide (ipv4Network (value (value plan "settings").fields "serviceCIDR") "serviceCIDR" =
          .ok serviceNetwork)) = true := by decide +kernel
  obtain ⟨plan, found, checked⟩ := (Option.any_eq_true _ _).mp decided
  have planned := ok_of_toOption found
  rw [Bool.and_eq_true, decide_eq_true_eq, decide_eq_true_eq] at checked
  obtain ⟨items, members, pods, services, _, agreed⟩ := clusterPlan_ok planned
  obtain ⟨settings, _, areSettings, _⟩ := agreed.settled
  rw [areSettings, Json.fields] at checked
  exact ⟨plan, settings, planned, areSettings, checked⟩

theorem hidden_accepted {names : List String} (nonempty : "" ∉ names) (plain : "interfaces" ∉ names)
    (listed : interfaceName ∈ names) (hidden : factKey interfaceName ∉ names) :
    ∃ plan, clusterPlan clusterTarget capturedServers = .ok plan ∧
      validateHostNetwork (.obj plan) (.obj (hostFacts names (factKey interfaceName))) = .ok plan ∧
      ¬ Clear (fun _ => True) plan (hostFacts names (factKey interfaceName)) := by
  obtain ⟨plan, settings, planned, areSettings, arePods, areServices⟩ := clusterTarget_networks
  have present : value (hostFacts names (factKey interfaceName)) "interfaces" = .arr (names.map .str) := rfl
  have absent : ∀ name ∈ names, Object.get? (hostFacts names (factKey interfaceName)) name = none := by
    intro name member
    have other : "interfaces" ≠ name := fun same => plain (same ▸ member)
    have apart : factKey interfaceName ≠ name := fun same => hidden (same ▸ member)
    simp [hostFacts, other, apart]
  have unkeyed : "interfaces" ≠ factKey interfaceName := by
    intro same
    have unchanged : factKey interfaceName = interfaceName := factKey_plain (by rw [← same]; decide)
    rw [unchanged] at hidden
    exact hidden listed
  refine ⟨plan, planned, ?_, ?_⟩
  · have some : (!(names.map Json.str).isEmpty) = true := by
      cases names with
      | nil => cases listed
      | cons _ _ => rfl
    rw [validateHostNetwork, mapping, ok_bind_eq, areSettings, mapping, ok_bind_eq, mapping, ok_bind_eq, present,
      list, ok_bind_eq, some, demand_true, ok_bind_eq, arePods, ok_bind_eq, areServices, ok_bind_eq,
      checkInterfaces_absent nonempty absent]
    rfl
  · rintro ⟨settings', pods, services, areSettings', arePods', _, clear⟩
    cases areSettings.symm.trans areSettings'
    cases arePods.symm.trans arePods'
    have connected : Connected (hostFacts names (factKey interfaceName)) interfaceName hostNetwork := by
      refine ⟨[("ipv4", .obj [("address", .str "10.244.1.1"), ("netmask", .str "255.255.255.0")])],
        .obj [("address", .str "10.244.1.1"), ("netmask", .str "255.255.255.0")], ?_, .inr rfl, by decide +kernel⟩
      simp [hostFacts, unkeyed, overlapping]
    have lists : Lists (value (hostFacts names (factKey interfaceName)) "interfaces") interfaceName :=
      ⟨names.map .str, rfl, List.mem_map_of_mem listed⟩
    cases (clear interfaceName lists trivial hostNetwork connected).2 with
    | inl apart =>
        have inside : hostNetwork.Contains hostNetwork.first ∧ podNetwork.Contains hostNetwork.first := by
          constructor <;> constructor <;> decide
        exact apart _ inside.1 inside.2
    | inr managed =>
        cases managed.1 with
        | inl same =>
            subst same
            exact hidden listed
        | inr same =>
            subst same
            exact hidden listed

/-- Every plan that the check accepts is clear of the interfaces of every host that lists these. -/
def Guards (interfaces : Json) : Prop :=
  ∀ target nodes plan passed facts result, clusterPlan target nodes = .ok plan → Passed plan passed →
    value facts "interfaces" = interfaces → validateHostNetwork (.obj passed) (.obj facts) = .ok result →
    Clear (fun _ => True) passed facts

theorem readable_names {items : List Json} (readable : ¬ Unreadable (.arr items)) :
    ∃ names : List String, items = names.map .str ∧ "" ∉ names ∧ "interfaces" ∉ names := by
  simp only [Unreadable, not_or] at readable
  have plain := readable.2.1
  have blank := readable.2.2
  have texts : ∀ item ∈ items, ∃ name, item = .str name ∧ name ≠ "" := by
    intro item member
    by_contra none
    refine blank ⟨item, member, fun name same => ?_⟩
    by_contra nonempty
    exact none ⟨name, same, nonempty⟩
  have named : ∃ names : List String, items = names.map .str ∧ "" ∉ names := by
    clear readable plain blank
    induction items with
    | nil => exact ⟨[], rfl, by simp⟩
    | cons item rest ih =>
        obtain ⟨name, rfl, nonempty⟩ := texts item (by simp)
        obtain ⟨names, rfl, others⟩ := ih fun other member => texts other (by simp [member])
        exact ⟨name :: names, rfl, by simp [others, Ne.symm nonempty]⟩
  obtain ⟨names, rfl, nonempty⟩ := named
  exact ⟨names, rfl, nonempty, fun listed => plain (List.mem_map_of_mem listed)⟩

/-- The check guards a host exactly when the facts of every listed interface are found under a listed
name; and a plan it accepts is clear exactly when it is clear of the interfaces that are not found so. -/
theorem host_network_guarded_iff (interfaces : Json) :
    (Guards interfaces ↔
      (Unreadable interfaces ∨ ∀ name, Lists interfaces name → Lists interfaces (factKey name))) ∧
    ∀ target nodes plan passed facts result, clusterPlan target nodes = .ok plan → Passed plan passed →
      validateHostNetwork (.obj passed) (.obj facts) = .ok result →
      (Clear (fun _ => True) passed facts ↔
        Clear (fun name => ¬ Lists (value facts "interfaces") (factKey name)) passed facts) := by
  constructor
  · constructor
    · intro guards
      by_contra neither
      rw [not_or] at neither
      obtain ⟨readable, unfound⟩ := neither
      push Not at unfound
      obtain ⟨name, ⟨items, rfl, member⟩, hidden⟩ := unfound
      obtain ⟨names, rfl, nonempty, plain⟩ := readable_names readable
      have listed : name ∈ names := by simpa using member
      have absent : factKey name ∉ names := fun inside => hidden ⟨_, rfl, List.mem_map_of_mem inside⟩
      obtain ⟨plan, planned, accepted, overlapped⟩ := hidden_accepted nonempty plain listed absent
      exact overlapped (guards _ _ plan plan _ plan planned (.inl rfl) rfl accepted)
    · intro condition target nodes plan passed facts result planned same listed accepted
      cases condition with
      | inl unreadable =>
          rw [← listed] at unreadable
          exact absurd unreadable (accepted_readable accepted)
      | inr found =>
          apply accepted_clear planned same accepted
          obtain ⟨settings, items, pods, services, areSettings, _, _, arePods, areServices, _⟩ :=
            validateHostNetwork_ok accepted
          refine ⟨settings, pods, services, areSettings, arePods, areServices, fun name lists hidden => ?_⟩
          rw [listed] at lists hidden
          exact absurd (found name lists) hidden
  · intro target nodes plan passed facts result planned same accepted
    constructor
    · intro ⟨settings, pods, services, areSettings, arePods, areServices, clear⟩
      exact ⟨settings, pods, services, areSettings, arePods, areServices,
        fun name lists _ => clear name lists trivial⟩
    · exact accepted_clear planned same accepted

theorem bridge_overlap_accepted : ¬ Guards (.arr [.str "br-lan"]) := by
  intro guards
  have nonempty : "" ∉ ["br-lan"] := by decide
  have hidden : factKey "br-lan" ∉ ["br-lan"] := by decide
  obtain ⟨plan, planned, accepted, overlapped⟩ := hidden_accepted nonempty (by decide) (by decide) hidden
  exact overlapped (guards _ _ plan plan _ plan planned (.inl rfl) rfl accepted)

end Homelab.KubePlan
