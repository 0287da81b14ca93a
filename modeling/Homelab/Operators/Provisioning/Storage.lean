import Mathlib.Data.List.Dedup
import Mathlib.Data.List.Perm.Subperm
import Homelab.Operators.Provisioning.Stages

namespace Homelab.Provisioning

open Json (Object)

/-! # Storage: from the accepted layout to the installed disk -/

/-! ## The tasks that create a partition -/

def undefinedVariable : Exn := .error "AnsibleUndefinedVariable" "the dict object has no such attribute"

/-- An item of a literal mapping in a template. -/
def templateItem {α : Type} (entries : List (String × α)) (key : Json) : Except Exn α :=
  match key with
  | .str text =>
      match entries.lookup text with
      | some found => .ok found
      | none => .error undefinedVariable
  | _ => .error undefinedVariable

/-- An attribute of the loop item in a template. -/
def templateAttribute (item : Object) (key : String) : Except Exn Json :=
  match item.get? key with
  | some found => .ok found
  | none => .error undefinedVariable

def typecodes : List (String × String) :=
  [("efi", "EF00"), ("swap", "8200"), ("root", "8300"), ("data", "8300")]

def filesystemTools : List (String × List String) :=
  [("vfat", ["mkfs.vfat", "-F", "32"]), ("swap", ["mkswap"]), ("ext4", ["mkfs.ext4", "-F"])]

/-- The first and the last logical sector of a planned partition. -/
def sectorRange (sectorBytes : Int) (item : Object) : Except Exn (Int × Int) := do
  let startMiB ← templateAttribute item "startMiB" >>= asInt
  let endMiB ← templateAttribute item "endMiB" >>= asInt
  demand (sectorBytes ≠ 0) (.error "ZeroDivisionError" "integer division or modulo by zero")
  return (startMiB * 1048576 / sectorBytes, endMiB * 1048576 / sectorBytes - 1)

/-- Create the pinned partition geometry. -/
def partitionSingle (sectorBytes : Int) (diskName : String) (item : Object) : Except Exn (List String) := do
  let number := numberText (← templateAttribute item "number")
  let (first, last) ← sectorRange sectorBytes item
  let role ← templateAttribute item "role"
  let code ← templateItem typecodes role
  return ["sgdisk", "--new=" ++ number ++ ":" ++ toString first ++ ":" ++ toString last,
    "--typecode=" ++ number ++ ":" ++ code,
    "--change-name=" ++ number ++ ":homelab-" ++ numberText role ++ "-" ++ number, diskName]

/-- Create the pinned filesystem. -/
def initfsSingle (partitionPrefix : String) (item : Object) : Except Exn (List String) := do
  let tool ← templateAttribute item "filesystem" >>= templateItem filesystemTools
  let number ← templateAttribute item "number"
  return tool ++ [partitionPrefix ++ numberText number]

/-- What the probe reports of a range of sectors: the kernel counts the start in
units of 512 bytes, whatever the sector size is. -/
def probedExtent (sectorBytes : Int) (range : Int × Int) : Json × Json :=
  (.int (range.1 * sectorBytes / 512 * 512), .int ((range.2 - range.1 + 1) * sectorBytes))

/-! ## Layouts -/

/-- One partition of a normalized layout. -/
structure Planned where
  number : Json
  role : Json
  filesystem : Json
  mountPoint : Json
  startMiB : Int
  endMiB : Int

namespace Planned

def fields (planned : Planned) : Object :=
  [("number", planned.number), ("role", planned.role), ("filesystem", planned.filesystem),
    ("mountPoint", planned.mountPoint), ("startMiB", .int planned.startMiB), ("endMiB", .int planned.endMiB)]

def json (planned : Planned) : Json := .obj planned.fields

variable (planned : Planned)

@[simp] theorem asObject_json : asObject planned.json = .ok planned.fields := rfl

@[simp] theorem item_number : item planned.fields "number" = .ok planned.number := rfl

@[simp] theorem item_role : item planned.fields "role" = .ok planned.role := rfl

@[simp] theorem item_filesystem : item planned.fields "filesystem" = .ok planned.filesystem := rfl

@[simp] theorem item_mountPoint : item planned.fields "mountPoint" = .ok planned.mountPoint := rfl

@[simp] theorem item_startMiB : item planned.fields "startMiB" = .ok (.int planned.startMiB) := rfl

@[simp] theorem item_endMiB : item planned.fields "endMiB" = .ok (.int planned.endMiB) := rfl

end Planned

def layoutOf (plan : List Planned) : Object := [("partitions", .arr (plan.map Planned.json))]

/-- The pinned entries of a run. -/
def storageEntries (runStatus : Object) : List Json :=
  match runStatus.get? "storagePlan" with
  | some (.obj storagePlan) =>
      match Object.get? storagePlan "partitions" with
      | some (.arr entries) => entries
      | _ => []
  | _ => []

/-- The specification of a pinned entry. -/
def specOf (entry : Json) : Object := ((entry.fields.get? "spec").getD .null).fields

/-- A planned partition is what its pinned entry says. -/
structure Normalizes (entry : Json) (planned : Planned) : Prop where
  number : value (specOf entry) "number" = planned.number
  role : value (specOf entry) "role" = planned.role
  filesystem : value (specOf entry) "filesystem" = planned.filesystem
  mountPoint : ((specOf entry).get? "mountPoint").getD (.str "") = planned.mountPoint
  startMiB : value entry.fields "startMiB" = .int planned.startMiB
  endMiB : value entry.fields "endMiB" = .int planned.endMiB

/-- Every partition starts where the one before it has ended. -/
def Follows : Int → List Planned → Prop
  | _, [] => True
  | start, planned :: rest =>
      planned.startMiB = start ∧ planned.startMiB < planned.endMiB ∧ Follows planned.endMiB rest

/-- A list of values without repetition, none of which is known already. -/
def Apart (known values : List Json) : Prop := values.Nodup ∧ ∀ value ∈ values, value ∉ known

theorem Apart.cons {known values : List Json} {value : Json} (absent : value ∉ known)
    (apart : Apart (value :: known) values) : Apart known (value :: values) := by
  refine ⟨List.nodup_cons.mpr ⟨fun member => apart.2 value member (by simp), apart.1⟩, ?_⟩
  intro other member
  cases List.mem_cons.mp member with
  | inl same => exact same ▸ absent
  | inr listed => exact fun inside => apart.2 other listed (by simp [inside])

/-- The mount points that take part in the comparison. -/
def mountsOf (plan : List Planned) : List Json :=
  (plan.map Planned.mountPoint).filter Json.truthy

theorem isMember_ok {key : Json} {known : List Json} {answer : Bool}
    (found : isMember key known = .ok answer) : key.hashable = true ∧ (answer = true ↔ key ∈ known) := by
  unfold isMember at found
  split at found
  · rename_i hashable
    cases found
    exact ⟨hashable, by simp⟩
  · cases found

theorem checkGeometry_ok {facts : Object} {previousEnd finish : Int} {startMiB endMiB : Json}
    (passed : checkGeometry facts previousEnd startMiB endMiB = .ok finish) :
    startMiB = .int previousEnd ∧ endMiB = .int finish ∧ previousEnd < finish ∧
      ∃ disk size, facts.get? "disk" = some (.obj disk) ∧ Object.get? disk "size" = some (.int size) ∧
        finish ≤ size / 1048576 - 1 := by
  obtain ⟨_, starts, passed⟩ := bind_ok passed
  obtain ⟨ends, number, passed⟩ := bind_ok passed
  obtain ⟨_, grows, passed⟩ := bind_ok passed
  obtain ⟨disk, found, passed⟩ := bind_ok passed
  obtain ⟨size, measured, passed⟩ := bind_ok passed
  obtain ⟨_, fits, passed⟩ := bind_ok passed
  obtain ⟨document, sized, integer⟩ := bind_ok measured
  cases passed
  refine ⟨by simpa using demand_ok starts, asInt_ok number, by simpa using demand_ok grows, disk, size,
    itemObject_ok found, ?_, by simpa using demand_ok fits⟩
  rw [item_ok sized, asInt_ok integer]

/-- The number of bytes of the disk. -/
def DiskSize (facts : Object) (size : Int) : Prop :=
  ∃ disk, facts.get? "disk" = some (.obj disk) ∧ Object.get? disk "size" = some (.int size)

theorem DiskSize.unique {facts : Object} {size other : Int} (found : DiskSize facts size)
    (again : DiskSize facts other) : size = other := by
  obtain ⟨disk, present, measured⟩ := found
  obtain ⟨same, found, remeasured⟩ := again
  rw [present] at found
  cases found
  rw [measured] at remeasured
  cases remeasured
  rfl

/-- What the geometry check has established about a layout. -/
structure Laid (facts : Object) (seen : Geometry) (entries : List Json) (plan : List Planned) : Prop where
  normal : List.Forall₂ Normalizes entries plan
  follows : Follows seen.previousEnd plan
  numbers : Apart seen.numbers (plan.map Planned.number)
  hashable : ∀ planned ∈ plan, planned.number.hashable = true
  mounts : Apart seen.mounts (mountsOf plan)
  fits : ∀ planned ∈ plan, ∃ size, DiskSize facts size ∧ planned.endMiB ≤ size / 1048576 - 1

/-- Only a mount point that is given takes part in the comparison. -/
theorem mountsOf_cons {spec : Object} {planned : Planned} {plan : List Planned} {mounts : List Json}
    {mounted : Bool} (mount : isMember (value spec "mountPoint") mounts = .ok mounted) {answer : Unit}
    (unmounted : demand (!mounted) invalidGeometry = .ok answer)
    (given : planned.mountPoint = (spec.get? "mountPoint").getD (.str ""))
    (rest : Apart (if (value spec "mountPoint").truthy then value spec "mountPoint" :: mounts else mounts)
      (mountsOf plan)) : Apart mounts (mountsOf (planned :: plan)) := by
  have absent : value spec "mountPoint" ∉ mounts := by
    intro listed
    rw [(isMember_ok mount).2.mpr listed] at unmounted
    cases unmounted
  unfold mountsOf at rest ⊢
  rw [List.map_cons, List.filter_cons]
  cases found : spec.get? "mountPoint" with
  | none =>
      rw [found] at given
      simp only [value, found, Option.getD_none, Json.truthy] at rest
      rw [given]
      simpa [Json.truthy] using rest
  | some mountPoint =>
      rw [found] at given
      simp only [value, found, Option.getD_some] at rest absent given
      rw [given]
      split
      · rename_i holds
        rw [if_pos holds] at rest
        exact .cons absent rest
      · rename_i empty
        rw [if_neg empty] at rest
        exact rest

theorem validatePartitions_ok {facts : Object} {entries : List Json} {seen final : Geometry}
    (accepted : validatePartitions facts entries seen = .ok final) :
    ∃ plan, final.partitions = seen.partitions ++ plan.map Planned.json ∧ Laid facts seen entries plan := by
  induction entries generalizing seen with
  | nil =>
      cases accepted
      exact ⟨[], by simp, .nil, trivial, ⟨by simp, by simp⟩, by simp, ⟨by simp [mountsOf], by simp [mountsOf]⟩,
        by simp⟩
  | cons entry rest ih =>
      obtain ⟨fields, object, accepted⟩ := bind_ok accepted
      obtain ⟨spec, specified, accepted⟩ := bind_ok accepted
      obtain ⟨startMiB, started, accepted⟩ := bind_ok accepted
      obtain ⟨endMiB, ended, accepted⟩ := bind_ok accepted
      obtain ⟨finish, geometry, accepted⟩ := bind_ok accepted
      obtain ⟨number, numbered, accepted⟩ := bind_ok accepted
      obtain ⟨known, member, accepted⟩ := bind_ok accepted
      obtain ⟨_, fresh, accepted⟩ := bind_ok accepted
      obtain ⟨mounted, mount, accepted⟩ := bind_ok accepted
      obtain ⟨_, unmounted, accepted⟩ := bind_ok accepted
      obtain ⟨role, roled, accepted⟩ := bind_ok accepted
      obtain ⟨filesystem, filed, accepted⟩ := bind_ok accepted
      obtain ⟨starts, ends, grows, disk, size, present, measured, fits⟩ := checkGeometry_ok geometry
      obtain ⟨plan, partitions, laid⟩ := ih accepted
      cases asObject_ok object
      have found := itemObject_ok specified
      have inside : specOf (.obj fields) = spec := by simp [specOf, Json.fields, found]
      let planned : Planned :=
        { number, role, filesystem, mountPoint := (spec.get? "mountPoint").getD (.str "")
          startMiB := seen.previousEnd, endMiB := finish }
      have absent : number ∉ seen.numbers := by
        intro listed
        rw [(isMember_ok member).2.mpr listed] at fresh
        cases fresh
      refine ⟨planned :: plan, ?_, ?_⟩
      · rw [partitions, List.map_cons, ← List.append_cons]
        simp only [planned, Planned.json, Planned.fields, starts, ends]
      · refine ⟨.cons ⟨?_, ?_, ?_, ?_, ?_, ?_⟩ laid.normal, ⟨rfl, grows, laid.follows⟩,
          .cons absent laid.numbers, ?_, ?_, ?_⟩
        · simp [inside, value, item_ok numbered, planned]
        · simp [inside, value, item_ok roled, planned]
        · simp [inside, value, item_ok filed, planned]
        · simp [inside, planned]
        · simp [Json.fields, value, item_ok started, starts, planned]
        · simp [Json.fields, value, item_ok ended, ends, planned]
        · intro other listed
          cases List.mem_cons.mp listed with
          | inl same => exact same ▸ (isMember_ok member).1
          | inr later => exact laid.hashable other later
        · exact mountsOf_cons mount unmounted rfl laid.mounts
        · intro other listed
          cases List.mem_cons.mp listed with
          | inl same => exact ⟨size, ⟨disk, present, measured⟩, same ▸ fits⟩
          | inr later => exact laid.fits other later

def startOfLayout : Geometry := { previousEnd := 1, numbers := [], mounts := [], partitions := [] }

theorem countRole_eq (role : String) (plan : List Planned) :
    countRole role (plan.map Planned.json) = plan.countP fun planned => planned.role == .str role := by
  unfold countRole
  rw [List.countP_map]
  apply List.countP_congr
  intro planned _
  simp [Planned.json, Planned.fields, Json.fields, Object.get?]

/-- Every accepted layout is a plan whose geometry has been checked. -/
theorem validateStorage_ok {runStatus facts : Object} {layout : Json}
    (accepted : validateStorage runStatus facts = .ok layout) :
    ∃ plan, layout = .obj (layoutOf plan) ∧ Laid facts startOfLayout (storageEntries runStatus) plan ∧
      (plan.countP fun planned => planned.role == .str "root") = 1 ∧
      (plan.countP fun planned => planned.role == .str "efi") = 1 := by
  obtain ⟨storagePlan, pinned, accepted⟩ := bind_ok accepted
  obtain ⟨entries, listed, accepted⟩ := bind_ok accepted
  obtain ⟨seen, checked, accepted⟩ := bind_ok accepted
  obtain ⟨_, counted, accepted⟩ := bind_ok accepted
  cases accepted
  obtain ⟨plan, partitions, laid⟩ := validatePartitions_ok checked
  have same : storageEntries runStatus = entries := by
    unfold member at pinned
    unfold memberArray at listed
    unfold storageEntries
    split at pinned
    · rename_i document found
      cases asObject_ok pinned
      rw [found]
      simp only
      split at listed
      · rename_i items present
        cases asArray_ok listed
        rw [present]
      · rename_i absent
        cases listed
        rw [absent]
    · rename_i absent
      cases pinned
      cases listed
      rw [absent]
  have roles := demand_ok counted
  simp only [partitions, List.nil_append, countRole_eq, Bool.and_eq_true, decide_eq_true_eq] at roles
  refine ⟨plan, ?_, same ▸ laid, roles.1, roles.2⟩
  rw [partitions]
  rfl

/-! ## The attestation of an installed layout -/

/-- An installed partition is as planned. -/
structure AsPlanned (observed : List (Json × Object)) (planned : Planned) : Prop where
  start : value (observedPartition? planned.number observed) "startBytes" = megabytes planned.startMiB
  size : value (observedPartition? planned.number observed) "size" =
    megabytes (planned.endMiB - planned.startMiB)
  filesystem : Json.Same (value (observedPartition? planned.number observed) "filesystem") planned.filesystem
  uuid : holds (observedPartition? planned.number observed) "uuid" = true
  partUUID : holds (observedPartition? planned.number observed) "partUUID" = true
  swap : planned.role = .str "swap" → holds (observedPartition? planned.number observed) "activeSwap" = true
  mounted : planned.role ≠ .str "swap" → ∃ mountPoints,
    memberArray (observedPartition? planned.number observed) "mountPoints" = .ok mountPoints ∧
      planned.mountPoint ∈ mountPoints

theorem verifyPartition_iff {observed : List (Json × Object)} {planned : Planned} :
    verifyPartition observed planned.json = .ok () ↔ AsPlanned observed planned := by
  by_cases swap : planned.role = .str "swap"
  · simp only [verifyPartition, Planned.asObject_json, Planned.item_number, Planned.item_startMiB,
      Planned.item_endMiB, Planned.item_filesystem, Planned.item_role, asInt, swap, if_true, pure_bind, ok_bind_eq,
      demand_iff, Bool.and_eq_true, decide_eq_true_eq]
    constructor
    · rintro ⟨⟨⟨⟨⟨start, size⟩, filesystem⟩, uuid⟩, partUUID⟩, active⟩
      exact ⟨start, size, filesystem, uuid, partUUID, fun _ => active, fun other => absurd swap other⟩
    · intro attested
      exact ⟨⟨⟨⟨⟨attested.start, attested.size⟩, attested.filesystem⟩, attested.uuid⟩, attested.partUUID⟩,
        attested.swap swap⟩
  · cases mounts : memberArray (observedPartition? planned.number observed) "mountPoints" with
    | error failure =>
        constructor
        · intro verified
          simp [verifyPartition, asInt, swap, mounts, bind, Except.bind] at verified
        · intro attested
          obtain ⟨mountPoints, found, _⟩ := attested.mounted swap
          rw [mounts] at found
          cases found
    | ok mountPoints =>
        simp only [verifyPartition, Planned.asObject_json, Planned.item_number, Planned.item_startMiB,
          Planned.item_endMiB, Planned.item_filesystem, Planned.item_role, Planned.item_mountPoint, asInt, swap,
          if_false, mounts, pure_bind, ok_bind_eq, demand_iff, Bool.and_eq_true, decide_eq_true_eq,
          List.contains_iff_mem]
        constructor
        · rintro ⟨⟨⟨⟨⟨start, size⟩, filesystem⟩, uuid⟩, partUUID⟩, mounted⟩
          exact ⟨start, size, filesystem, uuid, partUUID, fun same => absurd same swap,
            fun _ => ⟨mountPoints, mounts, mounted⟩⟩
        · intro attested
          obtain ⟨others, found, mounted⟩ := attested.mounted swap
          rw [mounts] at found
          cases found
          exact ⟨⟨⟨⟨⟨attested.start, attested.size⟩, attested.filesystem⟩, attested.uuid⟩,
            attested.partUUID⟩, mounted⟩

theorem verifyPartitions_iff {observed : List (Json × Object)} {plan : List Planned} :
    verifyPartitions observed (plan.map Planned.json) = .ok () ↔ ∀ planned ∈ plan, AsPlanned observed planned := by
  induction plan with
  | nil => simp [verifyPartitions]
  | cons planned rest ih =>
      rw [List.map_cons, verifyPartitions, List.forall_mem_cons, ← ih, ← verifyPartition_iff]
      cases verifyPartition observed planned.json with
      | error failure => simp [bind, Except.bind]
      | ok done => simp

/-- An indexed partition is what the facts list. -/
def Indexes (partition : Json) (entry : Json × Object) : Prop :=
  partition = .obj entry.2 ∧ entry.2.get? "number" = some entry.1 ∧ entry.1.hashable = true

theorem indexPartitions_iff {partitions : List Json} {observed : List (Json × Object)} :
    indexPartitions partitions = .ok observed ↔ List.Forall₂ Indexes partitions observed := by
  unfold indexPartitions
  rw [mapM_ok]
  have each : (fun partition entry => (do
      let fields ← asObject partition
      let number ← item fields "number"
      demand number.hashable (.error "TypeError" "unhashable type")
      return (number, fields) : Except Exn (Json × Object)) = .ok entry) = Indexes := by
    funext partition entry
    apply propext
    constructor
    · intro read
      obtain ⟨fields, object, read⟩ := bind_ok read
      obtain ⟨number, numbered, read⟩ := bind_ok read
      obtain ⟨_, hashable, read⟩ := bind_ok read
      cases read
      exact ⟨asObject_ok object, item_ok numbered, demand_ok hashable⟩
    · intro ⟨object, numbered, hashable⟩
      simp [object, asObject, item, numbered, hashable]
  rw [each]

theorem indexed_objects {partitions : List Json} {observed : List (Json × Object)}
    (indexed : List.Forall₂ Indexes partitions observed) :
    partitions = (observed.map Prod.snd).map Json.obj := by
  induction indexed with
  | nil => rfl
  | cons first _ ih =>
      rw [first.1, ih]
      rfl

theorem indexed_numbers {partitions : List Json} {observed : List (Json × Object)}
    (indexed : List.Forall₂ Indexes partitions observed) :
    ∀ entry ∈ observed, entry.1.hashable = true ∧ value entry.2 "number" = entry.1 := by
  induction indexed with
  | nil => simp
  | cons first _ ih =>
      intro entry member
      cases List.mem_cons.mp member with
      | inl same =>
          subst same
          exact ⟨first.2.2, by simp [value, first.2.1]⟩
      | inr later => exact ih entry later

theorem distinctNumbers_eq {observed : List (Json × Object)}
    (hashable : ∀ entry ∈ observed, entry.1.hashable = true) :
    distinctNumbers observed = (observed.map Prod.fst).dedup.length := by
  unfold distinctNumbers
  congr 2
  apply List.map_congr_left
  intro entry member
  exact Json.canonical_hashable (hashable entry member)

/-- Entries are found by their numbers when no number is listed twice. -/
theorem observedPartition?_eq {observed : List (Json × Object)} {number : Json} {fields : Object}
    (hashable : ∀ entry ∈ observed, entry.1.hashable = true) (nodup : (observed.map Prod.fst).Nodup)
    (member : (number, fields) ∈ observed) : observedPartition? number observed = fields := by
  unfold observedPartition?
  cases found : observed.reverse.find? (fun entry => decide (Json.Same entry.1 number)) with
  | none =>
      have absent := List.find?_eq_none.mp found (number, fields) (by simpa using member)
      simp [Json.Same.refl] at absent
  | some entry =>
      have listed : entry ∈ observed := by simpa using List.mem_of_find?_eq_some found
      have matched := of_decide_eq_true
        (List.find?_some (p := fun entry : Json × Object => decide (Json.Same entry.1 number)) found)
      have same := (Json.same_hashable (hashable entry listed) (hashable _ member)).mp matched
      rw [List.inj_on_of_nodup_map nodup listed member same]
      rfl

/-- What is attested has been listed. -/
theorem AsPlanned.listed {observed : List (Json × Object)} {planned : Planned}
    (attested : AsPlanned observed planned) (hashable : ∀ entry ∈ observed, entry.1.hashable = true)
    (atom : planned.number.hashable = true) :
    ∃ fields, (planned.number, fields) ∈ observed := by
  have start := attested.start
  unfold observedPartition? at start
  cases found : observed.reverse.find? (fun entry => decide (Json.Same entry.1 planned.number)) with
  | none =>
      rw [found] at start
      cases start
  | some entry =>
      have listed : entry ∈ observed := by simpa using List.mem_of_find?_eq_some found
      have matched := of_decide_eq_true
        (List.find?_some (p := fun entry : Json × Object => decide (Json.Same entry.1 planned.number)) found)
      have same := (Json.same_hashable (hashable entry listed) atom).mp matched
      exact ⟨entry.2, same ▸ listed⟩

/-- What it takes to attest a layout. -/
theorem verifyInstalledStorage_iff {plan : List Planned} {facts : Object} :
    verifyInstalledStorage (layoutOf plan) facts = .ok () ↔
      ∃ partitions observed, memberArray facts "partitions" = .ok partitions ∧
        List.Forall₂ Indexes partitions observed ∧ distinctNumbers observed = plan.length ∧
        distinctNumbers observed = partitions.length ∧ ∀ planned ∈ plan, AsPlanned observed planned := by
  have planned : memberArray (layoutOf plan) "partitions" = .ok (plan.map Planned.json) := rfl
  constructor
  · intro verified
    obtain ⟨partitions, listed, verified⟩ := bind_ok verified
    obtain ⟨observed, indexed, verified⟩ := bind_ok verified
    rw [planned, ok_bind_eq] at verified
    obtain ⟨_, counted, verified⟩ := bind_ok verified
    have counts := demand_ok counted
    simp only [List.length_map, Bool.and_eq_true, decide_eq_true_eq] at counts
    exact ⟨partitions, observed, listed, indexPartitions_iff.mp indexed, counts.1, counts.2,
      verifyPartitions_iff.mp verified⟩
  · intro ⟨partitions, observed, listed, indexed, planCount, factCount, attested⟩
    unfold verifyInstalledStorage
    rw [listed, ok_bind_eq, indexPartitions_iff.mpr indexed, ok_bind_eq, planned, ok_bind_eq]
    rw [verifyPartitions_iff.mpr attested]
    simp [planCount, ← factCount]

/-! ## A pinned layout -/

def pinnedEntry (number startMiB endMiB : Int) (role filesystem : String) (mountPoint : Object) : Json :=
  .obj [("spec", .obj ([("number", .int number), ("role", .str role), ("filesystem", .str filesystem)] ++ mountPoint)),
    ("startMiB", .int startMiB), ("endMiB", .int endMiB)]

def pinned (entries : List Json) : Object := [("storagePlan", .obj [("partitions", .arr entries)])]

def tenGiB : Object := [("disk", .obj [("size", .int 10737418240)])]

/-- An EFI and a root partition, with swap after them. -/
def plainEntries : List Json :=
  [pinnedEntry 2 1 513 "efi" "vfat" [("mountPoint", .str "/boot/efi")],
    pinnedEntry 7 513 4096 "root" "ext4" [("mountPoint", .str "/")],
    pinnedEntry 4 4096 5120 "swap" "swap" []]

def plainPlan : List Planned :=
  [⟨.int 2, .str "efi", .str "vfat", .str "/boot/efi", 1, 513⟩,
    ⟨.int 7, .str "root", .str "ext4", .str "/", 513, 4096⟩,
    ⟨.int 4, .str "swap", .str "swap", .str "", 4096, 5120⟩]

theorem plain_accepted : validateStorage (pinned plainEntries) tenGiB = .ok (.obj (layoutOf plainPlan)) := rfl

end Homelab.Provisioning
