import Homelab.Operators.Provisioning.Storage

namespace Homelab.Provisioning

open Json (Object)

/-! # Which accepted layouts can be finished -/

/-- What the probe reads back of a partition that was installed as planned. -/
def readBack (uuid partUUID : String) (planned : Planned) : Object :=
  [("number", planned.number), ("startBytes", megabytes planned.startMiB),
    ("size", megabytes (planned.endMiB - planned.startMiB)), ("filesystem", planned.filesystem),
    ("uuid", .str uuid), ("partUUID", .str partUUID),
    ("mountPoints", .arr (if planned.role = .str "swap" ∨ planned.mountPoint = .str "" then []
      else [planned.mountPoint])),
    ("activeSwap", .bool (planned.role = .str "swap"))]

/-- Every partition and filesystem of a layout can be created, and the layout is
attested once they have been. -/
structure Finishable (plan : List Planned) : Prop where
  partition : ∀ planned ∈ plan, ∀ sector disk, sector ≠ 0 →
    ∃ arguments, partitionSingle sector disk planned.fields = .ok arguments
  filesystem : ∀ planned ∈ plan, ∀ device, ∃ arguments, initfsSingle device planned.fields = .ok arguments
  attested : ∀ (uuid partUUID : Planned → String) (installed : Object),
    (∀ planned, uuid planned ≠ "" ∧ partUUID planned ≠ "") →
    installed.get? "partitions" =
      some (.arr (plan.map fun planned => .obj (readBack (uuid planned) (partUUID planned) planned))) →
    verifyInstalledStorage (layoutOf plan) installed = .ok ()

def supportedRoles : List Json := typecodes.map fun entry => .str entry.1

def supportedFilesystems : List Json := filesystemTools.map fun entry => .str entry.1

/-- Every pinned entry has a role and a filesystem that the tasks know, and a
mount point unless it is swap. -/
def Supported (runStatus : Object) : Prop :=
  ∀ entry ∈ storageEntries runStatus,
    value (specOf entry) "role" ∈ supportedRoles ∧ value (specOf entry) "filesystem" ∈ supportedFilesystems ∧
    (value (specOf entry) "role" = .str "swap" ∨
      ((specOf entry).get? "mountPoint").getD (.str "") ≠ .str "")

theorem templateItem_iff {α : Type} {entries : List (String × α)} {key : Json} :
    (∃ found, templateItem entries key = .ok found) ↔ key ∈ entries.map fun entry => Json.str entry.1 := by
  cases key with
  | str text =>
      have known : (entries.lookup text).isSome = true ↔
          Json.str text ∈ entries.map fun entry => Json.str entry.1 := by
        induction entries with
        | nil => simp
        | cons entry rest ih =>
            obtain ⟨name, found⟩ := entry
            by_cases same : text = name
            · simp [same]
            · have test : (text == name) = false := beq_eq_false_iff_ne.mpr same
              rw [List.lookup_cons, test, List.map_cons, List.mem_cons, Json.str.injEq]
              simpa only [same, false_or] using ih
      rw [← known]
      simp only [templateItem]
      cases entries.lookup text with
      | none => simp
      | some found => simp
  | _ => simp [templateItem]

theorem partitionSingle_iff {sector : Int} {disk : String} {planned : Planned} (nonzero : sector ≠ 0) :
    (∃ arguments, partitionSingle sector disk planned.fields = .ok arguments) ↔
      planned.role ∈ supportedRoles := by
  rw [supportedRoles, ← templateItem_iff]
  have ranged : sectorRange sector planned.fields =
      .ok (planned.startMiB * 1048576 / sector, planned.endMiB * 1048576 / sector - 1) := by
    have read : sectorRange sector planned.fields = (do
        demand (sector ≠ 0) (.error "ZeroDivisionError" "integer division or modulo by zero")
        return (planned.startMiB * 1048576 / sector, planned.endMiB * 1048576 / sector - 1)) := rfl
    rw [read]
    simp only [ne_eq, nonzero, not_false_eq_true, decide_true, demand_true, ok_bind_eq]
    rfl
  constructor
  · intro ⟨arguments, passed⟩
    obtain ⟨number, _, passed⟩ := bind_ok passed
    rw [ranged, ok_bind_eq] at passed
    obtain ⟨role, found, passed⟩ := bind_ok passed
    obtain ⟨code, coded, _⟩ := bind_ok passed
    cases found
    exact ⟨code, coded⟩
  · intro ⟨code, coded⟩
    cases passed : partitionSingle sector disk planned.fields with
    | ok arguments => exact ⟨arguments, rfl⟩
    | error failure =>
        have role : templateAttribute planned.fields "role" = .ok planned.role := rfl
        have number : templateAttribute planned.fields "number" = .ok planned.number := rfl
        simp only [partitionSingle, number, ranged, role, coded, ok_bind_eq] at passed
        cases passed

theorem initfsSingle_iff {device : String} {planned : Planned} :
    (∃ arguments, initfsSingle device planned.fields = .ok arguments) ↔
      planned.filesystem ∈ supportedFilesystems := by
  rw [supportedFilesystems, ← templateItem_iff]
  constructor
  · intro ⟨arguments, passed⟩
    obtain ⟨tool, found, _⟩ := bind_ok passed
    exact ⟨tool, found⟩
  · intro ⟨tool, found⟩
    cases passed : initfsSingle device planned.fields with
    | ok arguments => exact ⟨arguments, rfl⟩
    | error failure =>
        have filesystem : templateAttribute planned.fields "filesystem" = .ok planned.filesystem := rfl
        have number : templateAttribute planned.fields "number" = .ok planned.number := rfl
        simp only [initfsSingle, filesystem, number, found, ok_bind_eq] at passed
        cases passed

section

variable {plan : List Planned} {uuid partUUID : Planned → String}

/-- The index of a read-back. -/
def backIndex (uuid partUUID : Planned → String) (plan : List Planned) : List (Json × Object) :=
  plan.map fun planned => (planned.number, readBack (uuid planned) (partUUID planned) planned)

theorem backIndex_numbers : (backIndex uuid partUUID plan).map Prod.fst = plan.map Planned.number := by
  simp [backIndex]

theorem backIndex_hashable (hashable : ∀ planned ∈ plan, planned.number.hashable = true) :
    ∀ entry ∈ backIndex uuid partUUID plan, entry.1.hashable = true := by
  intro entry member
  obtain ⟨planned, listed, same⟩ := List.mem_map.mp member
  rw [← same]
  exact hashable planned listed

theorem backIndex_indexes (hashable : ∀ planned ∈ plan, planned.number.hashable = true) :
    List.Forall₂ Indexes
      (plan.map fun planned => .obj (readBack (uuid planned) (partUUID planned) planned))
      (backIndex uuid partUUID plan) := by
  rw [backIndex, List.forall₂_map_left_iff, List.forall₂_map_right_iff, List.forall₂_same]
  exact fun planned member => ⟨rfl, rfl, hashable planned member⟩

/-- The read-back of a partition is attested unless its mount point is empty. -/
theorem readBack_attested (named : ∀ planned, uuid planned ≠ "" ∧ partUUID planned ≠ "") {planned : Planned}
    (found : observedPartition? planned.number (backIndex uuid partUUID plan) =
      readBack (uuid planned) (partUUID planned) planned) :
    AsPlanned (backIndex uuid partUUID plan) planned ↔
      planned.role = .str "swap" ∨ planned.mountPoint ≠ .str "" := by
  have mounts : memberArray (readBack (uuid planned) (partUUID planned) planned) "mountPoints" =
      .ok (if planned.role = .str "swap" ∨ planned.mountPoint = .str "" then [] else [planned.mountPoint]) := rfl
  constructor
  · intro attested
    by_cases swap : planned.role = .str "swap"
    · exact .inl swap
    · obtain ⟨mountPoints, listed, mounted⟩ := attested.mounted swap
      rw [found, mounts] at listed
      cases listed
      right
      intro empty
      simp [empty] at mounted
  · intro supported
    refine ⟨?_, ?_, ?_, ?_, ?_, ?_, ?_⟩
    · rw [found]
      rfl
    · rw [found]
      rfl
    · rw [found]
      exact .refl _
    · rw [found]
      simp [holds, readBack, Json.truthy, (named planned).1]
    · rw [found]
      simp [holds, readBack, Json.truthy, (named planned).2]
    · intro swap
      rw [found]
      simp [holds, readBack, Json.truthy, swap]
    · intro other
      rw [found, mounts]
      have given : planned.mountPoint ≠ .str "" := supported.resolve_left other
      refine ⟨_, rfl, ?_⟩
      rw [if_neg (not_or.mpr ⟨other, given⟩)]
      exact List.mem_singleton_self _

theorem readBack_found (numbers : (plan.map Planned.number).Nodup)
    (hashable : ∀ planned ∈ plan, planned.number.hashable = true) {planned : Planned} (member : planned ∈ plan) :
    observedPartition? planned.number (backIndex uuid partUUID plan) =
      readBack (uuid planned) (partUUID planned) planned := by
  apply observedPartition?_eq (backIndex_hashable hashable)
  · rw [backIndex_numbers]
    exact numbers
  · exact List.mem_map.mpr ⟨planned, member, rfl⟩

/-- A read-back is attested when every partition of the layout is mounted or swap. -/
theorem readBack_verified (numbers : (plan.map Planned.number).Nodup)
    (hashable : ∀ planned ∈ plan, planned.number.hashable = true)
    (named : ∀ planned, uuid planned ≠ "" ∧ partUUID planned ≠ "") {installed : Object}
    (listed : installed.get? "partitions" =
      some (.arr (plan.map fun planned => .obj (readBack (uuid planned) (partUUID planned) planned)))) :
    verifyInstalledStorage (layoutOf plan) installed = .ok () ↔
      ∀ planned ∈ plan, planned.role = .str "swap" ∨ planned.mountPoint ≠ .str "" := by
  have facts : memberArray installed "partitions" =
      .ok (plan.map fun planned => .obj (readBack (uuid planned) (partUUID planned) planned)) := by
    unfold memberArray
    rw [listed]
    rfl
  have indexes : List.Forall₂ Indexes
      (plan.map fun planned => .obj (readBack (uuid planned) (partUUID planned) planned))
      (backIndex uuid partUUID plan) := backIndex_indexes hashable
  rw [verifyInstalledStorage_iff]
  constructor
  · intro ⟨partitions, observed, found, indexed, _, _, attested⟩ planned member
    rw [facts] at found
    cases found
    have same : observed = backIndex uuid partUUID plan :=
      Except.ok.inj ((indexPartitions_iff.mpr indexed).symm.trans (indexPartitions_iff.mpr indexes))
    rw [same] at attested
    exact (readBack_attested named (readBack_found numbers hashable member)).mp (attested planned member)
  · intro supported
    have count : distinctNumbers (backIndex uuid partUUID plan) = plan.length := by
      rw [distinctNumbers_eq (backIndex_hashable hashable), backIndex_numbers, List.Nodup.dedup numbers,
        List.length_map]
    refine ⟨_, _, facts, indexes, count, by rw [count, List.length_map], fun planned member => ?_⟩
    exact (readBack_attested named (readBack_found numbers hashable member)).mpr (supported planned member)

end

/-- What is required of a planned partition. -/
def SupportedPartition (planned : Planned) : Prop :=
  planned.role ∈ supportedRoles ∧ planned.filesystem ∈ supportedFilesystems ∧
    (planned.role = .str "swap" ∨ planned.mountPoint ≠ .str "")

theorem supported_iff {runStatus : Object} {plan : List Planned}
    (normal : List.Forall₂ Normalizes (storageEntries runStatus) plan) :
    Supported runStatus ↔ ∀ planned ∈ plan, SupportedPartition planned := by
  unfold Supported
  generalize storageEntries runStatus = entries at normal
  induction normal with
  | nil => simp
  | cons first _ ih =>
      rw [List.forall_mem_cons, List.forall_mem_cons, ih, first.role, first.filesystem, first.mountPoint]
      rfl

/-- An accepted layout can be finished exactly when the pinned entries are supported. -/
theorem layout_finishable_iff {runStatus facts : Object} {layout : Json}
    (accepted : validateStorage runStatus facts = .ok layout) :
    ∃ plan, layout = .obj (layoutOf plan) ∧ (Finishable plan ↔ Supported runStatus) := by
  obtain ⟨plan, same, laid, _, _⟩ := validateStorage_ok accepted
  refine ⟨plan, same, ?_⟩
  rw [supported_iff laid.normal]
  constructor
  · intro finishable planned member
    have verified := finishable.attested (fun _ => "uuid") (fun _ => "partuuid") _
      (fun _ => ⟨by decide, by decide⟩) (Object.get?_set_self [] _)
    exact ⟨(partitionSingle_iff (by decide : (512 : Int) ≠ 0)).mp
        (finishable.partition planned member 512 "" (by decide)),
      initfsSingle_iff.mp (finishable.filesystem planned member ""),
      (readBack_verified laid.numbers.1 laid.hashable (fun _ => ⟨by decide, by decide⟩)
        (Object.get?_set_self [] _)).mp verified planned member⟩
  · intro supported
    refine ⟨fun planned member sector disk nonzero => ?_, fun planned member device => ?_,
      fun uuid partUUID installed named listed => ?_⟩
    · exact (partitionSingle_iff nonzero).mpr (supported planned member).1
    · exact initfsSingle_iff.mpr (supported planned member).2.1
    · exact (readBack_verified laid.numbers.1 laid.hashable named listed).mpr
        fun planned member => (supported planned member).2.2

theorem layout_finishable_plain :
    ∃ plan, Json.obj (layoutOf plainPlan) = .obj (layoutOf plan) ∧
      (Finishable plan ↔ Supported (pinned plainEntries)) :=
  layout_finishable_iff plain_accepted

/-- The same, with a data partition that has no mount point. -/
def unmountedEntries : List Json := plainEntries ++ [pinnedEntry 5 5120 8192 "data" "ext4" []]

def unmountedPlan : List Planned :=
  plainPlan ++ [⟨.int 5, .str "data", .str "ext4", .str "", 5120, 8192⟩]

/-- The validator accepts a layout whose installation is never attested. -/
theorem layout_never_attested :
    validateStorage (pinned unmountedEntries) tenGiB = .ok (.obj (layoutOf unmountedPlan)) ∧
      ¬ Finishable unmountedPlan := by
  refine ⟨rfl, fun finishable => ?_⟩
  have verified := finishable.attested (fun _ => "uuid") (fun _ => "partuuid") _
    (fun _ => ⟨by decide, by decide⟩) (Object.get?_set_self [] _)
  exact absurd verified (by decide +kernel)

end Homelab.Provisioning
