import Homelab.Operators.Provisioning.Storage

namespace Homelab.Provisioning

open Json (Object)

/-! # The extents of an accepted layout -/

section

variable {plan : List Planned} {start : Int}

theorem Follows.after (follows : Follows start plan) : ∀ planned ∈ plan, start ≤ planned.startMiB := by
  induction plan generalizing start with
  | nil => simp
  | cons first rest ih =>
      obtain ⟨begins, grows, later⟩ := follows
      intro planned member
      cases List.mem_cons.mp member with
      | inl same => rw [same, begins]
      | inr listed =>
          have bound := ih later planned listed
          omega

theorem Follows.grows (follows : Follows start plan) : ∀ planned ∈ plan, planned.startMiB < planned.endMiB := by
  induction plan generalizing start with
  | nil => simp
  | cons first rest ih =>
      intro planned member
      cases List.mem_cons.mp member with
      | inl same => exact same ▸ follows.2.1
      | inr listed => exact ih follows.2.2 planned listed

/-- The range of a planned partition, when a MiB has `sectors` sectors. -/
def Planned.range (sectors : Int) (planned : Planned) : Int × Int :=
  (planned.startMiB * sectors, planned.endMiB * sectors - 1)

variable {sectors : Int}

theorem Follows.disjoint (follows : Follows start plan) (positive : 0 < sectors) :
    (plan.map (Planned.range sectors)).Pairwise fun left right => left.2 < right.1 := by
  induction plan generalizing start with
  | nil => simp
  | cons first rest ih =>
      obtain ⟨_, _, later⟩ := follows
      rw [List.map_cons, List.pairwise_cons]
      refine ⟨fun range member => ?_, ih later⟩
      obtain ⟨planned, listed, same⟩ := List.mem_map.mp member
      have bound := later.after planned listed
      have scaled := Int.mul_le_mul_of_nonneg_right bound (Int.le_of_lt positive)
      rw [← same]
      simp only [Planned.range]
      omega

theorem Follows.consecutive (follows : Follows start plan) :
    (plan.map (Planned.range sectors)).IsChain fun left right => right.1 = left.2 + 1 := by
  induction plan generalizing start with
  | nil => simp
  | cons first rest ih =>
      obtain ⟨_, _, later⟩ := follows
      cases rest with
      | nil => simp
      | cons second rest =>
          rw [List.map_cons, List.map_cons, List.isChain_cons_cons]
          refine ⟨?_, ih later⟩
          simp only [Planned.range, later.1]
          omega

end

/-- Ranges that tile a disk of this size, between the two partition tables. -/
structure Tiles (sector size : Int) (ranges : List (Int × Int)) : Prop where
  nonempty : ∀ range ∈ ranges, range.1 ≤ range.2
  disjoint : ranges.Pairwise fun left right => left.2 < right.1
  consecutive : ranges.IsChain fun left right => right.1 = left.2 + 1
  begins : ∃ first rest, ranges = first :: rest ∧ first.1 * sector = 1048576
  ends : ∀ range ∈ ranges, (range.2 + 1) * sector ≤ size - 1048576

/-- The range that is passed to the tool for a planned partition. -/
def Passed (sector : Int) (planned : Planned) (range : Int × Int) : Prop :=
  sectorRange sector planned.fields = .ok range ∧
    ∀ disk arguments, partitionSingle sector disk planned.fields = .ok arguments →
      arguments[1]? = some ("--new=" ++ numberText planned.number ++ ":" ++ toString range.1 ++ ":" ++
        toString range.2)

section

variable {sector : Nat}

theorem sectors_positive (divides : sector ∣ 1048576) : 0 < sector ∧ 0 < 1048576 / sector := by
  have positive : 0 < sector := Nat.pos_of_dvd_of_pos divides (by decide)
  exact ⟨positive, Nat.div_pos (Nat.le_of_dvd (by decide) divides) positive⟩

theorem mul_sectors (divides : sector ∣ 1048576) (value : Int) :
    value * 1048576 / (sector : Int) = value * ((1048576 / sector : Nat) : Int) := by
  have whole : (sector : Int) ∣ ((1048576 : Nat) : Int) := Int.natCast_dvd_natCast.mpr divides
  exact Int.mul_ediv_assoc value whole

theorem sectors_mul (divides : sector ∣ 1048576) (value : Int) :
    value * ((1048576 / sector : Nat) : Int) * (sector : Int) = value * 1048576 := by
  have whole : (1048576 / sector) * sector = 1048576 := Nat.div_mul_cancel divides
  rw [Int.mul_assoc, ← Int.natCast_mul, whole]
  rfl

theorem passed_range (divides : sector ∣ 1048576) (planned : Planned) :
    Passed sector planned (planned.range ((1048576 / sector : Nat) : Int)) := by
  have nonzero : (sector : Int) ≠ 0 := by
    have positive := (sectors_positive divides).1
    omega
  have read : sectorRange sector planned.fields =
      .ok (planned.range ((1048576 / sector : Nat) : Int)) := by
    have pure : sectorRange sector planned.fields = (do
        demand ((sector : Int) ≠ 0) (.error "ZeroDivisionError" "integer division or modulo by zero")
        return (planned.startMiB * 1048576 / sector, planned.endMiB * 1048576 / sector - 1)) := rfl
    rw [pure, mul_sectors divides, mul_sectors divides]
    simp only [ne_eq, nonzero, not_false_eq_true, decide_true, demand_true, ok_bind_eq]
    rfl
  refine ⟨read, fun disk arguments passed => ?_⟩
  obtain ⟨number, numbered, passed⟩ := bind_ok passed
  rw [read, ok_bind_eq] at passed
  obtain ⟨role, _, passed⟩ := bind_ok passed
  obtain ⟨code, _, passed⟩ := bind_ok passed
  cases numbered
  cases passed
  rfl

theorem probed_range (divides : sector ∣ 1048576) (planned : Planned) :
    probedExtent sector (planned.range ((1048576 / sector : Nat) : Int)) =
      (megabytes planned.startMiB, megabytes (planned.endMiB - planned.startMiB)) := by
  unfold probedExtent Planned.range megabytes
  have first := sectors_mul divides planned.startMiB
  have last := sectors_mul divides planned.endMiB
  have unit : (512 : Int) ∣ planned.startMiB * 1048576 := Int.dvd_mul_of_dvd_right ⟨2048, rfl⟩
  simp only [first, Int.ediv_mul_cancel unit, Prod.mk.injEq, Json.int.injEq, true_and]
  have length : planned.endMiB * ((1048576 / sector : Nat) : Int) - 1 -
      planned.startMiB * ((1048576 / sector : Nat) : Int) + 1 =
        planned.endMiB * ((1048576 / sector : Nat) : Int) -
          planned.startMiB * ((1048576 / sector : Nat) : Int) := by
    omega
  rw [length, Int.sub_mul, Int.sub_mul, first, last]

theorem Laid.tiles {facts : Object} {entries : List Json} {plan : List Planned} {size : Int}
    (laid : Laid facts startOfLayout entries plan) (measured : DiskSize facts size) (nonempty : plan ≠ [])
    (divides : sector ∣ 1048576) :
    Tiles sector size (plan.map (Planned.range ((1048576 / sector : Nat) : Int))) := by
  obtain ⟨positive, sectors⟩ := sectors_positive divides
  have some : 0 < ((1048576 / sector : Nat) : Int) := by omega
  refine ⟨fun range member => ?_, laid.follows.disjoint some, laid.follows.consecutive, ?_, fun range member => ?_⟩
  · obtain ⟨planned, listed, same⟩ := List.mem_map.mp member
    have grows := laid.follows.grows planned listed
    have scaled := Int.mul_lt_mul_of_pos_right grows some
    rw [← same]
    simp only [Planned.range]
    omega
  · cases plan with
    | nil => exact absurd rfl nonempty
    | cons first rest =>
        refine ⟨_, _, List.map_cons, ?_⟩
        have begins : first.startMiB = 1 := laid.follows.1
        simp only [Planned.range, sectors_mul divides, begins]
        rfl
  · obtain ⟨planned, listed, same⟩ := List.mem_map.mp member
    obtain ⟨bytes, found, fits⟩ := laid.fits planned listed
    rw [found.unique measured] at fits
    have last : ((planned.range ((1048576 / sector : Nat) : Int)).2 + 1) * (sector : Int) =
        planned.endMiB * 1048576 := by
      rw [← sectors_mul divides]
      simp only [Planned.range, Int.sub_add_cancel]
    rw [← same, last]
    have floor := Int.ediv_mul_le size (by decide : (1048576 : Int) ≠ 0)
    omega

end

/-- The facts list one partition for each planned number, with the planned
extent, and no other. -/
def ListsExactly (installed : Object) (plan : List Planned) : Prop :=
  ∃ partitions : List Object,
    memberArray installed "partitions" = .ok (partitions.map Json.obj) ∧
    (partitions.map fun partition => value partition "number").Perm (plan.map Planned.number) ∧
    ∀ partition ∈ partitions, ∀ planned ∈ plan, value partition "number" = planned.number →
      value partition "startBytes" = megabytes planned.startMiB ∧
      value partition "size" = megabytes (planned.endMiB - planned.startMiB)

theorem verified_lists {installed : Object} {plan : List Planned}
    (numbers : (plan.map Planned.number).Nodup) (hashable : ∀ planned ∈ plan, planned.number.hashable = true)
    (verified : verifyInstalledStorage (layoutOf plan) installed = .ok ()) : ListsExactly installed plan := by
  obtain ⟨partitions, observed, listed, indexed, planCount, factCount, attested⟩ :=
    verifyInstalledStorage_iff.mp verified
  have known := indexed_numbers indexed
  have atoms : ∀ entry ∈ observed, entry.1.hashable = true := fun entry member => (known entry member).1
  have keys : (observed.map Prod.snd).map (fun partition => value partition "number") =
      observed.map Prod.fst := by
    rw [List.map_map]
    exact List.map_congr_left fun entry member => (known entry member).2
  have length := indexed.length_eq
  rw [distinctNumbers_eq atoms] at planCount factCount
  have nodup : (observed.map Prod.fst).Nodup := by
    rw [← List.dedup_eq_self]
    apply (List.dedup_sublist _).eq_of_length
    rw [factCount, List.length_map, length]
  have subset : plan.map Planned.number ⊆ observed.map Prod.fst := by
    intro number member
    obtain ⟨planned, member, same⟩ := List.mem_map.mp member
    obtain ⟨fields, found⟩ := (attested planned member).listed atoms (hashable planned member)
    exact List.mem_map.mpr ⟨_, found, same⟩
  have same : (plan.map Planned.number).Perm (observed.map Prod.fst) := by
    have length : (observed.map Prod.fst).length = plan.length := by
      rw [← planCount, List.Nodup.dedup nodup]
    apply (List.subperm_of_subset numbers subset).perm_of_length_le
    rw [length, List.length_map]
  refine ⟨observed.map Prod.snd, by rw [listed, indexed_objects indexed], keys ▸ same.symm, ?_⟩
  intro partition member planned inPlan numbered
  obtain ⟨entry, present, second⟩ := List.mem_map.mp member
  have found : observedPartition? planned.number observed = partition := by
    apply observedPartition?_eq atoms nodup
    rw [← numbered, ← second, (known entry present).2]
    exact present
  have agreed := attested planned inPlan
  rw [← found]
  exact ⟨agreed.start, agreed.size⟩

end Homelab.Provisioning
