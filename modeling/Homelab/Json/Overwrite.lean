import Homelab.Json.Merge

namespace Json

/-! # When a merge patch replaces

A merge patch that is an object leaves exactly itself when no null of it
deletes instead, and when the object it is merged into has no further keys.
-/

mutual
/-- The patch has every key of the object it is merged into and no null
member, and so do its members that are objects. -/
def Overwrites (old : Json) : Json → Prop
  | .obj patch => (∀ key ∈ old.fields.map Prod.fst, key ∈ patch.map Prod.fst) ∧
      OverwritesFields old.fields patch
  | _ => True
termination_by structural patch => patch

def OverwritesFields (old : Object) : Object → Prop
  | [] => True
  | (key, value) :: rest => value ≠ .null ∧ Overwrites ((old.get? key).getD .null) value ∧
      OverwritesFields old rest
termination_by structural patch => patch
end

theorem overwritesFields_iff {old patch : Object} : OverwritesFields old patch ↔
    ∀ entry ∈ patch, entry.2 ≠ .null ∧ Overwrites ((old.get? entry.1).getD .null) entry.2 := by
  induction patch with
  | nil => simp [OverwritesFields]
  | cons entry rest ih => simp [OverwritesFields, ih, and_assoc]

theorem Object.isSome_get? {fields : Object} {key : String} :
    (Object.get? fields key).isSome ↔ key ∈ fields.map Prod.fst := by
  constructor
  · intro found
    obtain ⟨value, lookup⟩ := Option.isSome_iff_exists.mp found
    exact List.mem_map_of_mem (Object.mem_of_get? lookup)
  · intro listed
    by_contra missing
    induction fields with
    | nil => cases listed
    | cons entry rest ih =>
        obtain ⟨name, value⟩ := entry
        rw [Object.get?_cons] at missing
        split at missing
        · simp at missing
        · rename_i different
          cases List.mem_cons.mp listed with
          | inl same => exact different same.symm
          | inr later => exact ih later missing

theorem Object.mem_names_set {fields : Object} {key name : String} {stored : Json} :
    name ∈ (fields.set key stored).map Prod.fst ↔ name = key ∨ name ∈ fields.map Prod.fst := by
  rw [← Object.isSome_get?, ← Object.isSome_get?, Object.get?_set]
  by_cases same : key = name
  · simp [same]
  · simp [same, Ne.symm same]

/-- One member of the merged object is the member of the patch. -/
theorem mergeMember_same_iff {old patch : Object} {key : String}
    (each : ∀ value, Object.get? patch key = some value →
      (Same (mergePatch ((old.get? key).getD .null) value) value ↔
        Overwrites ((old.get? key).getD .null) value)) :
    (mergeMember (old.get? key) (Object.get? patch key)).map canonical =
        (Object.get? patch key).map canonical ↔
      (key ∈ old.map Prod.fst → key ∈ patch.map Prod.fst) ∧
        ∀ value, Object.get? patch key = some value →
          value ≠ .null ∧ Overwrites ((old.get? key).getD .null) value := by
  rw [← Object.isSome_get?, ← Object.isSome_get?]
  cases found : Object.get? patch key with
  | none => cases Object.get? old key <;> simp
  | some value =>
      by_cases deleted : value = .null
      · subst deleted
        simp
      · have merged : mergeMember (old.get? key) (some value) =
            some (mergePatch ((old.get? key).getD .null) value) := by
          cases value <;> simp [mergeMember] at deleted ⊢
        rw [merged]
        have same := each value found
        simpa [Same, deleted] using same

mutual
/-- A merge leaves the patch itself if and only if the patch overwrites. -/
theorem mergePatch_same_iff (old : Json) : ∀ patch : Json, Distinct patch →
    (Same (mergePatch old patch) patch ↔ Overwrites old patch)
  | .obj patch, distinct => by
      have fields := mergeFields_same_iff old.fields patch distinct.2
      rw [mergePatch, same_obj_iff, Overwrites, overwritesFields_iff]
      have lookups (key : String) : Object.get? (mergeFields old.fields patch) key =
          mergeMember (Object.get? old.fields key) (Object.get? patch key) :=
        get?_mergeFields old.fields patch distinct.1 key
      constructor
      · intro same
        refine ⟨fun key listed => ?_, fun entry member => ?_⟩
        · have here := (mergeMember_same_iff fun value found => fields _ (Object.mem_of_get? found)).mp
            (lookups key ▸ same key)
          exact here.1 listed
        · have here := (mergeMember_same_iff fun value found => fields _ (Object.mem_of_get? found)).mp
            (lookups entry.1 ▸ same entry.1)
          exact here.2 entry.2 (Object.get?_of_mem distinct.1 member)
      · intro ⟨keys, members⟩ key
        rw [lookups]
        apply (mergeMember_same_iff fun value found => fields _ (Object.mem_of_get? found)).mpr
        exact ⟨keys key, fun value found => members (key, value) (Object.mem_of_get? found)⟩
  | .null, _ => by simp [mergePatch, Overwrites, Same]
  | .bool _, _ => by simp [mergePatch, Overwrites, Same]
  | .int _, _ => by simp [mergePatch, Overwrites, Same]
  | .str _, _ => by simp [mergePatch, Overwrites, Same]
  | .arr _, _ => by simp [mergePatch, Overwrites, Same]

theorem mergeFields_same_iff (old : Object) : ∀ patch : Object, DistinctFields patch →
    ∀ entry ∈ patch, (Same (mergePatch ((old.get? entry.1).getD .null) entry.2) entry.2 ↔
      Overwrites ((old.get? entry.1).getD .null) entry.2)
  | [], _ => by simp
  | (key, value) :: rest, distinct => by
      intro entry member
      cases List.mem_cons.mp member with
      | inl same =>
          subst same
          exact mergePatch_same_iff _ value distinct.1
      | inr later => exact mergeFields_same_iff old rest distinct.2 entry later
end

end Json
