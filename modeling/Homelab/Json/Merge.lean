import Homelab.Json.Basic

namespace Json

/-! # Merge patches

Application of a merge patch to a document: objects merge member by member, a
null member deletes, anything else replaces.
-/

def fields : Json → Object
  | .obj fields => fields
  | _ => []

mutual
def mergePatch (target : Json) : Json → Json
  | .obj patch => .obj (mergeFields target.fields patch)
  | value => value
termination_by structural patch => patch

def mergeFields (fields : Object) : Object → Object
  | [] => fields
  | (key, .null) :: rest => mergeFields (fields.erase key) rest
  | (key, value) :: rest =>
      mergeFields (fields.set key (mergePatch ((fields.get? key).getD .null) value)) rest
termination_by structural patch => patch
end

@[simp] theorem mergeFields_nil (fields : Object) : mergeFields fields [] = fields := rfl

@[simp] theorem mergeFields_null (fields rest : Object) (key : String) :
    mergeFields fields ((key, .null) :: rest) = mergeFields (fields.erase key) rest := rfl

theorem mergeFields_cons (fields rest : Object) {key : String} {value : Json}
    (present : value ≠ .null) :
    mergeFields fields ((key, value) :: rest) =
      mergeFields (fields.set key (mergePatch ((fields.get? key).getD .null) value)) rest := by
  cases value with
  | null => contradiction
  | _ => rfl

@[simp] theorem mergeFields_bool (fields rest : Object) (key : String) (value : Bool) :
    mergeFields fields ((key, .bool value) :: rest) = mergeFields (fields.set key (.bool value)) rest :=
  rfl

@[simp] theorem mergeFields_str (fields rest : Object) (key : String) (value : String) :
    mergeFields fields ((key, .str value) :: rest) = mergeFields (fields.set key (.str value)) rest :=
  rfl

@[simp] theorem mergeFields_obj (fields rest patch : Object) (key : String) :
    mergeFields fields ((key, .obj patch) :: rest) =
      mergeFields (fields.set key
        (.obj (mergeFields ((fields.get? key).getD .null).fields patch))) rest :=
  rfl

/-- A member the patch does not name keeps its value. -/
theorem get?_mergeFields_of_not_mem (fields patch : Object) {key : String}
    (absent : key ∉ patch.map Prod.fst) : (mergeFields fields patch).get? key = fields.get? key := by
  induction patch generalizing fields with
  | nil => rfl
  | cons entry rest ih =>
      obtain ⟨name, value⟩ := entry
      simp only [List.map_cons, List.mem_cons, not_or] at absent
      by_cases deleted : value = .null
      · subst deleted
        rw [mergeFields_null, ih _ absent.2, Object.get?_erase_ne _ (Ne.symm absent.1)]
      · rw [mergeFields_cons _ _ deleted, ih _ absent.2, Object.get?_set_ne _ _ (Ne.symm absent.1)]

/-- What a member becomes under a patch of it. -/
def mergeMember (old : Option Json) : Option Json → Option Json
  | none => old
  | some .null => none
  | some value => some (mergePatch (old.getD .null) value)

section

variable (old : Option Json)

@[simp] theorem mergeMember_none : mergeMember old none = old := rfl

@[simp] theorem mergeMember_null : mergeMember old (some .null) = none := rfl

@[simp] theorem mergeMember_bool (value : Bool) :
    mergeMember old (some (.bool value)) = some (.bool value) := rfl

@[simp] theorem mergeMember_str (value : String) :
    mergeMember old (some (.str value)) = some (.str value) := rfl

end

/-- A member the patch names once is deleted by null and merged otherwise. -/
theorem get?_mergeFields (fields patch : Object) (distinct : (patch.map Prod.fst).Nodup)
    (key : String) :
    (mergeFields fields patch).get? key = mergeMember (fields.get? key) (patch.get? key) := by
  induction patch generalizing fields with
  | nil => rfl
  | cons entry rest ih =>
      obtain ⟨name, value⟩ := entry
      simp only [List.map_cons, List.nodup_cons] at distinct
      by_cases found : name = key
      · subst found
        cases value with
        | null =>
            rw [mergeFields_null, get?_mergeFields_of_not_mem _ _ distinct.1]
            simp
        | _ =>
            rw [mergeFields_cons _ _ (by simp), get?_mergeFields_of_not_mem _ _ distinct.1]
            simp [mergeMember]
      · by_cases deleted : value = .null
        · subst deleted
          rw [mergeFields_null, ih _ distinct.2, Object.get?_erase_ne _ found]
          simp [found]
        · rw [mergeFields_cons _ _ deleted, ih _ distinct.2, Object.get?_set_ne _ _ found]
          simp [found]

end Json
