import Mathlib.Data.List.Basic
import Mathlib.Data.List.Forall2
import Mathlib.Data.List.Nodup
import Mathlib.Data.List.Perm.Basic
import Mathlib.Data.String.Basic

/-! # JSON documents

Objects are association lists in insertion order, as a decoder leaves them.
Equality of the language's mappings ignores that order: `Json.Same` compares
canonical forms, in which every object is sorted by key.
-/

inductive Json where
  | null
  | bool (value : Bool)
  | int (value : Int)
  | str (value : String)
  | arr (items : List Json)
  | obj (fields : List (String × Json))
deriving Inhabited

namespace Json

abbrev Object := List (String × Json)

mutual
def beq : Json → Json → Bool
  | .null, .null => true
  | .bool left, .bool right => left == right
  | .int left, .int right => left == right
  | .str left, .str right => left == right
  | .arr left, .arr right => beqItems left right
  | .obj left, .obj right => beqFields left right
  | _, _ => false
termination_by structural value => value

def beqItems : List Json → List Json → Bool
  | [], [] => true
  | left :: lefts, right :: rights => beq left right && beqItems lefts rights
  | _, _ => false
termination_by structural items => items

def beqFields : Object → Object → Bool
  | [], [] => true
  | (key, left) :: lefts, (other, right) :: rights =>
      key == other && beq left right && beqFields lefts rights
  | _, _ => false
termination_by structural fields => fields
end

mutual
theorem beq_iff : ∀ left right : Json, beq left right = true ↔ left = right
  | .null, right => by cases right <;> simp [beq]
  | .bool _, right => by cases right <;> simp [beq]
  | .int _, right => by cases right <;> simp [beq]
  | .str _, right => by cases right <;> simp [beq]
  | .arr items, right => by cases right <;> simp [beq, beqItems_iff items]
  | .obj fields, right => by cases right <;> simp [beq, beqFields_iff fields]

theorem beqItems_iff : ∀ left right : List Json, beqItems left right = true ↔ left = right
  | [], right => by cases right <;> simp [beqItems]
  | item :: rest, right => by cases right <;> simp [beqItems, beq_iff item, beqItems_iff rest]

theorem beqFields_iff : ∀ left right : Object, beqFields left right = true ↔ left = right
  | [], right => by cases right <;> simp [beqFields]
  | (key, value) :: rest, right => by
      rcases right with _ | ⟨⟨other, compared⟩, others⟩ <;>
        simp [beqFields, beq_iff value, beqFields_iff rest, and_assoc]
end

instance : DecidableEq Json := fun left right => decidable_of_iff _ (beq_iff left right)

namespace Object

def get? : Object → String → Option Json
  | [], _ => none
  | (name, value) :: rest, key => if name = key then some value else get? rest key

/-- Assignment keeps the position of a key that is present already. -/
def set : Object → String → Json → Object
  | [], key, value => [(key, value)]
  | (name, old) :: rest, key, value =>
      if name = key then (key, value) :: rest else (name, old) :: set rest key value

def erase : Object → String → Object
  | [], _ => []
  | (name, value) :: rest, key =>
      if name = key then erase rest key else (name, value) :: erase rest key

def update (fields updates : Object) : Object :=
  updates.foldl (fun merged entry => merged.set entry.1 entry.2) fields

variable (fields : Object) {key other : String} (value : Json)

@[simp] theorem get?_nil : get? [] key = none := rfl

@[simp] theorem get?_cons {name : String} :
    get? ((name, value) :: fields) key = if name = key then some value else get? fields key := rfl

@[simp] theorem get?_set_self : (fields.set key value).get? key = some value := by
  induction fields with
  | nil => simp [set]
  | cons entry rest ih =>
      obtain ⟨name, old⟩ := entry
      by_cases same : name = key <;> simp [set, same, ih]

theorem get?_set_ne (different : key ≠ other) :
    (fields.set key value).get? other = fields.get? other := by
  induction fields with
  | nil => simp [set, different]
  | cons entry rest ih =>
      obtain ⟨name, old⟩ := entry
      by_cases same : name = key
      · subst same
        simp [set, different]
      · simp [set, same, ih]

theorem get?_set : (fields.set key value).get? other =
    if key = other then some value else fields.get? other := by
  by_cases same : key = other
  · subst same
    simp
  · simp [same, get?_set_ne fields value same]

theorem set_get? (found : fields.get? key = some value) : fields.set key value = fields := by
  induction fields with
  | nil => cases found
  | cons entry rest ih =>
      obtain ⟨name, old⟩ := entry
      by_cases same : name = key
      · simp [same] at found
        simp [set, same, found]
      · simp [same] at found
        simp [set, same, ih found]

@[simp] theorem set_set (later : Json) : (fields.set key value).set key later = fields.set key later := by
  induction fields with
  | nil => simp [set]
  | cons entry rest ih =>
      obtain ⟨name, old⟩ := entry
      by_cases same : name = key <;> simp [set, same, ih]

@[simp] theorem get?_erase_self : (fields.erase key).get? key = none := by
  induction fields with
  | nil => rfl
  | cons entry rest ih =>
      obtain ⟨name, old⟩ := entry
      by_cases same : name = key <;> simp [erase, same, ih]

theorem get?_erase_ne (different : key ≠ other) :
    (fields.erase key).get? other = fields.get? other := by
  induction fields with
  | nil => rfl
  | cons entry rest ih =>
      obtain ⟨name, old⟩ := entry
      by_cases same : name = key
      · subst same
        simp [erase, different, ih]
      · simp [erase, same, ih]

theorem get?_erase : (fields.erase key).get? other =
    if key = other then none else fields.get? other := by
  by_cases same : key = other
  · subst same
    simp
  · simp [same, get?_erase_ne fields same]

theorem get?_eq_none {fields : Object} (absent : key ∉ fields.map Prod.fst) : fields.get? key = none := by
  induction fields with
  | nil => rfl
  | cons entry rest ih =>
      obtain ⟨name, old⟩ := entry
      simp only [List.map_cons, List.mem_cons, not_or] at absent
      rw [get?_cons, if_neg (Ne.symm absent.1), ih absent.2]

theorem mem_of_get? {fields : Object} {found : Json} (lookup : fields.get? key = some found) :
    (key, found) ∈ fields := by
  induction fields with
  | nil => cases lookup
  | cons entry rest ih =>
      obtain ⟨name, old⟩ := entry
      rw [get?_cons] at lookup
      split at lookup
      · rename_i same
        cases lookup
        simp [same]
      · exact List.mem_cons_of_mem _ (ih lookup)

theorem get?_of_mem {fields : Object} (distinct : (fields.map Prod.fst).Nodup) {entry : String × Json}
    (listed : entry ∈ fields) : fields.get? entry.1 = some entry.2 := by
  induction fields with
  | nil => cases listed
  | cons first rest ih =>
      obtain ⟨fresh, distinct⟩ := List.nodup_cons.mp distinct
      cases List.mem_cons.mp listed with
      | inl same =>
          subst same
          rw [get?_cons, if_pos rfl]
      | inr later =>
          have different : first.1 ≠ entry.1 := by
            intro same
            exact fresh (same ▸ List.mem_map_of_mem later)
          rw [get?_cons, if_neg different, ih distinct later]

/-- An update with distinct keys wins over the fields it is made to. -/
theorem get?_update {updates : Object} (distinct : (updates.map Prod.fst).Nodup) (key : String) :
    (fields.update updates).get? key = (updates.get? key).or (fields.get? key) := by
  unfold update
  induction updates generalizing fields with
  | nil => simp
  | cons entry rest ih =>
      obtain ⟨name, updated⟩ := entry
      obtain ⟨fresh, distinct⟩ := List.nodup_cons.mp distinct
      rw [List.foldl_cons, ih (fields.set name updated) distinct, get?_cons, get?_set]
      by_cases same : name = key
      · have absent : get? rest key = none := get?_eq_none (by rw [← same]; exact fresh)
        simp [same, absent]
      · simp [same]

end Object

/-- Insert into a list sorted by key; an entry with the same key is replaced. -/
def insertKey (key : String) (value : Json) : Object → Object
  | [] => [(key, value)]
  | (name, old) :: rest =>
      if name = key then (key, value) :: rest
      else if key < name then (key, value) :: (name, old) :: rest
      else (name, old) :: insertKey key value rest

mutual
def canonical : Json → Json
  | .arr items => .arr (canonicalItems items)
  | .obj fields => .obj (canonicalFields fields)
  | value => value
termination_by structural value => value

def canonicalItems : List Json → List Json
  | [] => []
  | item :: rest => canonical item :: canonicalItems rest
termination_by structural items => items

def canonicalFields : Object → Object
  | [] => []
  | (key, value) :: rest => insertKey key (canonical value) (canonicalFields rest)
termination_by structural fields => fields
end

/-- Equality of documents, whatever order their objects list their keys in. -/
def Same (left right : Json) : Prop := left.canonical = right.canonical

instance (left right : Json) : Decidable (Same left right) :=
  inferInstanceAs (Decidable (_ = _))

theorem Same.refl (value : Json) : Same value value := rfl

theorem Same.symm {left right : Json} (same : Same left right) : Same right left := Eq.symm same

theorem Same.trans {left middle right : Json} (first : Same left middle)
    (second : Same middle right) : Same left right := Eq.trans first second

/-- Truth value of a document in a condition. -/
def truthy : Json → Bool
  | .null => false
  | .bool value => value
  | .int value => value ≠ 0
  | .str value => value ≠ ""
  | .arr items => !items.isEmpty
  | .obj fields => !fields.isEmpty

/-- Whether a document can be a member of a set or a key of a mapping. -/
def hashable : Json → Bool
  | .arr _ => false
  | .obj _ => false
  | _ => true

theorem canonical_hashable {value : Json} (atom : value.hashable = true) : value.canonical = value := by
  cases value with
  | arr items => cases atom
  | obj fields => cases atom
  | _ => rfl

theorem same_hashable {left right : Json} (first : left.hashable = true) (second : right.hashable = true) :
    Same left right ↔ left = right := by
  unfold Same
  rw [canonical_hashable first, canonical_hashable second]

theorem get?_insertKey (fields : Object) (key other : String) (value : Json) :
    Object.get? (insertKey key value fields) other =
      if key = other then some value else Object.get? fields other := by
  induction fields with
  | nil => simp [insertKey]
  | cons entry rest ih =>
      obtain ⟨name, old⟩ := entry
      by_cases same : name = key
      · subst same
        by_cases found : name = other <;> simp [insertKey, found]
      · by_cases before : key < name
        · simp [insertKey, same, before]
        · by_cases found : name = other
          · subst found
            simp [insertKey, same, before, Ne.symm same]
          · simp [insertKey, same, before, found, ih]

theorem get?_canonicalFields (fields : Object) (key : String) :
    Object.get? (canonicalFields fields) key = (Object.get? fields key).map canonical := by
  induction fields with
  | nil => rfl
  | cons entry rest ih =>
      obtain ⟨name, value⟩ := entry
      by_cases found : name = key <;> simp [canonicalFields, get?_insertKey, found, ih]

theorem canonicalItems_eq_map (items : List Json) :
    canonicalItems items = items.map canonical := by
  induction items with
  | nil => rfl
  | cons item rest ih => simp [canonicalItems, ih]

theorem insertKey_ne_nil (key : String) (value : Json) (fields : Object) :
    insertKey key value fields ≠ [] := by
  cases fields with
  | nil => simp [insertKey]
  | cons entry rest =>
      simp only [insertKey]
      split
      · simp
      · split <;> simp

/-- Equal documents give equal answers to a lookup. -/
theorem Same.get? {left right : Object} (same : Same (.obj left) (.obj right)) (key : String) :
    (Object.get? left key).map canonical = (Object.get? right key).map canonical := by
  have fields : canonicalFields left = canonicalFields right := by
    simpa [Same, canonical] using same
  rw [← get?_canonicalFields, ← get?_canonicalFields, fields]

/-- Truth values do not depend on the order of keys either. -/
theorem truthy_canonical (value : Json) : value.canonical.truthy = value.truthy := by
  cases value with
  | arr items => cases items <;> rfl
  | obj fields =>
      cases fields with
      | nil => rfl
      | cons entry rest =>
          simp [canonical, canonicalFields, truthy, insertKey_ne_nil]
  | _ => rfl

@[simp] theorem same_str {value : Json} {text : String} : Same value (.str text) ↔ value = .str text := by
  cases value <;> simp [Same, canonical]

@[simp] theorem str_same {value : Json} {text : String} : Same (.str text) value ↔ value = .str text := by
  rw [← same_str]
  exact ⟨Same.symm, Same.symm⟩

/-- A text member of an equal mapping is the same text. -/
theorem Same.get?_str {left right : Object} {key text : String} (same : Same (.obj left) (.obj right))
    (found : Object.get? right key = some (.str text)) : Object.get? left key = some (.str text) := by
  have equal := same.get? key
  rw [found] at equal
  obtain ⟨value, present, canonical⟩ := Option.map_eq_some_iff.mp equal
  rw [present, same_str.mp canonical]

theorem Same.obj {value : Json} {fields : Object} (same : Same value (.obj fields)) :
    ∃ others, value = .obj others := by
  cases value <;> simp [Same, canonical] at same ⊢

@[simp] theorem same_null {value : Json} : Same value .null ↔ value = .null := by
  cases value <;> simp [Same, canonical]

/-! ## Equality by lookups -/

theorem insertKey_sorted (key : String) (value : Json) {fields : Object}
    (sorted : fields.Pairwise fun left right => left.1 < right.1) :
    (insertKey key value fields).Pairwise fun left right => left.1 < right.1 := by
  have keys : ∀ {fields : Object} {entry : String × Json}, entry ∈ insertKey key value fields →
      entry = (key, value) ∨ entry ∈ fields := by
    intro fields entry listed
    induction fields with
    | nil => simpa [insertKey] using listed
    | cons first rest ih =>
        obtain ⟨name, old⟩ := first
        by_cases same : name = key
        · rw [insertKey, if_pos same] at listed
          cases List.mem_cons.mp listed with
          | inl new => exact .inl new
          | inr later => exact .inr (by simp [later])
        · by_cases before : key < name
          · rw [insertKey, if_neg same, if_pos before] at listed
            exact List.mem_cons.mp listed
          · rw [insertKey, if_neg same, if_neg before] at listed
            cases List.mem_cons.mp listed with
            | inl first => exact .inr (by simp [first])
            | inr later =>
                cases ih later with
                | inl new => exact .inl new
                | inr old => exact .inr (by simp [old])
  induction fields with
  | nil => simp [insertKey]
  | cons first rest ih =>
      obtain ⟨name, old⟩ := first
      obtain ⟨lower, later⟩ := List.pairwise_cons.mp sorted
      by_cases same : name = key
      · rw [insertKey, if_pos same, List.pairwise_cons]
        subst same
        exact ⟨lower, later⟩
      · by_cases before : key < name
        · rw [insertKey, if_neg same, if_pos before, List.pairwise_cons]
          refine ⟨fun entry listed => ?_, sorted⟩
          cases List.mem_cons.mp listed with
          | inl first =>
              rw [first]
              exact before
          | inr inside => exact String.lt_trans before (lower entry inside)
        · rw [insertKey, if_neg same, if_neg before, List.pairwise_cons]
          refine ⟨fun entry listed => ?_, ih later⟩
          cases keys listed with
          | inl new =>
              rw [new]
              exact Std.lt_of_le_of_ne (String.not_lt.mp before) same
          | inr inside => exact lower entry inside

theorem canonicalFields_sorted (fields : Object) :
    (canonicalFields fields).Pairwise fun left right => left.1 < right.1 := by
  induction fields with
  | nil => exact .nil
  | cons entry rest ih => exact insertKey_sorted _ _ ih

theorem canonicalFields_distinct (fields : Object) : ((canonicalFields fields).map Prod.fst).Nodup :=
  List.pairwise_map.mpr ((canonicalFields_sorted fields).imp fun before => ne_of_lt before)

/-- Objects are equal when all lookups give equal answers. -/
theorem same_obj_iff {left right : Object} : Same (.obj left) (.obj right) ↔
    ∀ key, (Object.get? left key).map canonical = (Object.get? right key).map canonical := by
  constructor
  · exact Same.get?
  · intro lookups
    have moves {first second : Object}
        (lookups : ∀ key, (Object.get? first key).map canonical = (Object.get? second key).map canonical)
        {entry : String × Json} (listed : entry ∈ canonicalFields first) : entry ∈ canonicalFields second := by
      have found := Object.get?_of_mem (canonicalFields_distinct first) listed
      rw [get?_canonicalFields, lookups, ← get?_canonicalFields] at found
      exact Object.mem_of_get? found
    have perm : (canonicalFields left).Perm (canonicalFields right) := by
      apply (List.perm_ext_iff_of_nodup (List.Nodup.of_map _ (canonicalFields_distinct left))
        (List.Nodup.of_map _ (canonicalFields_distinct right))).mpr
      intro entry
      exact ⟨moves lookups, moves fun key => (lookups key).symm⟩
    have equal : canonicalFields left = canonicalFields right :=
      perm.eq_of_pairwise (fun _ _ _ _ before after => absurd before (lt_asymm after))
        (canonicalFields_sorted left) (canonicalFields_sorted right)
    rw [Same, canonical, canonical, equal]

mutual
theorem canonical_canonical : ∀ value : Json, value.canonical.canonical = value.canonical
  | .null | .bool _ | .int _ | .str _ => rfl
  | .arr items => congrArg Json.arr (canonicalItems_canonicalItems items)
  | .obj fields => by
      apply same_obj_iff.mpr
      intro key
      rw [get?_canonicalFields, Option.map_map]
      cases found : Object.get? fields key with
      | none => rfl
      | some value => exact congrArg some (canonical_canonical_of_mem fields _ (Object.mem_of_get? found))

theorem canonicalItems_canonicalItems : ∀ items : List Json,
    canonicalItems (canonicalItems items) = canonicalItems items
  | [] => rfl
  | item :: rest => by
      rw [canonicalItems, canonicalItems, canonical_canonical item, canonicalItems_canonicalItems rest]

theorem canonical_canonical_of_mem : ∀ fields : Object, ∀ entry ∈ fields,
    entry.2.canonical.canonical = entry.2.canonical
  | [], _, listed => nomatch listed
  | (key, value) :: rest, entry, listed => by
      cases List.mem_cons.mp listed with
      | inl same =>
          rw [same]
          exact canonical_canonical value
      | inr later => exact canonical_canonical_of_mem rest entry later
end

theorem same_canonical (value : Json) : Same value.canonical value := canonical_canonical value

theorem same_arr_iff {left right : List Json} : Same (.arr left) (.arr right) ↔ List.Forall₂ Same left right := by
  unfold Same
  rw [canonical, canonical, canonicalItems_eq_map, canonicalItems_eq_map, Json.arr.injEq, ← List.forall₂_eq_eq_eq,
    List.forall₂_map_left_iff, List.forall₂_map_right_iff]

/-- A member of a canonical document may be replaced by an equal one. -/
theorem same_set {fields : Object} {key : String} {found replaced : Json} (lookup : fields.get? key = some found)
    (same : Same replaced found) : Same (.obj ((canonicalFields fields).set key replaced)) (.obj fields) := by
  apply same_obj_iff.mpr
  intro other
  rw [Object.get?_set]
  split
  · rename_i isKey
    subst isKey
    rw [lookup]
    exact congrArg some same
  · rw [get?_canonicalFields, Option.map_map]
    cases fields.get? other with
    | none => rfl
    | some value => exact congrArg some (canonical_canonical value)

/-! ## Distinct keys -/

mutual
/-- No object has a key twice, as in a decoded document. -/
def Distinct : Json → Prop
  | .arr items => DistinctItems items
  | .obj fields => (fields.map Prod.fst).Nodup ∧ DistinctFields fields
  | _ => True
termination_by structural value => value

def DistinctItems : List Json → Prop
  | [] => True
  | item :: rest => Distinct item ∧ DistinctItems rest
termination_by structural items => items

def DistinctFields : Object → Prop
  | [] => True
  | (_, value) :: rest => Distinct value ∧ DistinctFields rest
termination_by structural fields => fields
end

theorem distinctFields_iff {fields : Object} :
    DistinctFields fields ↔ ∀ entry ∈ fields, Distinct entry.2 := by
  induction fields with
  | nil => simp [DistinctFields]
  | cons entry rest ih => simp [DistinctFields, ih]

theorem distinctFields_insertKey {key : String} {value : Json} {fields : Object} (distinct : Distinct value)
    (others : DistinctFields fields) : DistinctFields (insertKey key value fields) := by
  induction fields with
  | nil => exact ⟨distinct, trivial⟩
  | cons entry rest ih =>
      obtain ⟨name, old⟩ := entry
      obtain ⟨first, later⟩ := others
      unfold insertKey
      split
      · exact ⟨distinct, later⟩
      · split
        · exact ⟨distinct, first, later⟩
        · exact ⟨first, ih later⟩

mutual
theorem canonical_distinct : ∀ value : Json, Distinct value.canonical
  | .null | .bool _ | .int _ | .str _ => trivial
  | .arr items => canonicalItems_distinct items
  | .obj fields => ⟨canonicalFields_distinct fields, canonicalFields_distinctFields fields⟩

theorem canonicalItems_distinct : ∀ items : List Json, DistinctItems (canonicalItems items)
  | [] => trivial
  | item :: rest => ⟨canonical_distinct item, canonicalItems_distinct rest⟩

theorem canonicalFields_distinctFields : ∀ fields : Object, DistinctFields (canonicalFields fields)
  | [] => trivial
  | (_, value) :: rest =>
      distinctFields_insertKey (canonical_distinct value) (canonicalFields_distinctFields rest)
end

end Json
