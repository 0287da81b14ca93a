import Mathlib.Data.List.Nodup

namespace Versioned

/-! # Compare-and-set storage

Objects are addressed by a key, live under an identity that is never issued
twice and carry a version that every write renews.  A conditional write names
the identity and version it was computed from.
-/

structure Schema (Object Key : Type) where
  key : Object → Key
  uid : Object → String
  version : Object → Nat

structure Store (Object : Type) where
  objects : List Object
  revision : Nat
  issued : List String

variable {Object Key : Type} (schema : Schema Object Key)

namespace Store

structure WellFormed (store : Store Object) : Prop where
  keys : (store.objects.map schema.key).Nodup
  identities : (store.objects.map schema.uid).Nodup
  versions : ∀ object ∈ store.objects, schema.version object ≤ store.revision
  issued : ∀ object ∈ store.objects, schema.uid object ∈ store.issued
  named : "" ∉ store.issued

theorem WellFormed.unique {schema : Schema Object Key} {store : Store Object}
    (formed : store.WellFormed schema) {object other : Object}
    (member : object ∈ store.objects) (present : other ∈ store.objects)
    (same : schema.key object = schema.key other) : object = other :=
  List.inj_on_of_nodup_map formed.keys member present same

theorem WellFormed.identical {schema : Schema Object Key} {store : Store Object}
    (formed : store.WellFormed schema) {object other : Object}
    (member : object ∈ store.objects) (present : other ∈ store.objects)
    (same : schema.uid object = schema.uid other) : object = other :=
  List.inj_on_of_nodup_map formed.identities member present same

variable [DecidableEq Key]

def find? (store : Store Object) (key : Key) : Option Object :=
  store.objects.find? (fun object => decide (schema.key object = key))

/-- The stored object, provided it still has the identity and version of `expected`. -/
def current? (store : Store Object) (expected : Object) : Option Object :=
  (store.find? schema (schema.key expected)).filter fun object =>
    decide (schema.uid object = schema.uid expected) &&
      decide (schema.version object = schema.version expected)

/-- Replace the object that has the key of `updated`. -/
def put (store : Store Object) (updated : Object) : Store Object where
  objects := store.objects.map fun object =>
    if schema.key object = schema.key updated then updated else object
  revision := store.revision + 1
  issued := store.issued

variable {schema} {store : Store Object} {object expected updated : Object} {key : Key}

theorem mem_of_find? (found : store.find? schema key = some object) :
    object ∈ store.objects ∧ schema.key object = key :=
  ⟨List.mem_of_find?_eq_some found, by simpa using List.find?_some found⟩

theorem WellFormed.find? (formed : store.WellFormed schema) (member : object ∈ store.objects) :
    store.find? schema (schema.key object) = some object := by
  cases found : store.find? schema (schema.key object) with
  | none => simpa using List.find?_eq_none.mp found object member
  | some other =>
      obtain ⟨present, same⟩ := mem_of_find? found
      rw [formed.unique present member same]

theorem mem_of_current? (found : store.current? schema expected = some object) :
    object ∈ store.objects ∧ schema.key object = schema.key expected ∧
      schema.uid object = schema.uid expected ∧ schema.version object = schema.version expected := by
  obtain ⟨lookup, same⟩ := Option.filter_eq_some_iff.mp found
  obtain ⟨member, key⟩ := mem_of_find? lookup
  simp only [Bool.and_eq_true, decide_eq_true_eq] at same
  exact ⟨member, key, same.1, same.2⟩

theorem current?_of_find? (found : store.find? schema (schema.key object) = some object) :
    store.current? schema object = some object := by
  simp [current?, found]

theorem mem_put : object ∈ (store.put schema updated).objects ↔
    (∃ old ∈ store.objects, schema.key old = schema.key updated ∧ object = updated) ∨
      object ∈ store.objects ∧ schema.key object ≠ schema.key updated := by
  simp only [put, List.mem_map]
  constructor
  · rintro ⟨old, member, written⟩
    by_cases same : schema.key old = schema.key updated
    · exact .inl ⟨old, member, same, by simpa [same] using written.symm⟩
    · rw [if_neg same] at written
      subst written
      exact .inr ⟨member, same⟩
  · rintro (⟨old, member, same, rfl⟩ | ⟨member, different⟩)
    · exact ⟨old, member, by simp [same]⟩
    · exact ⟨object, member, by simp [different]⟩

theorem keys_put : (store.put schema updated).objects.map schema.key = store.objects.map schema.key := by
  simp only [put, List.map_map]
  refine List.map_congr_left fun object _ => ?_
  by_cases same : schema.key object = schema.key updated <;> simp [same]

theorem WellFormed.put (formed : store.WellFormed schema)
    (found : store.current? schema expected = some object)
    (key : schema.key updated = schema.key expected) (uid : schema.uid updated = schema.uid expected)
    (fresh : schema.version updated = store.revision + 1) :
    (store.put schema updated).WellFormed schema := by
  obtain ⟨present, sameKey, sameUid, _⟩ := mem_of_current? found
  refine ⟨by rw [keys_put]; exact formed.keys, ?_, fun other member => ?_, fun other member => ?_,
    formed.named⟩
  · have uids : (store.put schema updated).objects.map schema.uid = store.objects.map schema.uid := by
      simp only [Store.put, List.map_map]
      refine List.map_congr_left fun other member => ?_
      by_cases same : schema.key other = schema.key updated
      · have equal := formed.unique member present (same.trans (key.trans sameKey.symm))
        rw [Function.comp_apply, if_pos same, uid, equal, sameUid]
      · simp [same]
    rw [uids]
    exact formed.identities
  · rcases mem_put.mp member with ⟨_, _, _, rfl⟩ | ⟨present, _⟩
    · exact Nat.le_of_eq fresh
    · exact Nat.le_succ_of_le (formed.versions other present)
  · rcases mem_put.mp member with ⟨_, _, _, rfl⟩ | ⟨present, _⟩
    · have known := formed.issued object present
      rwa [sameUid, ← uid] at known
    · exact formed.issued other present

end Store

/-- `store` agrees with an object read earlier: the object of that identity and
version, if it is still stored, is exactly what was read. -/
structure Agrees (store : Store Object) (seen : Object) : Prop where
  version : schema.version seen ≤ store.revision
  content : ∀ object ∈ store.objects, schema.key object = schema.key seen →
    schema.uid object = schema.uid seen → schema.version object = schema.version seen → object = seen

/-- Any change of storage renews the version of what it changes, and an
identity that was issued once comes back only as the same object. -/
structure Advances (before after : Store Object) : Prop where
  revision : before.revision ≤ after.revision
  issued : before.issued ⊆ after.issued
  objects : ∀ object ∈ after.objects,
    object ∈ before.objects ∨ before.revision < schema.version object
  identities : ∀ object ∈ after.objects, schema.uid object ∈ before.issued →
    ∃ old ∈ before.objects, schema.key old = schema.key object ∧ schema.uid old = schema.uid object

variable {schema} {store : Store Object} {object expected seen updated : Object}

theorem agrees_of_mem (formed : store.WellFormed schema) (member : object ∈ store.objects) :
    Agrees schema store object :=
  ⟨formed.versions object member, fun _ present same _ _ => formed.unique present member same⟩

theorem Agrees.advance {before after : Store Object} (agrees : Agrees schema before seen)
    (advances : Advances schema before after) : Agrees schema after seen := by
  refine ⟨Nat.le_trans agrees.version advances.revision, fun object member key uid version => ?_⟩
  rcases advances.objects object member with present | fresh
  · exact agrees.content object present key uid version
  · have seenVersion := agrees.version
    omega

theorem Advances.refl (store : Store Object) : Advances schema store store :=
  ⟨Nat.le_refl _, fun _ => id, fun _ member => .inl member, fun object member _ =>
    ⟨object, member, rfl, rfl⟩⟩

theorem Advances.trans {first second third : Store Object} (left : Advances schema first second)
    (right : Advances schema second third) : Advances schema first third := by
  refine ⟨Nat.le_trans left.revision right.revision, fun _ known => right.issued (left.issued known),
    fun object member => ?_, fun object member known => ?_⟩
  · rcases right.objects object member with present | fresh
    · exact left.objects object present
    · exact .inr (Nat.lt_of_le_of_lt left.revision fresh)
  · obtain ⟨middle, present, sameKey, sameUid⟩ := right.identities object member (left.issued known)
    obtain ⟨old, stored, key, uid⟩ := left.identities middle present (sameUid ▸ known)
    exact ⟨old, stored, key.trans sameKey, uid.trans sameUid⟩

variable [DecidableEq Key]

theorem advances_put (found : store.current? schema expected = some object)
    (key : schema.key updated = schema.key expected) (uid : schema.uid updated = schema.uid expected)
    (fresh : schema.version updated = store.revision + 1) :
    Advances schema store (store.put schema updated) := by
  refine ⟨Nat.le_succ _, fun _ => id, fun other member => ?_, fun other member _ => ?_⟩
  · rcases Store.mem_put.mp member with ⟨_, _, _, rfl⟩ | ⟨present, _⟩
    · exact .inr (by omega)
    · exact .inl present
  · rcases Store.mem_put.mp member with ⟨_, _, _, rfl⟩ | ⟨present, _⟩
    · obtain ⟨present, sameKey, sameUid, _⟩ := Store.mem_of_current? found
      exact ⟨object, present, by rw [sameKey, key], by rw [sameUid, uid]⟩
    · exact ⟨other, present, rfl, rfl⟩

/-- A conditional write succeeds only on the very object it was computed from. -/
theorem Agrees.current (agrees : Agrees schema store expected)
    (found : store.current? schema expected = some object) : object = expected := by
  obtain ⟨member, key, uid, version⟩ := Store.mem_of_current? found
  exact agrees.content object member key uid version

end Versioned
