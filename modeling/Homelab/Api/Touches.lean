import Homelab.Api.History

namespace Homelab.Api

open Json (Object)
open Interaction (Execution Moment Program worldAfter)

/-! # What one moment does to one object -/

/-- The ways a stored object can change by a request of a program. -/
inductive Touched (before : Store) (moment : Moment interface Store) (old new : Resource) : Prop
  | same (equal : new = old)
  | patched {actor : Nat} {resource : Resource} {status : Object} {reply : Except Exn Resource}
      (acted : moment.happening = .act actor ⟨.patchStatus resource status, reply⟩)
      (kind : resource.kind = old.kind) (uid : resource.uid = old.uid)
      (version : resource.metadata.resourceVersion = old.metadata.resourceVersion)
      (merged : new = Api.patched before old status)
  | released {actor : Nat} {resource operation : Resource} {status : Object} {reply : Except Exn Resource}
      (acted : moment.happening = .act actor ⟨.patchStatus resource status, reply⟩)
      (closed : operation ∈ moment.after.objects) (kind : operation.kind = .operation)
      (terminal : terminalPhase operation.status = true) (target : old.kind ≠ .operation)
      (held : old.status.get? "operationRef" = some operation.reference)
      (erased : new.status = old.status.erase "operationRef")
  | claimed {actor : Nat} {name : String} {spec : Object} {operation : Resource}
      {reply : Except Exn Resource}
      (acted : moment.happening = .act actor ⟨.create .operation name spec, reply⟩)
      (target : old.kind ≠ .operation) (free : holds old.status "operationRef" = false)
      (owned : new.status = old.status.set "operationRef" operation.reference)

theorem mem_release {store : Store} {operation object : Resource}
    (member : object ∈ (release store operation).objects) :
    object ∈ store.objects ∨
      operation.kind = .operation ∧ terminalPhase operation.status = true ∧
        ∃ target ∈ store.objects, target.kind ≠ .operation ∧
          target.status.get? "operationRef" = some operation.reference ∧
          Resource.schema.key object = Resource.schema.key target ∧ object.uid = target.uid ∧
          object.status = target.status.erase "operationRef" := by
  unfold release at member
  split at member
  · rename_i terminal
    split at member
    · rename_i target found
      split at member
      · rename_i held
        obtain ⟨_, _, lookup, different⟩ := target?_eq_some found
        rcases Versioned.Store.mem_put.mp member with ⟨_, _, _, rfl⟩ | ⟨present, _⟩
        · exact .inr ⟨terminal.1, terminal.2, target, (Versioned.Store.mem_of_find? lookup).1, different,
            held, rfl, rfl, rfl⟩
        · exact .inl present
      · exact .inl member
    · exact .inl member
  · exact .inl member

theorem patched_operation {store : Store} {current : Resource} {status : Object}
    (member : current ∈ store.objects) (kind : current.kind = .operation) :
    patched store current status ∈
      (release (store.put Resource.schema (patched store current status))
        (patched store current status)).objects := by
  refine release_other ?_ (.inl kind)
  exact Versioned.Store.mem_put.mpr (.inl ⟨current, member, rfl, rfl⟩)

variable {α : Type} {outside : Store → Store → Prop} {starts : Program interface α → Prop}
  {initial before world : Store} {history : List (Moment interface Store)}
  {moment : Moment interface Store} {programs running : List (Program interface α)}

/-- What an applied patch does to an object that stays stored. -/
theorem touched_patch {old new resource updated : Resource} {status : Object} {actor : Nat}
    {reply : Except Exn Resource} {after : Store} (formed : before.WellFormed Resource.schema)
    (acted : moment.happening = .act actor ⟨.patchStatus resource status, reply⟩)
    (left : moment.after = after) (written : patch before resource status = some (updated, after))
    (stored : old ∈ before.objects) (present : new ∈ after.objects) (uid : old.uid = new.uid) :
    Touched before moment old new := by
  obtain ⟨current, found, rfl, rfl⟩ := patch_eq_some written
  obtain ⟨member, key, sameUid, version⟩ := Versioned.Store.mem_of_current? found
  rcases mem_release present with kept | ⟨kind, terminal, target, stays, different, held, keys, uids, erased⟩
  · rcases Versioned.Store.mem_put.mp kept with ⟨_, _, _, rfl⟩ | ⟨kept, _⟩
    · obtain rfl := formed.identical stored member uid
      exact .patched acted (congrArg Prod.fst key).symm sameUid.symm version.symm rfl
    · obtain rfl := formed.identical stored kept uid
      exact .same rfl
  · have closed : patched before current status ∈ moment.after.objects := by
      rw [left]
      exact patched_operation member kind
    rcases Versioned.Store.mem_put.mp stays with ⟨_, _, _, rfl⟩ | ⟨stays, _⟩
    · exact absurd kind different
    · obtain rfl := formed.identical stored stays (uid.trans uids)
      exact .released acted closed kind terminal different held erased

theorem touched_creation {old new result : Resource} {kind : Kind} {name identity : String} {spec : Object}
    {actor : Nat} {reply : Except Exn Resource} {after : Store}
    (formed : before.WellFormed Resource.schema)
    (acted : moment.happening = .act actor ⟨.create kind name spec, reply⟩)
    (written : creation before kind name identity spec = some (result, after))
    (stored : old ∈ before.objects) (present : new ∈ after.objects) (uid : old.uid = new.uid) :
    Touched before moment old new := by
  obtain ⟨_, fresh, _, _, _, rfl, _, _, outcome⟩ := creation_eq_some written
  have grown : ∀ object, object ∈ before.objects ++ [result] → old.uid = object.uid → object = old := by
    intro object member same
    rcases List.mem_append.mp member with member | last
    · exact formed.identical member stored same.symm
    · rw [List.mem_singleton.mp last] at same
      exact absurd (same ▸ formed.issued old stored) fresh
  rcases outcome with ⟨_, rfl⟩ | ⟨rfl, _, target, found, free, rfl⟩
  · exact .same (grown new present uid)
  · obtain ⟨_, _, lookup, different⟩ := target?_eq_some found
    rcases Versioned.Store.mem_put.mp present with ⟨_, _, _, rfl⟩ | ⟨kept, _⟩
    · obtain rfl := formed.identical stored (Versioned.Store.mem_of_find? lookup).1 uid
      exact .claimed acted different free rfl
    · exact .same (grown new kept uid)

/-- One moment touches an object that stays stored, unless somebody else acts. -/
theorem Execution.touched
    (execution : Execution (surroundings outside) starts initial (history ++ [moment]) world running)
    (past : Execution (surroundings outside) starts initial history before programs)
    (orderly : Orderly outside) (start : initial.WellFormed Resource.schema) {old new : Resource}
    (stored : old ∈ before.objects) (present : new ∈ world.objects) (uid : old.uid = new.uid) :
    Touched before moment old new ∨ outside before world := by
  obtain ⟨prior, _, earlier, left, step⟩ := Interaction.Execution.last_cases execution
  obtain rfl := Interaction.Execution.world_unique past earlier
  have formed := Execution.formed past orderly start
  rcases step with ⟨actor, request, _, reply, acted, _, served, _⟩ | ⟨_, changed, _⟩ | ⟨_, rfl, _⟩
  · cases served with
    | applied written => exact .inl (touched_patch formed acted left written stored present uid)
    | lost written => exact .inl (touched_patch formed acted left written stored present uid)
    | created written => exact .inl (touched_creation formed acted written stored present uid)
    | createdLost written => exact .inl (touched_creation formed acted written stored present uid)
    | _ => exact .inl (.same (formed.identical present stored uid.symm))
  · exact .inr changed
  · exact .inl (.same (formed.identical present stored uid.symm))

theorem put_kept {store : Store} (formed : store.WellFormed Resource.schema) {object updated old : Resource}
    (member : object ∈ store.objects) (key : Resource.schema.key updated = Resource.schema.key object)
    (uid : updated.uid = object.uid) (stored : old ∈ store.objects) :
    ∃ new ∈ (store.put Resource.schema updated).objects, old.uid = new.uid ∧ new.kind = old.kind := by
  by_cases same : Resource.schema.key old = Resource.schema.key updated
  · obtain rfl := formed.unique stored member (same.trans key)
    exact ⟨updated, Versioned.Store.mem_put.mpr (.inl ⟨old, stored, same, rfl⟩), uid.symm,
      congrArg Prod.fst key⟩
  · exact ⟨old, Versioned.Store.mem_put.mpr (.inr ⟨stored, same⟩), rfl, rfl⟩

theorem patch_kept {before after : Store} (formed : before.WellFormed Resource.schema)
    {resource updated old : Resource} {status : Object}
    (written : patch before resource status = some (updated, after)) (stored : old ∈ before.objects)
    (kind : old.kind = .operation) : ∃ new ∈ after.objects, old.uid = new.uid := by
  obtain ⟨current, found, rfl, rfl⟩ := patch_eq_some written
  obtain ⟨member, _⟩ := Versioned.Store.mem_of_current? found
  have kept := @put_kept before formed current (patched before current status) old member rfl rfl stored
  obtain ⟨new, present, uid, sameKind⟩ := kept
  exact ⟨new, release_other present (.inl (sameKind.trans kind)), uid⟩

theorem creation_kept {before after : Store} {kind : Kind} {name uid : String} {spec : Object}
    {result old : Resource} (written : creation before kind name uid spec = some (result, after))
    (stored : old ∈ before.objects) (operation : old.kind = .operation) :
    ∃ new ∈ after.objects, old.uid = new.uid := by
  obtain ⟨_, _, _, _, _, _, _, _, outcome⟩ := creation_eq_some written
  rcases outcome with ⟨_, rfl⟩ | ⟨_, _, target, found, _, rfl⟩
  · exact ⟨old, List.mem_append_left _ stored, rfl⟩
  · obtain ⟨_, _, _, different⟩ := target?_eq_some found
    refine ⟨old, Versioned.Store.mem_put.mpr (.inr ⟨List.mem_append_left _ stored, fun same => ?_⟩), rfl⟩
    exact different ((congrArg Prod.fst same).symm.trans operation)

/-- No request removes an Operation. -/
theorem Serve.kept {before after : Store} {request : Request} {reply : interface.Reply request}
    (served : Serve before request reply after) (formed : before.WellFormed Resource.schema)
    {old : Resource} (stored : old ∈ before.objects) (kind : old.kind = .operation) :
    ∃ new ∈ after.objects, old.uid = new.uid := by
  cases served with
  | applied written => exact patch_kept formed written stored kind
  | lost written => exact patch_kept formed written stored kind
  | created written => exact creation_kept written stored kind
  | createdLost written => exact creation_kept written stored kind
  | _ => exact ⟨old, stored, rfl⟩

end Homelab.Api
