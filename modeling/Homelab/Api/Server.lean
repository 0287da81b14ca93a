import Homelab.Api.Resource
import Homelab.Interaction.System

namespace Homelab.Api

open Json (Object)

/-! # The API the operators talk to

A status patch is conditional on the identity and version of the resource it
was computed from.  An Operation owns its target: creating one sets the
target's `operationRef` unless it is set already, and reporting the Operation
as Succeeded or Failed clears the `operationRef` that names it.
-/

/-- A status patch that succeeds, before any effect on another resource. -/
def patched (store : Store) (current : Resource) (status : Object) : Resource :=
  { current with
    metadata := { current.metadata with resourceVersion := store.revision + 1 }
    status := Json.mergeFields current.status status }

def terminalPhase (status : Object) : Bool :=
  decide (status.get? "phase" = some (.str "Succeeded")) ||
    decide (status.get? "phase" = some (.str "Failed"))

/-- The key an Operation's `targetRef` names; an Operation does not own another. -/
def targetKey? (spec : Object) : Option (Kind × String) := do
  let reference ← (member spec "targetRef").toOption
  match reference.get? "kind", reference.get? "name" with
  | some (.str kind), some (.str name) =>
      ((Kind.ofText? kind).filter (· ≠ .operation)).map fun kind => (kind, name)
  | _, _ => none

/-- The resource an Operation's `targetRef` names. -/
def target? (store : Store) (spec : Object) : Option Resource := do
  store.find? Resource.schema (← targetKey? spec)

/-- Completing an Operation releases the target that names it as its owner. -/
def release (store : Store) (operation : Resource) : Store :=
  if operation.kind = .operation ∧ terminalPhase operation.status then
    match target? store operation.spec with
    | some target =>
        if target.status.get? "operationRef" = some operation.reference then
          store.put Resource.schema { target with
            metadata := { target.metadata with resourceVersion := store.revision + 1 }
            status := target.status.erase "operationRef" }
        else store
    | none => store
  else store

/-- The resource and the store after a status patch, unless it is refused. -/
def patch (store : Store) (resource : Resource) (status : Object) : Option (Resource × Store) := do
  let current ← store.current? Resource.schema resource
  let updated := patched store current status
  return (updated, release (store.put Resource.schema updated) updated)

/-- The resource and the store after a creation under a fresh identity, unless
the name is taken or the target of an Operation has an owner. -/
def creation (store : Store) (kind : Kind) (name uid : String) (spec : Object) :
    Option (Resource × Store) :=
  if uid = "" ∨ uid ∈ store.issued ∨ (store.find? Resource.schema (kind, name)).isSome then none
  else
    let created : Resource :=
      { kind, metadata := { name, uid, resourceVersion := store.revision + 1 }, spec,
        status := if kind = .operation then [("phase", .str "Running")] else [] }
    let stored : Store :=
      { objects := store.objects ++ [created], revision := store.revision + 1,
        issued := uid :: store.issued }
    if kind = .operation then
      match target? store spec with
      | some target =>
          if holds target.status "operationRef" then none
          else
            some (created, stored.put Resource.schema { target with
              metadata := { target.metadata with resourceVersion := stored.revision + 1 }
              status := target.status.set "operationRef" created.reference })
      | none => none
    else some (created, stored)

/-- The ways the API and the host may answer.  Any call can fail without
effect, and a write can be applied although its response is lost; only a
refused write reports a conflict. -/
inductive Serve : Store → (request : Request) → interface.Reply request → Store → Prop
  | found {store : Store} {kind : Kind} {name : String} {resource : Resource}
      (present : store.find? Resource.schema (kind, name) = some resource) :
      Serve store (.get kind name) (.ok resource) store
  | listed {store : Store} {kind : Kind} :
      Serve store (.list kind) (.ok (store.objects.filter (fun resource => resource.kind = kind))) store
  | applied {store after : Store} {resource updated : Resource} {status : Object}
      (written : patch store resource status = some (updated, after)) :
      Serve store (.patchStatus resource status) (.ok updated) after
  | lost {store after : Store} {resource updated : Resource} {status : Object} {failure : Exn}
      (written : patch store resource status = some (updated, after)) (silent : failure ≠ .http 409) :
      Serve store (.patchStatus resource status) (.error failure) after
  | created {store after : Store} {kind : Kind} {name uid : String} {spec : Object} {result : Resource}
      (written : creation store kind name uid spec = some (result, after)) :
      Serve store (.create kind name spec) (.ok result) after
  | createdLost {store after : Store} {kind : Kind} {name uid : String} {spec : Object}
      {result : Resource} {failure : Exn}
      (written : creation store kind name uid spec = some (result, after)) (silent : failure ≠ .http 409) :
      Serve store (.create kind name spec) (.error failure) after
  | failed {store : Store} {request : Request} {failure : Exn} :
      Serve store request (.error failure) store
  | performed {store : Store} {call : Host} {result : call.Value} :
      Serve store (.host call) (.ok result) store

theorem Serve.found_eq {store after : Store} {kind : Kind} {name : String} {resource : Resource}
    (served : Serve store (.get kind name) (.ok resource) after) :
    store.find? Resource.schema (kind, name) = some resource ∧ after = store := by
  cases served
  exact ⟨‹_›, rfl⟩

theorem Serve.listed_eq {store after : Store} {kind : Kind} {resources : List Resource}
    (served : Serve store (.list kind) (.ok resources) after) :
    resources = store.objects.filter (fun resource => resource.kind = kind) ∧ after = store := by
  cases served
  exact ⟨rfl, rfl⟩

/-- What a client may rely on in a reply. -/
def Honest : (request : Request) → interface.Reply request → Prop
  | .get kind name, .ok (resource : Resource) => resource.kind = kind ∧ resource.name = name
  | .list kind, .ok (resources : List Resource) =>
      ∀ resource : Resource, resource ∈ resources → resource.kind = kind
  | .patchStatus resource status, .ok (updated : Resource) =>
      updated.kind = resource.kind ∧ updated.name = resource.name ∧ updated.uid = resource.uid ∧
        ∃ before, updated.status = Json.mergeFields before status
  | _, _ => True

theorem patch_eq_some {store after : Store} {resource updated : Resource} {status : Object}
    (written : patch store resource status = some (updated, after)) :
    ∃ current, store.current? Resource.schema resource = some current ∧
      updated = patched store current status ∧
      after = release (store.put Resource.schema updated) updated := by
  unfold patch at written
  cases found : store.current? Resource.schema resource with
  | none => simp [found] at written
  | some current =>
      simp only [found, Option.bind_eq_bind, Option.bind_some, Option.pure_def, Option.some.injEq,
        Prod.mk.injEq] at written
      obtain ⟨rfl, rfl⟩ := written
      exact ⟨current, rfl, rfl, rfl⟩

theorem Serve.honest {before after : Store} {request : Request} {reply : interface.Reply request}
    (served : Serve before request reply after) : Honest request reply := by
  cases served with
  | found present =>
      obtain ⟨_, key⟩ := Versioned.Store.mem_of_find? present
      exact ⟨congrArg Prod.fst key, congrArg Prod.snd key⟩
  | listed =>
      intro resource member
      simpa using (List.mem_filter.mp member).2
  | applied written =>
      obtain ⟨current, found, rfl, _⟩ := patch_eq_some written
      obtain ⟨_, key, uid, _⟩ := Versioned.Store.mem_of_current? found
      exact ⟨congrArg Prod.fst key, congrArg Prod.snd key, uid, _, rfl⟩
  | created => exact True.intro
  | lost => exact True.intro
  | createdLost => exact True.intro
  | failed => cases request <;> exact True.intro
  | performed => exact True.intro

/-- A write the API makes on its own, to an object it has just looked up. -/
theorem put_found {store : Store} (formed : store.WellFormed Resource.schema) {key : Kind × String}
    {object updated : Resource} (found : store.find? Resource.schema key = some object)
    (sameKey : Resource.schema.key updated = Resource.schema.key object)
    (sameUid : updated.uid = object.uid)
    (fresh : updated.metadata.resourceVersion = store.revision + 1) :
    Versioned.Advances Resource.schema store (store.put Resource.schema updated) ∧
      (store.put Resource.schema updated).WellFormed Resource.schema := by
  obtain ⟨member, _⟩ := Versioned.Store.mem_of_find? found
  have current := Versioned.Store.current?_of_find? (formed.find? member)
  exact ⟨Versioned.advances_put current sameKey sameUid fresh, formed.put current sameKey sameUid fresh⟩

theorem target?_eq_some {store : Store} {spec : Object} {target : Resource}
    (found : target? store spec = some target) :
    ∃ key, targetKey? spec = some key ∧ store.find? Resource.schema key = some target ∧
      target.kind ≠ .operation := by
  simp only [target?, Option.bind_eq_bind, Option.bind_eq_some_iff] at found
  obtain ⟨key, named, lookup⟩ := found
  refine ⟨key, named, lookup, ?_⟩
  have kind : target.kind = key.1 := congrArg Prod.fst (Versioned.Store.mem_of_find? lookup).2
  simp only [targetKey?, Option.bind_eq_bind, Option.bind_eq_some_iff] at named
  obtain ⟨reference, _, named⟩ := named
  split at named
  · simp only [Option.map_eq_some_iff, Option.filter_eq_some_iff, decide_eq_true_eq] at named
    obtain ⟨other, ⟨_, different⟩, rfl⟩ := named
    rwa [kind]
  · simp at named

/-- Releasing a target is a write like any other. -/
theorem release_advances {store : Store} (formed : store.WellFormed Resource.schema)
    (operation : Resource) :
    Versioned.Advances Resource.schema store (release store operation) ∧
      (release store operation).WellFormed Resource.schema := by
  have same : Versioned.Advances Resource.schema store store ∧ store.WellFormed Resource.schema :=
    ⟨.refl store, formed⟩
  unfold release
  split
  · split
    · rename_i target found
      split
      · obtain ⟨key, _, lookup, _⟩ := target?_eq_some found
        exact put_found formed lookup rfl rfl rfl
      · exact same
    · exact same
  · exact same

theorem patch_advances {store after : Store} (formed : store.WellFormed Resource.schema)
    {resource updated : Resource} {status : Object}
    (written : patch store resource status = some (updated, after)) :
    Versioned.Advances Resource.schema store after ∧ after.WellFormed Resource.schema := by
  obtain ⟨current, found, rfl, rfl⟩ := patch_eq_some written
  obtain ⟨_, sameKey, sameUid, _⟩ := Versioned.Store.mem_of_current? found
  have advances : Versioned.Advances Resource.schema store
      (store.put Resource.schema (patched store current status)) :=
    Versioned.advances_put found sameKey sameUid rfl
  have kept : (store.put Resource.schema (patched store current status)).WellFormed Resource.schema :=
    formed.put found sameKey sameUid rfl
  obtain ⟨later, final⟩ := release_advances kept (patched store current status)
  exact ⟨advances.trans later, final⟩

/-- A creation adds one object under a fresh key and a fresh identity. -/
theorem creation_eq_some {store after : Store} {kind : Kind} {name uid : String} {spec : Object}
    {result : Resource} (written : creation store kind name uid spec = some (result, after)) :
    uid ≠ "" ∧ uid ∉ store.issued ∧ store.find? Resource.schema (kind, name) = none ∧
      result.kind = kind ∧ result.name = name ∧ result.uid = uid ∧ result.spec = spec ∧
      result.metadata.resourceVersion = store.revision + 1 ∧
      let stored : Store :=
        { objects := store.objects ++ [result], revision := store.revision + 1,
          issued := uid :: store.issued }
      kind ≠ .operation ∧ after = stored ∨
        kind = .operation ∧ result.status = [("phase", .str "Running")] ∧
          ∃ target, target? store spec = some target ∧ holds target.status "operationRef" = false ∧
            after = stored.put Resource.schema { target with
              metadata := { target.metadata with resourceVersion := stored.revision + 1 }
              status := target.status.set "operationRef" result.reference } := by
  unfold creation at written
  split at written
  · simp at written
  · rename_i free
    simp only [not_or, Option.not_isSome_iff_eq_none] at free
    split at written
    · rename_i operation
      split at written
      · rename_i target found
        split at written
        · simp at written
        · rename_i unowned
          obtain ⟨rfl, rfl⟩ := Prod.mk.inj (Option.some.inj written)
          exact ⟨free.1, free.2.1, free.2.2, rfl, rfl, rfl, rfl, rfl,
            .inr ⟨operation, by simp, target, found, by simpa using unowned, rfl⟩⟩
      · simp at written
    · rename_i operation
      obtain ⟨rfl, rfl⟩ := Prod.mk.inj (Option.some.inj written)
      exact ⟨free.1, free.2.1, free.2.2, rfl, rfl, rfl, rfl, rfl, .inl ⟨operation, rfl⟩⟩

theorem creation_advances {store after : Store} (formed : store.WellFormed Resource.schema)
    {kind : Kind} {name uid : String} {spec : Object} {result : Resource}
    (written : creation store kind name uid spec = some (result, after)) :
    Versioned.Advances Resource.schema store after ∧ after.WellFormed Resource.schema ∧
      result ∈ after.objects := by
  obtain ⟨named, fresh, free, sameKind, sameName, rfl, _, version, outcome⟩ := creation_eq_some written
  let stored : Store :=
    { objects := store.objects ++ [result], revision := store.revision + 1,
      issued := result.uid :: store.issued }
  have key : Resource.schema.key result = (kind, name) := Prod.ext sameKind sameName
  have absent : ∀ object ∈ store.objects, Resource.schema.key object ≠ (kind, name) := by
    intro object member
    simpa using List.find?_eq_none.mp free object member
  have kept : stored.WellFormed Resource.schema := by
    refine ⟨?_, ?_, fun object member => ?_, fun object member => ?_, ?_⟩
    · simp only [stored, List.map_append, List.map_cons, List.map_nil]
      refine List.Nodup.append formed.keys (by simp) ?_
      intro other member same
      obtain ⟨object, present, rfl⟩ := List.mem_map.mp member
      exact absent object present ((List.mem_singleton.mp same).trans key)
    · simp only [stored, List.map_append, List.map_cons, List.map_nil]
      refine List.Nodup.append formed.identities (by simp) ?_
      intro other member same
      obtain ⟨object, present, rfl⟩ := List.mem_map.mp member
      have known := formed.issued object present
      rw [List.mem_singleton.mp same] at known
      exact fresh known
    · rcases List.mem_append.mp member with present | last
      · exact Nat.le_succ_of_le (formed.versions object present)
      · rw [List.mem_singleton.mp last]
        exact Nat.le_of_eq version
    · rcases List.mem_append.mp member with present | last
      · exact List.mem_cons_of_mem _ (formed.issued object present)
      · rw [List.mem_singleton.mp last]
        exact List.mem_cons_self
    · intro member
      rcases List.mem_cons.mp member with same | member
      · exact named same.symm
      · exact formed.named member
  have grown : Versioned.Advances Resource.schema store stored := by
    refine ⟨Nat.le_succ _, fun _ => List.mem_cons_of_mem _, fun object member => ?_,
      fun object member known => ?_⟩
    · rcases List.mem_append.mp member with present | last
      · exact .inl present
      · rw [List.mem_singleton.mp last]
        exact .inr (Nat.lt_of_lt_of_eq (Nat.lt_succ_self store.revision) version.symm)
    · rcases List.mem_append.mp member with present | last
      · exact ⟨object, present, rfl, rfl⟩
      · rw [List.mem_singleton.mp last] at known
        exact absurd known fresh
  rcases outcome with ⟨_, rfl⟩ | ⟨operation, _, target, found, _, rfl⟩
  · exact ⟨grown, kept, by simp⟩
  · obtain ⟨targetKey, _, lookup, different⟩ := target?_eq_some found
    have present : stored.find? Resource.schema targetKey = some target := by
      simp only [Versioned.Store.find?, stored, List.find?_append] at lookup ⊢
      rw [lookup]
      rfl
    let owned : Resource := { target with
      metadata := { target.metadata with resourceVersion := stored.revision + 1 }
      status := target.status.set "operationRef" result.reference }
    obtain ⟨advanced, final⟩ := @put_found stored kept targetKey target owned present rfl rfl rfl
    refine ⟨grown.trans advanced, final, Versioned.Store.mem_put.mpr (.inr ⟨by simp, ?_⟩)⟩
    intro same
    have kinds : result.kind = target.kind := congrArg Prod.fst same
    exact different (kinds.symm.trans (sameKind.trans operation))

/-- Whatever the API answers, it has only moved forward. -/
theorem Serve.advances {before after : Store} {request : Request} {reply : interface.Reply request}
    (served : Serve before request reply after) (formed : before.WellFormed Resource.schema) :
    Versioned.Advances Resource.schema before after ∧ after.WellFormed Resource.schema := by
  cases served with
  | applied written => exact patch_advances formed written
  | lost written => exact patch_advances formed written
  | created written =>
      obtain ⟨advances, kept, _⟩ := creation_advances formed written
      exact ⟨advances, kept⟩
  | createdLost written =>
      obtain ⟨advances, kept, _⟩ := creation_advances formed written
      exact ⟨advances, kept⟩
  | _ => exact ⟨.refl _, formed⟩

end Homelab.Api
