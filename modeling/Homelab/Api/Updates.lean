import Homelab.Api.Script

namespace Homelab.Api

open Json (Object)
open Interaction (Contract Execution Moment Program localTrace localTrace_append localTrace_act_self
  localTrace_act_other localTrace_outside localTrace_start worldAfter worldAfter_append)

/-! # Conditional updates

A writer that reads an object, checks it and patches its status tries again when
the patch is refused.  It is one conditional update: the guard holds of the very
version that its patch was applied to, and no other patch of it was applied.
-/

/-- The API, when an HTTP error means that the write was not applied. -/
def definite (outside : Store → Store → Prop) : Interaction.Environment interface Store where
  serve before request reply after :=
    Serve before request reply after ∧ ∀ code, reply = .error (.http code) → after = before
  outside := outside

/-- The version that one moment's patch by a program was applied to; a patch
that was applied renews the revision of the store. -/
def appliedBy (actor : Nat) (before : Store) (moment : Moment interface Store) : List Resource :=
  match moment.happening with
  | .act who ⟨.patchStatus resource _, _⟩ =>
      if who = actor ∧ before.revision < moment.after.revision then
        (before.current? Resource.schema resource).toList
      else []
  | _ => []

/-- The versions that the patches of a program were applied to, oldest first. -/
def appliedTo (actor : Nat) : Store → List (Moment interface Store) → List Resource
  | _, [] => []
  | before, moment :: rest => appliedBy actor before moment ++ appliedTo actor moment.after rest

/-- The patches of a trace, with the replies they received. -/
def patches (trace : Trace) : List (Resource × Except Exn Resource) :=
  trace.filterMap fun event => match event with
    | ⟨.patchStatus resource _, reply⟩ => some (resource, reply)
    | _ => none

variable {α : Type} {guard : Resource → Prop} {trace : Trace} {actor : Nat}
  {history : List (Moment interface Store)} {initial before after world : Store}

theorem appliedTo_append (moment : Moment interface Store) :
    appliedTo actor initial (history ++ [moment]) =
      appliedTo actor initial history ++ appliedBy actor (worldAfter initial history) moment := by
  induction history generalizing initial with
  | nil => simp [appliedTo, worldAfter]
  | cons first rest ih =>
      have tail : worldAfter initial (first :: rest) = worldAfter first.after rest := by
        cases rest using List.reverseRecOn with
        | nil => rfl
        | append_singleton middle last => simp [worldAfter, List.getLast?_cons]
      rw [List.cons_append, appliedTo, ih, tail, appliedTo, List.append_assoc]

@[simp] theorem patches_nil : patches [] = [] := rfl

@[simp] theorem patches_append (first second : Trace) :
    patches (first ++ second) = patches first ++ patches second := by
  simp [patches]

@[simp] theorem patches_patch (resource : Resource) (status : Object) (reply : Except Exn Resource) :
    patches [⟨.patchStatus resource status, reply⟩] = [(resource, reply)] := rfl

/-- Every patch so far was refused. -/
def AllRefused (trace : Trace) : Prop := ∀ patch ∈ patches trace, patch.2 = .error (.http 409)

/-- What a writer owes: it patches a version it has read and that meets the
guard, and only after all its earlier patches were refused. -/
def updates (guard : Resource → Prop) : Contract interface where
  guard trace request :=
    match request with
    | .patchStatus resource _ => guard resource ∧ Seen trace resource ∧ AllRefused trace
    | .create .. => False
    | _ => True
  rely := Honest

/-- The patches of a writer with the replies they received, and the versions
they were applied to. -/
inductive Updated (guard : Resource → Prop) :
    List (Resource × Except Exn Resource) → List Resource → Prop
  | refused {refusals : List (Resource × Except Exn Resource)}
      (all : ∀ patch ∈ refusals, patch.2 = .error (.http 409)) : Updated guard refusals []
  | acknowledged {refusals : List (Resource × Except Exn Resource)} {version updated : Resource}
      (met : guard version) : Updated guard (refusals ++ [(version, .ok updated)]) [version]
  | failed {refusals : List (Resource × Except Exn Resource)} {version : Resource} {failure : Exn} :
      Updated guard (refusals ++ [(version, .error failure)]) []
  | lost {refusals : List (Resource × Except Exn Resource)} {version : Resource} {failure : Exn}
      (met : guard version) (silent : ∀ code, failure ≠ .http code) :
      Updated guard (refusals ++ [(version, .error failure)]) [version]

theorem release_revision (store : Store) (operation : Resource) :
    store.revision ≤ (release store operation).revision := by
  unfold release
  split
  · split
    · split
      · exact Nat.le_succ _
      · exact Nat.le_refl _
    · exact Nat.le_refl _
  · exact Nat.le_refl _

/-- A patch that is applied is applied to the version it names. -/
theorem appliedBy_patch {resource updated : Resource} {status : Object} {reply : Except Exn Resource}
    (agrees : Versioned.Agrees Resource.schema before resource)
    (written : patch before resource status = some (updated, after)) :
    appliedBy actor before ⟨.act actor ⟨.patchStatus resource status, reply⟩, after⟩ = [resource] := by
  obtain ⟨current, found, rfl, rfl⟩ := patch_eq_some written
  have kept := release_revision (before.put Resource.schema (patched before current status))
    (patched before current status)
  have grown : before.revision < (release (before.put Resource.schema (patched before current status))
      (patched before current status)).revision := by
    have renewed : (before.put Resource.schema (patched before current status)).revision =
        before.revision + 1 := rfl
    omega
  obtain rfl := agrees.current found
  simp [appliedBy, grown, found]

theorem appliedBy_same {happening : Interaction.Happening interface} :
    appliedBy actor before ⟨happening, before⟩ = [] := by
  unfold appliedBy
  split <;> simp

theorem appliedBy_other {who : Nat} {event : Event} (different : who ≠ actor) :
    appliedBy actor before ⟨.act who event, after⟩ = [] := by
  unfold appliedBy
  split
  · rename_i same
    simp only [Interaction.Happening.act.injEq] at same
    simp [← same.1, different]
  · rfl

variable {outside : Store → Store → Prop} {starts : Program interface α → Prop}
  {running : List (Program interface α)} {post : Trace → α → Prop}

theorem definite_surroundings
    (execution : Execution (definite outside) starts initial history world running) :
    Execution (surroundings outside) starts initial history world running :=
  execution.weaken (fun _ _ _ _ served => served.1) fun _ _ changed => changed

/-- In every execution of writers, each one's patches make at most one update,
of a version that meets the guard. -/
theorem Execution.updated
    (execution : Execution (definite outside) starts initial history world running)
    (orderly : Orderly outside) (start : initial.WellFormed Resource.schema)
    (meets : ∀ program, starts program → program.Meets (updates guard) [] post) (actor : Nat) :
    Updated guard (patches (localTrace actor history)) (appliedTo actor initial history) := by
  induction execution with
  | init => exact .refused (by simp)
  | @act history world after running who request resume reply past pending served ih =>
      have now : world = worldAfter initial history := past.world_eq
      rw [appliedTo_append, ← now, localTrace_append]
      by_cases same : who = actor
      · subst same
        have guarded := past.guarded (fun _ _ _ _ served => Serve.honest served.1) meets pending
        rw [localTrace_act_self]
        cases request with
        | patchStatus resource status =>
            obtain ⟨met, seen, refused⟩ := guarded
            have agrees := (Execution.agrees (definite_surroundings past) orderly start seen).1
            have none : appliedTo who initial history = [] := by
              unfold AllRefused at refused
              generalize patches (localTrace who history) = all at ih refused
              generalize appliedTo who initial history = versions at ih
              cases ih with
              | refused => rfl
              | acknowledged => simpa using refused _ (List.mem_append_right _ (List.mem_singleton.mpr rfl))
              | failed => rfl
              | @lost _ _ failure _ silent =>
                  have last := refused _ (List.mem_append_right _ (List.mem_singleton.mpr rfl))
                  exact absurd (Except.error.inj last) (silent 409)
            rw [none, patches_append, patches_patch, List.nil_append]
            obtain ⟨served, definite⟩ := served
            cases served with
            | applied written =>
                rw [appliedBy_patch agrees written]
                exact .acknowledged met
            | @lost _ _ _ _ failure written =>
                rw [appliedBy_patch agrees written]
                refine .lost met fun code http => ?_
                have kept := definite code (congrArg Except.error http)
                have applied := @appliedBy_patch who _ _ _ _ _ (.error failure) agrees written
                rw [kept, appliedBy_same] at applied
                simp at applied
            | failed =>
                rw [appliedBy_same]
                exact .failed
        | create kind name spec => exact guarded.elim
        | get kind name => simpa [patches, appliedBy] using ih
        | list kind => simpa [patches, appliedBy] using ih
        | host call => simpa [patches, appliedBy] using ih
      · rw [localTrace_act_other same, appliedBy_other same]
        simpa using ih
  | outside past changed ih => simpa [appliedTo_append, appliedBy] using ih
  | start past allowed ih => simpa [appliedTo_append, appliedBy] using ih

end Homelab.Api
