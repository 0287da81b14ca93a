import Homelab.Api.Server

namespace Homelab.Api

open Interaction (Execution Moment Happening Program localTrace localTrace_append mem_localTrace
  worldAfter)

/-! # Histories of the API -/

/-- The API together with whoever else changes its store. -/
def surroundings (outside : Store → Store → Prop) : Interaction.Environment interface Store where
  serve := Serve
  outside := outside

/-- Others change the store through the same API. -/
def Orderly (outside : Store → Store → Prop) : Prop :=
  ∀ before after, before.WellFormed Resource.schema → outside before after →
    Versioned.Advances Resource.schema before after ∧ after.WellFormed Resource.schema

/-- The resources a reply carries. -/
def returned : Event → List Resource
  | ⟨.get _ _, .ok (resource : Resource)⟩ => [resource]
  | ⟨.list _, .ok (resources : List Resource)⟩ => resources
  | ⟨.patchStatus _ _, .ok (resource : Resource)⟩ => [resource]
  | ⟨.create _ _ _, .ok (resource : Resource)⟩ => [resource]
  | _ => []

/-- A program has read this resource, or got it back from a write. -/
def Seen (trace : Trace) (resource : Resource) : Prop :=
  ∃ event ∈ trace, resource ∈ returned event

theorem Seen.mono {trace later : Trace} {resource : Resource} (seen : Seen trace resource)
    (extended : trace <+: later) : Seen later resource := by
  obtain ⟨event, member, found⟩ := seen
  exact ⟨event, extended.subset member, found⟩

theorem Seen.append {actor : Nat} {history later : List (Moment interface Store)} {resource : Resource}
    (seen : Seen (localTrace actor history) resource) :
    Seen (localTrace actor (history ++ later)) resource := by
  rw [localTrace_append]
  exact seen.mono (List.prefix_append _ _)

theorem seen_last {trace : Trace} {event : Event} {resource : Resource}
    (found : resource ∈ returned event) : Seen (trace ++ [event]) resource :=
  ⟨event, by simp, found⟩

theorem seen_get (trace : Trace) (kind : Kind) (name : String) (resource : Resource) :
    Seen (trace ++ [⟨.get kind name, .ok resource⟩]) resource :=
  seen_last (List.mem_singleton.mpr rfl)

theorem release_other {store : Store} {updated object : Resource} (member : object ∈ store.objects)
    (same : object.kind = .operation ∨ updated.kind ≠ .operation) :
    object ∈ (release store updated).objects := by
  unfold release
  split
  · rename_i terminal
    split
    · rename_i target found
      split
      · refine Versioned.Store.mem_put.mpr (.inr ⟨member, fun keys => ?_⟩)
        obtain ⟨_, _, _, different⟩ := target?_eq_some found
        rcases same with same | other
        · exact different ((congrArg Prod.fst keys).symm.trans same)
        · exact other terminal.1
      · exact member
    · exact member
  · exact member

/-- A resource the API returns is stored when it answers. -/
theorem Serve.returned_mem {before after : Store} {request : Request}
    {reply : interface.Reply request} (served : Serve before request reply after)
    (formed : before.WellFormed Resource.schema) {resource : Resource}
    (found : resource ∈ returned ⟨request, reply⟩) : resource ∈ after.objects := by
  cases served with
  | found present =>
      obtain rfl := List.mem_singleton.mp found
      exact (Versioned.Store.mem_of_find? present).1
  | listed => exact (List.mem_filter.mp found).1
  | applied written =>
      obtain rfl := List.mem_singleton.mp found
      obtain ⟨current, lookup, rfl, rfl⟩ := patch_eq_some written
      obtain ⟨member, _⟩ := Versioned.Store.mem_of_current? lookup
      refine release_other (Versioned.Store.mem_put.mpr (.inl ⟨current, member, rfl, rfl⟩)) ?_
      exact (Classical.em _).imp_right id
  | created written =>
      obtain rfl := List.mem_singleton.mp found
      exact (creation_advances formed written).2.2
  | lost => simp [returned] at found
  | createdLost => simp [returned] at found
  | failed => cases request <;> simp [returned] at found
  | performed => simp [returned] at found

variable {α : Type} {outside : Store → Store → Prop} {starts : Program interface α → Prop}
  {initial world : Store} {history : List (Moment interface Store)}
  {running : List (Program interface α)}

theorem Execution.formed
    (execution : Execution (surroundings outside) starts initial history world running)
    (orderly : Orderly outside) (start : initial.WellFormed Resource.schema) :
    world.WellFormed Resource.schema := by
  induction execution with
  | init => exact start
  | act past pending served ih => exact (Serve.advances served ih).2
  | outside past changed ih => exact (orderly _ _ ih changed).2
  | start past allowed ih => exact ih

/-- One moment of an execution moves the store forward. -/
theorem Execution.last_advances {moment : Moment interface Store} {before : Store}
    {programs : List (Program interface α)}
    (execution : Execution (surroundings outside) starts initial (history ++ [moment]) world running)
    (past : Execution (surroundings outside) starts initial history before programs)
    (orderly : Orderly outside) (start : initial.WellFormed Resource.schema) :
    Versioned.Advances Resource.schema before world := by
  obtain ⟨prior, _, earlier, _, step⟩ := Interaction.Execution.last_cases execution
  obtain rfl := Interaction.Execution.world_unique past earlier
  have formed := Execution.formed past orderly start
  rcases step with ⟨_, _, _, _, _, _, served, _⟩ | ⟨_, changed, _⟩ | ⟨_, rfl, _⟩
  · exact (Serve.advances served formed).1
  · exact (orderly _ _ formed changed).1
  · exact .refl _

/-- What anyone has seen agrees with the store, and its identity stays issued. -/
theorem Execution.agrees
    (execution : Execution (surroundings outside) starts initial history world running)
    (orderly : Orderly outside) (start : initial.WellFormed Resource.schema) {actor : Nat}
    {resource : Resource} (seen : Seen (localTrace actor history) resource) :
    Versioned.Agrees Resource.schema world resource ∧ resource.uid ∈ world.issued := by
  induction history using List.reverseRecOn generalizing world running with
  | nil =>
      obtain ⟨_, member, _⟩ := seen
      simp at member
  | append_singleton earlier moment ih =>
      obtain ⟨before, programs, past, after, step⟩ := Interaction.Execution.last_cases execution
      have formed := Execution.formed past orderly start
      have advances := Execution.last_advances execution past orderly start
      have kept := Execution.formed execution orderly start
      obtain ⟨event, member, found⟩ := seen
      rw [localTrace_append, List.mem_append] at member
      rcases member with member | member
      · obtain ⟨agrees, known⟩ := ih past ⟨event, member, found⟩
        exact ⟨agrees.advance advances, advances.issued known⟩
      · obtain ⟨store, last⟩ := mem_localTrace.mp member
        obtain rfl := List.mem_singleton.mp last
        rcases step with ⟨_, request, _, reply, same, _, served, _⟩ | ⟨same, _⟩ | ⟨same, _⟩
        · obtain ⟨rfl, rfl⟩ := Happening.act.inj same
          have stored := Serve.returned_mem served formed found
          exact ⟨Versioned.agrees_of_mem kept stored, kept.issued _ stored⟩
        · simp at same
        · simp at same

/-- Whatever follows moves the store forward. -/
theorem Execution.advances {past later : List (Moment interface Store)} {before : Store}
    {programs : List (Program interface α)}
    (execution : Execution (surroundings outside) starts initial (past ++ later) world running)
    (earlier : Execution (surroundings outside) starts initial past before programs)
    (orderly : Orderly outside) (start : initial.WellFormed Resource.schema) :
    Versioned.Advances Resource.schema before world := by
  induction later using List.reverseRecOn generalizing world running with
  | nil =>
      rw [List.append_nil] at execution
      rw [Interaction.Execution.world_unique execution earlier]
      exact .refl _
  | append_singleton middle moment ih =>
      rw [← List.append_assoc] at execution
      obtain ⟨_, _, first, _⟩ := Interaction.Execution.last_cases execution
      exact (ih first).trans (Execution.last_advances execution first orderly start)

/-- What holds of one version of an object, and what every moment preserves,
holds of the later versions. -/
theorem Execution.carries (holds : List (Moment interface Store) → Resource → Prop)
    (orderly : Orderly outside) (start : initial.WellFormed Resource.schema)
    (step : ∀ (history : List (Moment interface Store)) moment before after programs resumed,
      Execution (surroundings outside) starts initial history before programs →
      Execution (surroundings outside) starts initial (history ++ [moment]) after resumed →
      ∀ old ∈ before.objects, ∀ new ∈ after.objects,
        Resource.schema.key old = Resource.schema.key new → old.uid = new.uid →
          holds history old → holds (history ++ [moment]) new)
    {past later : List (Moment interface Store)} {before : Store}
    {programs : List (Program interface α)}
    (execution : Execution (surroundings outside) starts initial (past ++ later) world running)
    (earlier : Execution (surroundings outside) starts initial past before programs)
    {old new : Resource} (stored : old ∈ before.objects) (present : new ∈ world.objects)
    (uid : old.uid = new.uid) (begin : holds past old) : holds (past ++ later) new := by
  induction later using List.reverseRecOn generalizing world running new with
  | nil =>
      rw [List.append_nil] at execution ⊢
      obtain rfl := Interaction.Execution.world_unique execution earlier
      obtain rfl := (Execution.formed earlier orderly start).identical stored present uid
      exact begin
  | append_singleton middle moment ih =>
      rw [← List.append_assoc] at execution ⊢
      obtain ⟨store, _, first, _⟩ := Interaction.Execution.last_cases execution
      have known : new.uid ∈ store.issued := by
        rw [← uid]
        exact (Execution.advances first earlier orderly start).issued
          ((Execution.formed earlier orderly start).issued _ stored)
      obtain ⟨version, member, key, same⟩ :=
        (Execution.last_advances execution first orderly start).identities new present known
      exact step _ _ _ _ _ _ first execution version member new present key same
        (ih first member (uid.trans same.symm))

/-- Whatever was seen was stored in a world that the execution went through. -/
theorem Execution.seen_stored
    (execution : Execution (surroundings outside) starts initial history world running)
    (orderly : Orderly outside) (start : initial.WellFormed Resource.schema) {actor : Nat}
    {resource : Resource} (seen : Seen (localTrace actor history) resource) :
    ∃ past later programs, history = past ++ later ∧
      Execution (surroundings outside) starts initial past (worldAfter initial past) programs ∧
        resource ∈ (worldAfter initial past).objects := by
  obtain ⟨event, member, found⟩ := seen
  obtain ⟨store, performed⟩ := mem_localTrace.mp member
  obtain ⟨past, later, rfl⟩ := List.append_of_mem performed
  have whole : past ++ ⟨.act actor event, store⟩ :: later =
      (past ++ [⟨.act actor event, store⟩]) ++ later := by simp
  rw [whole] at execution
  obtain ⟨programs, upTo⟩ := execution.before
  obtain ⟨before, _, earlier, _, step⟩ := upTo.last_cases
  rcases step with ⟨_, request, _, reply, same, _, served, _⟩ | ⟨same, _⟩ | ⟨same, _⟩
  · obtain ⟨rfl, rfl⟩ := Happening.act.inj same
    exact ⟨_, later, programs, whole, upTo,
      Serve.returned_mem served (Execution.formed earlier orderly start) found⟩
  · simp at same
  · simp at same

end Homelab.Api
