import Homelab.Api.Touches
import Homelab.Operators.ServerOperation

namespace Homelab

open Json (Object)
open Api (Seen Honest)
open Interaction (Contract Execution Moment Happening Program Op Action localTrace localTrace_append
  localTrace_act_self localTrace_act_other localTrace_last localTrace_eq_append mem_localTrace)

/-! # Custody of targets

A target belongs to the Operation that its `operationRef` names.  Clients report
the outcome of an Operation only if the API gave it to them, only once, and leave
`operationRef` to the API.  Then an Operation that is not reported on stays
Running, and the target that was claimed with it stays claimed, whatever all the
other clients do.
-/

namespace Custody

/-! ## What clients owe each other -/

/-- The API gave an Operation of this identity to the program. -/
def Created (trace : Trace) (uid : String) : Prop :=
  ∃ name spec, ∃ operation : Resource,
    (⟨.create .operation name spec, .ok operation⟩ : Event) ∈ trace ∧ operation.uid = uid

/-- The outcome of an Operation is still open. -/
def Undecided (status : Object) : Prop :=
  value status "phase" = .str "Running" ∨ value status "phase" = .str "Uncertain"

/-- The results that commands publish do not name an owner. -/
def Discreet : (request : Request) → interface.Reply request → Prop
  | .host (.readJson _), .ok (.obj published) => "operationRef" ∉ published.map Prod.fst
  | _, _ => True

/-- Whoever was given no Operation since `start` reports no outcome. -/
def custody (start : Trace) : Contract interface where
  guard trace request := ∀ resource status, request = .patchStatus resource status →
    "operationRef" ∉ status.map Prod.fst ∧
      (resource.kind = .operation → "phase" ∈ status.map Prod.fst → ∃ later, trace = start ++ later ∧
        Undecided resource.status ∧ Seen later resource ∧ Created later resource.uid)
  rely request reply := Honest request reply ∧ Discreet request reply

def Respectful {α : Type} (program : Program interface α) : Prop :=
  program.Meets (custody []) [] fun _ _ => True

def discreet (outside : Store → Store → Prop) : Interaction.Environment interface Store where
  serve before request reply after := Api.Serve before request reply after ∧ Discreet request reply
  outside := outside

/-- Others leave Operations and the owners of targets alone. -/
structure Aloof (outside : Store → Store → Prop) : Prop where
  orderly : Api.Orderly outside
  kept : ∀ before after, outside before after → ∀ old ∈ before.objects, old.kind = .operation →
    ∃ new ∈ after.objects, old.uid = new.uid
  unchanged : ∀ before after, outside before after → ∀ old ∈ before.objects, ∀ new ∈ after.objects,
    old.uid = new.uid → value new.status "operationRef" = value old.status "operationRef" ∧
      (old.kind = .operation → value new.status "phase" = value old.status "phase")

/-- Any number of respectful programs on one store. -/
abbrev Shared {α : Type} (outside : Store → Store → Prop) (initial : Store)
    (history : List (Moment interface Store)) (world : Store) (running : List (Program interface α)) : Prop :=
  Execution (discreet outside) Respectful initial history world running

variable {α : Type} {outside : Store → Store → Prop} {initial before world : Store}
  {history : List (Moment interface Store)} {moment : Moment interface Store}
  {programs running : List (Program interface α)} {trace : Trace} {uid : String}

theorem Created.mono {later : Trace} (created : Created trace uid) (inside : trace ⊆ later) :
    Created later uid := by
  obtain ⟨name, spec, operation, member, same⟩ := created
  exact ⟨name, spec, operation, inside member, same⟩

theorem Created.issued {name : String} {spec : Object} {operation : Resource}
    (member : (⟨.create .operation name spec, .ok operation⟩ : Event) ∈ trace) : Seen trace operation :=
  ⟨_, member, List.mem_singleton.mpr rfl⟩

theorem Created.last {actor : Nat} (created : Created (localTrace actor (history ++ [moment])) uid) :
    Created (localTrace actor history) uid ∨ ∃ name spec, ∃ operation : Resource,
      moment.happening = .act actor ⟨.create .operation name spec, .ok operation⟩ ∧ operation.uid = uid := by
  obtain ⟨name, spec, operation, member, same⟩ := created
  rcases localTrace_last actor history moment with ⟨event, acted, whole⟩ | ⟨_, whole⟩
  · rw [whole] at member
    rcases List.mem_append.mp member with earlier | last
    · exact .inl ⟨name, spec, operation, earlier, same⟩
    · rw [← List.mem_singleton.mp last] at acted
      exact .inr ⟨name, spec, operation, acted, same⟩
  · rw [whole] at member
    exact .inl ⟨name, spec, operation, member, same⟩

namespace Shared

theorem surrounded (shared : Shared outside initial history world running) :
    Execution (Api.surroundings outside) Respectful initial history world running :=
  shared.weaken (fun _ _ _ _ served => served.1) fun _ _ changed => changed

theorem honest (before : Store) (request : Request) (reply : interface.Reply request) (after : Store)
    (served : (discreet outside).serve before request reply after) : (custody []).rely request reply :=
  ⟨Api.Serve.honest served.1, served.2⟩

theorem formed (shared : Shared outside initial history world running) (aloof : Aloof outside)
    (start : initial.WellFormed Resource.schema) : world.WellFormed Resource.schema :=
  Api.Execution.formed shared.surrounded aloof.orderly start

/-- Every request of a history was guarded when it was issued. -/
theorem guarded (shared : Shared outside initial (history ++ [moment]) world running) {actor : Nat}
    {event : Event} (acted : moment.happening = .act actor event) :
    (custody []).guard (localTrace actor history) event.request := by
  obtain ⟨prior, others, past, _, step⟩ := shared.last_cases
  rcases step with ⟨who, request, resume, reply, same, pending, _, _⟩ | ⟨other, _⟩ | ⟨other, _⟩
  · rw [acted] at same
    cases same
    exact past.guarded honest (fun _ respectful => respectful) pending
  · rw [acted] at other
    cases other
  · rw [acted] at other
    cases other

/-- What a request returns is stored when it is answered. -/
theorem returned_stored (shared : Shared outside initial (history ++ [moment]) world running)
    (aloof : Aloof outside) (start : initial.WellFormed Resource.schema) {actor : Nat} {event : Event}
    {resource : Resource} (acted : moment.happening = .act actor event)
    (found : resource ∈ Api.returned event) : resource ∈ world.objects := by
  obtain ⟨prior, others, past, _, step⟩ := shared.last_cases
  rcases step with ⟨who, request, resume, reply, same, _, served, _⟩ | ⟨other, _⟩ | ⟨other, _⟩
  · rw [acted] at same
    cases same
    exact Api.Serve.returned_mem served.1 (Shared.formed past aloof start) found
  · rw [acted] at other
    cases other
  · rw [acted] at other
    cases other

/-! ## Identities are given once -/

/-- What the API creates is new, stored and running. -/
theorem created_fresh (shared : Shared outside initial (history ++ [moment]) world running)
    (past : Shared outside initial history before programs) (aloof : Aloof outside)
    (start : initial.WellFormed Resource.schema) {actor : Nat} {name : String} {spec : Object}
    {operation : Resource}
    (acted : moment.happening = .act actor ⟨.create .operation name spec, .ok operation⟩) :
    operation.uid ∉ before.issued ∧ operation ∈ world.objects ∧ operation.kind = .operation ∧
      value operation.status "phase" = .str "Running" := by
  obtain ⟨happening, after⟩ := moment
  obtain rfl : happening = .act actor ⟨.create .operation name spec, .ok operation⟩ := acted
  obtain ⟨prior, others, resume, earlier, _, served, _, _⟩ := shared.act_cases
  obtain rfl := past.world_unique earlier
  have formed := past.formed aloof start
  obtain ⟨answered, _⟩ := served
  cases answered with
  | created written =>
      obtain ⟨_, fresh, _, kind, _, uid, _, _, outcome⟩ := Api.creation_eq_some written
      obtain ⟨_, _, stored⟩ := Api.creation_advances formed written
      rcases outcome with ⟨other, _⟩ | ⟨_, status, _⟩
      · exact absurd rfl other
      · exact ⟨uid ▸ fresh, stored, kind, by rw [status]; rfl⟩

/-- The API gives the same identity to nobody else, and not twice. -/
theorem created_apart {actor other : Nat} {name another : String} {spec spec' : Object}
    {operation operation' : Resource} {after : Store} {past rest : List (Moment interface Store)}
    (shared : Shared outside initial
      (past ++ ⟨.act actor ⟨.create .operation name spec, .ok operation⟩, after⟩ :: rest) world running)
    (aloof : Aloof outside) (start : initial.WellFormed Resource.schema)
    (later : (⟨.create .operation another spec', .ok operation'⟩ : Event) ∈ localTrace other rest) :
    operation'.uid ≠ operation.uid := by
  intro same
  obtain ⟨left, member⟩ := mem_localTrace.mp later
  obtain ⟨middle, tail, rfl⟩ := List.append_of_mem member
  rw [List.append_cons, ← List.append_assoc, List.append_cons] at shared
  obtain ⟨running', upTo⟩ := shared.before
  obtain ⟨_, _, before, _, _⟩ := upTo.last_cases
  have fresh := (Shared.created_fresh upTo before aloof start rfl).1
  have member : (⟨.create .operation name spec, .ok operation⟩ : Event) ∈ localTrace actor
      (past ++ [⟨.act actor ⟨.create .operation name spec, .ok operation⟩, after⟩] ++ middle) := by
    rw [localTrace_append, localTrace_append, localTrace_act_self]
    simp
  have issued := (Api.Execution.agrees (Shared.surrounded before) aloof.orderly start (Created.issued member)).2
  rw [same] at fresh
  exact fresh issued

theorem created_last (shared : Shared outside initial history world running) (aloof : Aloof outside)
    (start : initial.WellFormed Resource.schema) {actor : Nat} {first second : Trace} {name : String}
    {spec : Object} {operation : Resource}
    (split : localTrace actor history = first ++ ⟨.create .operation name spec, .ok operation⟩ :: second) :
    ¬Created second operation.uid := by
  obtain ⟨past, after, rest, rfl, _, remaining⟩ := localTrace_eq_append split
  intro ⟨another, spec', other, member, same⟩
  rw [← remaining] at member
  exact shared.created_apart aloof start member same

/-- Nobody reports on an Operation before it is created. -/
theorem reports_after (shared : Shared outside initial history world running) (aloof : Aloof outside)
    (start : initial.WellFormed Resource.schema) {actor : Nat} {first second : Trace} {name : String}
    {spec : Object} {operation : Resource}
    (split : localTrace actor history = first ++ ⟨.create .operation name spec, .ok operation⟩ :: second)
    {event : Event} (member : event ∈ localTrace actor history) {resource : Resource} {status : Object}
    (patches : event.request = .patchStatus resource status) (kind : resource.kind = .operation)
    (same : resource.uid = operation.uid) (named : "phase" ∈ status.map Prod.fst) : event ∈ second := by
  rw [split] at member
  rcases List.mem_append.mp member with before | later
  · obtain ⟨earlier, rest, rfl⟩ := List.append_of_mem before
    rw [List.append_assoc, List.cons_append] at split
    obtain ⟨past, after, remaining, rfl, upTo, _⟩ := localTrace_eq_append split
    have whole : past ++ ⟨.act actor event, after⟩ :: remaining = (past ++ [⟨.act actor event, after⟩]) ++ remaining := by
      simp
    have ended := shared
    rw [whole] at ended
    obtain ⟨_, ended⟩ := ended.before
    obtain ⟨between, visible, _, _, created⟩ := (Shared.guarded ended rfl resource status patches).2 kind named
    rw [List.nil_append, upTo] at visible
    obtain ⟨another, spec', other, given, theirs⟩ := created
    rw [← visible] at given
    obtain ⟨prior, middle, rfl⟩ := List.append_of_mem given
    rw [List.append_assoc, List.cons_append] at split
    refine absurd ?_ (shared.created_last aloof start split)
    exact ⟨name, spec, operation, by simp, (theirs.trans same).symm⟩
  · rcases List.mem_cons.mp later with created | later
    · rw [created] at patches
      cases patches
    · exact later

theorem created_once (shared : Shared outside initial history world running) (aloof : Aloof outside)
    (start : initial.WellFormed Resource.schema) {actor other : Nat}
    (first : Created (localTrace actor history) uid) (second : Created (localTrace other history) uid) :
    actor = other := by
  obtain ⟨name, spec, operation, member, named⟩ := first
  obtain ⟨another, spec', operation', member', named'⟩ := second
  obtain ⟨after, found⟩ := mem_localTrace.mp member
  obtain ⟨past, rest, rfl⟩ := List.append_of_mem found
  by_contra different
  rw [localTrace_append, List.mem_append] at member'
  rcases member' with before | later
  · obtain ⟨after', found'⟩ := mem_localTrace.mp before
    obtain ⟨past', middle, rfl⟩ := List.append_of_mem found'
    rw [List.append_assoc, List.cons_append] at shared
    have member : (⟨.create .operation name spec, .ok operation⟩ : Event) ∈ localTrace actor
        (middle ++ ⟨.act actor ⟨.create .operation name spec, .ok operation⟩, after⟩ :: rest) := by
      rw [List.append_cons, localTrace_append, localTrace_append, localTrace_act_self]
      simp
    exact shared.created_apart aloof start member (named.trans named'.symm)
  · rw [← List.singleton_append, localTrace_append, localTrace_act_other different, List.nil_append] at later
    exact shared.created_apart aloof start later (named'.trans named.symm)

/-- What was read keeps its key as long as it is stored. -/
theorem seen_key (shared : Shared outside initial history world running) (aloof : Aloof outside)
    (start : initial.WellFormed Resource.schema) {actor : Nat} {resource stored : Resource}
    (seen : Seen (localTrace actor history) resource) (member : stored ∈ world.objects)
    (uid : resource.uid = stored.uid) : Resource.schema.key resource = Resource.schema.key stored := by
  obtain ⟨past, later, others, rfl, upTo, present⟩ :=
    Api.Execution.seen_stored shared.surrounded aloof.orderly start seen
  have advances := Api.Execution.advances shared.surrounded upTo aloof.orderly start
  have formed := Api.Execution.formed upTo aloof.orderly start
  have known : stored.uid ∈ (Interaction.worldAfter initial past).issued := by
    rw [← uid]
    exact formed.issued resource present
  obtain ⟨old, kept, key, same⟩ := advances.identities stored member known
  obtain rfl := formed.identical kept present (same.trans uid.symm)
  exact key

/-- What was read and is still stored in that version is what is stored. -/
theorem seen_current (shared : Shared outside initial history world running) (aloof : Aloof outside)
    (start : initial.WellFormed Resource.schema) {actor : Nat} {resource stored : Resource}
    (seen : Seen (localTrace actor history) resource) (member : stored ∈ world.objects)
    (uid : resource.uid = stored.uid)
    (version : resource.metadata.resourceVersion = stored.metadata.resourceVersion) : stored = resource := by
  have key := shared.seen_key aloof start seen member uid
  have agrees := (Api.Execution.agrees shared.surrounded aloof.orderly start seen).1
  exact agrees.content stored member key.symm uid.symm version.symm

/-- An Operation that was created stays one. -/
theorem created_kind (shared : Shared outside initial history world running) (aloof : Aloof outside)
    (start : initial.WellFormed Resource.schema) {actor : Nat} (created : Created (localTrace actor history) uid)
    {stored : Resource} (member : stored ∈ world.objects) (same : stored.uid = uid) : stored.kind = .operation := by
  obtain ⟨name, spec, operation, given, named⟩ := created
  have key := shared.seen_key aloof start (Created.issued given) member (named.trans same.symm)
  obtain ⟨after, found⟩ := mem_localTrace.mp given
  obtain ⟨past, rest, rfl⟩ := List.append_of_mem found
  rw [List.append_cons] at shared
  obtain ⟨_, upTo⟩ := shared.before
  obtain ⟨_, _, before, _⟩ := upTo.last_cases
  obtain ⟨_, _, kind, _⟩ := Shared.created_fresh upTo before aloof start rfl
  exact (congrArg Prod.fst key).symm.trans kind

/-! ## What one moment does to Operations and targets -/

/-- Only the program that was given an Operation reports its outcome, while that is open. -/
theorem phase_kept (shared : Shared outside initial (history ++ [moment]) world running)
    (past : Shared outside initial history before programs) (aloof : Aloof outside)
    (start : initial.WellFormed Resource.schema) {old new : Resource} (stored : old ∈ before.objects)
    (present : new ∈ world.objects) (uid : old.uid = new.uid) (kind : old.kind = .operation) :
    value new.status "phase" = value old.status "phase" ∨
      ∃ actor resource status reply, moment.happening = .act actor ⟨.patchStatus resource status, reply⟩ ∧
        resource.uid = old.uid ∧ resource.kind = .operation ∧ "phase" ∈ status.map Prod.fst ∧
        Undecided old.status ∧ Created (localTrace actor history) old.uid ∧
        new.status = Json.mergeFields old.status status := by
  rcases Api.Execution.touched (shared.surrounded) past.surrounded aloof.orderly start stored present uid with
    touched | changed
  · cases touched with
    | same equal => exact .inl (by rw [equal])
    | @patched actor resource status reply acted sameKind sameUid version merged =>
        by_cases named : "phase" ∈ status.map Prod.fst
        · have operation := sameKind.trans kind
          obtain ⟨later, split, undecided, seen, created⟩ :=
            (shared.guarded acted resource status rfl).2 operation named
          rw [List.nil_append] at split
          subst split
          have same := past.seen_current aloof start seen stored sameUid version
          subst same
          exact .inr ⟨actor, old, status, reply, acted, rfl, operation, named, undecided, created, by rw [merged]; rfl⟩
        · left
          rw [merged, value, value, Api.patched, Json.get?_mergeFields_of_not_mem _ _ named]
    | released acted closed closedKind terminal target held erased => exact absurd kind target
    | claimed acted target free owned => exact absurd kind target
  · exact .inl ((aloof.unchanged _ _ changed old stored new present uid).2 kind)

/-- A target changes its owner only when that has ended, or when there was none. -/
theorem owner_kept (shared : Shared outside initial (history ++ [moment]) world running)
    (past : Shared outside initial history before programs) (aloof : Aloof outside)
    (start : initial.WellFormed Resource.schema) {old new : Resource} (stored : old ∈ before.objects)
    (present : new ∈ world.objects) (uid : old.uid = new.uid) :
    value new.status "operationRef" = value old.status "operationRef" ∨
      holds old.status "operationRef" = false ∨
        ∃ closed ∈ world.objects, closed.kind = .operation ∧ Api.terminalPhase closed.status = true ∧
          value old.status "operationRef" = closed.reference := by
  rcases Api.Execution.touched (shared.surrounded) past.surrounded aloof.orderly start stored present uid with
    touched | changed
  · cases touched with
    | same equal => exact .inl (by rw [equal])
    | @patched actor resource status reply acted sameKind sameUid version merged =>
        have unnamed := (shared.guarded acted resource status rfl).1
        left
        rw [merged, value, value, Api.patched, Json.get?_mergeFields_of_not_mem _ _ unnamed]
    | released acted closed kind terminal target held erased =>
        have left : moment.after = world := by
          obtain ⟨_, _, _, left, _⟩ := shared.last_cases
          exact left
        rw [left] at closed
        exact .inr (.inr ⟨_, closed, kind, terminal, value_some held⟩)
    | claimed acted target free owned => exact .inr (.inl free)
  · exact .inl (aloof.unchanged _ _ changed old stored new present uid).1

theorem operation_kept (shared : Shared outside initial (history ++ [moment]) world running)
    (past : Shared outside initial history before programs) (aloof : Aloof outside)
    (start : initial.WellFormed Resource.schema) {old : Resource} (stored : old ∈ before.objects)
    (kind : old.kind = .operation) :
    ∃ new ∈ world.objects, old.uid = new.uid ∧ Resource.schema.key old = Resource.schema.key new := by
  obtain ⟨new, present, uid⟩ : ∃ new ∈ world.objects, old.uid = new.uid := by
    obtain ⟨prior, _, earlier, _, step⟩ := shared.last_cases
    obtain rfl := past.world_unique earlier
    rcases step with ⟨_, _, _, _, _, _, served, _⟩ | ⟨_, changed, _⟩ | ⟨_, rfl, _⟩
    · exact Api.Serve.kept served.1 (past.formed aloof start) stored kind
    · exact aloof.kept _ _ changed old stored kind
    · exact ⟨old, stored, rfl⟩
  have advances := Api.Execution.last_advances shared.surrounded past.surrounded aloof.orderly start
  have formed := past.formed aloof start
  have known : new.uid ∈ before.issued := by
    rw [← uid]
    exact formed.issued old stored
  obtain ⟨other, member, key, same⟩ := advances.identities new present known
  obtain rfl := formed.identical member stored (same.trans uid.symm)
  exact ⟨new, present, uid, key⟩

end Shared

/-! ## Operations that were not reported on -/

/-- The request reports no outcome of this Operation. -/
def Silent (uid : String) (event : Event) : Prop :=
  ∀ resource status, event.request = .patchStatus resource status → resource.kind = .operation →
    resource.uid = uid → "phase" ∉ status.map Prod.fst

/-- What follows a creation that the program was told of, without a report since. -/
def Unreported (trace : Trace) (operation : Resource) (second : Trace) : Prop :=
  (∃ first name spec, trace = first ++ ⟨.create .operation name spec, .ok operation⟩ :: second) ∧
    ∀ event ∈ second, Silent operation.uid event

/-- The program has read the target as claimed by an Operation it has not reported on. -/
def Holding (trace : Trace) (operation : Resource) (target : String) : Prop :=
  ∃ second, Unreported trace operation second ∧ ∃ claimed, Seen second claimed ∧ claimed.uid = target ∧
    Json.Same (value claimed.status "operationRef") operation.reference

theorem Unreported.created {operation : Resource} {second : Trace}
    (unreported : Unreported trace operation second) : Created trace operation.uid := by
  obtain ⟨⟨first, name, spec, split⟩, _⟩ := unreported
  exact ⟨name, spec, operation, by rw [split]; simp, rfl⟩

theorem Unreported.seen {operation found : Resource} {second : Trace}
    (unreported : Unreported trace operation second) (seen : Seen second found) : Seen trace found := by
  obtain ⟨⟨first, name, spec, split⟩, _⟩ := unreported
  obtain ⟨event, member, returned⟩ := seen
  exact ⟨event, by rw [split]; simp [member], returned⟩

/-- The last event is the creation, or it is no report. -/
theorem Unreported.last {event : Event} {operation : Resource} {second : Trace}
    (unreported : Unreported (trace ++ [event]) operation second) :
    (second = [] ∧ ∃ name spec, event = ⟨.create .operation name spec, .ok operation⟩) ∨
      ∃ earlier, second = earlier ++ [event] ∧ Unreported trace operation earlier ∧
        Silent operation.uid event := by
  obtain ⟨⟨first, name, spec, split⟩, silent⟩ := unreported
  cases second using List.reverseRecOn with
  | nil =>
      obtain ⟨_, last⟩ := List.append_inj' split rfl
      exact .inl ⟨rfl, name, spec, (List.cons.inj last).1⟩
  | append_singleton earlier final =>
      rw [← List.cons_append, ← List.append_assoc] at split
      obtain ⟨same, last⟩ := List.append_inj' split rfl
      obtain rfl := (List.cons.inj last).1
      exact .inr ⟨earlier, rfl, ⟨⟨first, name, spec, same⟩, fun other member => silent other (by simp [member])⟩,
        silent event (by simp)⟩

/-- Two references that read the same name the same Operation. -/
theorem reference_uid {first second : Resource} (same : Json.Same first.reference second.reference) :
    first.uid = second.uid := by
  have found : Json.Object.get? [("name", .str second.name), ("uid", .str second.uid)] "uid" =
      some (.str second.uid) := rfl
  have read := Json.Same.get?_str same found
  simpa using read

theorem owner_truthy {owner : Json} {operation : Resource} (same : Json.Same owner operation.reference) :
    owner.truthy = true := by
  rw [← Json.truthy_canonical, same, Json.truthy_canonical]
  rfl

theorem value_str {fields : Object} {key text : String} :
    value fields key = .str text ↔ fields.get? key = some (.str text) := by
  rw [value]
  cases fields.get? key <;> simp

theorem terminal_iff {status : Object} :
    Api.terminalPhase status = true ↔ value status "phase" = .str "Succeeded" ∨ value status "phase" = .str "Failed" := by
  simp [Api.terminalPhase, value_str]

theorem terminal_decided {status : Object} (terminal : Api.terminalPhase status = true) : ¬Undecided status := by
  intro undecided
  rcases terminal_iff.mp terminal with phase | phase <;> simp [Undecided, phase] at undecided

/-- An Operation is referred to by its key and identity. -/
theorem reference_kept {old new : Resource} (key : Resource.schema.key old = Resource.schema.key new)
    (uid : old.uid = new.uid) : new.reference = old.reference := by
  have name : old.name = new.name := congrArg Prod.snd key
  rw [Resource.reference, Resource.reference, name, uid]

namespace Shared

/-- An Operation that its program has not reported on is stored, and runs. -/
theorem unreported_running (shared : Shared outside initial history world running) (aloof : Aloof outside)
    (start : initial.WellFormed Resource.schema) {actor : Nat} {operation : Resource} {second : Trace}
    (unreported : Unreported (localTrace actor history) operation second) :
    ∃ stored ∈ world.objects, stored.uid = operation.uid ∧ stored.kind = .operation ∧
      value stored.status "phase" = .str "Running" := by
  induction history using List.reverseRecOn generalizing world running second with
  | nil =>
      obtain ⟨⟨first, name, spec, split⟩, _⟩ := unreported
      simp at split
  | append_singleton earlier moment ih =>
      obtain ⟨before, programs, past, _⟩ := shared.last_cases
      -- what was stored before the last moment stays as it is, unless its program acts
      have carries : ∀ {silent : Trace}, Unreported (localTrace actor earlier) operation silent →
          (∀ event, moment.happening = .act actor event → Silent operation.uid event) →
          ∃ stored ∈ world.objects, stored.uid = operation.uid ∧ stored.kind = .operation ∧
            value stored.status "phase" = .str "Running" := by
        intro silent open' quiet
        obtain ⟨old, stored, uid, kind, phase⟩ := ih past open'
        obtain ⟨new, present, same, key⟩ := Shared.operation_kept shared past aloof start stored kind
        refine ⟨new, present, same.symm.trans uid, (congrArg Prod.fst key).symm.trans kind, ?_⟩
        rcases Shared.phase_kept shared past aloof start stored present same kind with
          kept | ⟨who, resource, status, reply, acted, named, resourceKind, reports, _, created, _⟩
        · rw [kept, phase]
        · have mine := Shared.created_once past aloof start created (uid ▸ open'.created)
          subst mine
          exact absurd reports (quiet _ acted resource status rfl resourceKind (named.trans uid))
      rcases localTrace_last actor earlier moment with ⟨event, acted, whole⟩ | ⟨others, whole⟩
      · rw [whole] at unreported
        rcases unreported.last with ⟨_, name, spec, created⟩ | ⟨middle, _, open', silent⟩
        · rw [created] at acted
          obtain ⟨_, stored, kind, phase⟩ := Shared.created_fresh shared past aloof start acted
          exact ⟨operation, stored, rfl, kind, phase⟩
        · refine carries open' fun other performed => ?_
          rw [acted] at performed
          cases performed
          exact silent
      · rw [whole] at unreported
        exact carries unreported fun event performed => absurd performed (others event)

/-- The phase of an Operation is the first one, or one that its program has reported. -/
theorem phase_reported (shared : Shared outside initial history world running) (aloof : Aloof outside)
    (start : initial.WellFormed Resource.schema) {actor : Nat} (created : Created (localTrace actor history) uid)
    {stored : Resource} (member : stored ∈ world.objects) (same : stored.uid = uid) :
    value stored.status "phase" = .str "Running" ∨ ∃ event ∈ localTrace actor history,
      ∃ resource status old, event.request = .patchStatus resource status ∧ resource.kind = .operation ∧
        resource.uid = uid ∧ "phase" ∈ status.map Prod.fst ∧
        value stored.status "phase" = value (Json.mergeFields old status) "phase" := by
  induction history using List.reverseRecOn generalizing world running stored with
  | nil =>
      obtain ⟨_, _, _, none, _⟩ := created
      simp at none
  | append_singleton earlier moment ih =>
      obtain ⟨before, programs, past, _⟩ := shared.last_cases
      rcases Created.last created with known | ⟨name, spec, operation, acted, named⟩
      · have issued : stored.uid ∈ before.issued := by
          obtain ⟨_, _, operation, given, named⟩ := known
          rw [same, ← named]
          exact (Api.Execution.agrees (Shared.surrounded past) aloof.orderly start (Created.issued given)).2
        have advances := Api.Execution.last_advances shared.surrounded (Shared.surrounded past) aloof.orderly start
        obtain ⟨old, kept, _, uids⟩ := advances.identities stored member issued
        have oldKind := Shared.created_kind past aloof start known kept (uids.trans same)
        rcases Shared.phase_kept shared past aloof start kept member uids oldKind with
          equal | ⟨who, resource, status, reply, acted, sameUid, sameKind, named, _, theirs, merged⟩
        · rw [equal]
          refine (ih past known kept (uids.trans same)).imp id ?_
          rintro ⟨event, performed, reports⟩
          exact ⟨event, by rw [localTrace_append]; simp [performed], reports⟩
        · have sameUid := sameUid.trans (uids.trans same)
          have mine := Shared.created_once past aloof start theirs ((uids.trans same).symm ▸ known)
          subst mine
          refine .inr ⟨⟨.patchStatus resource status, reply⟩, mem_localTrace.mpr ⟨moment.after, ?_⟩, resource, status,
            old.status, rfl, sameKind, sameUid, named, by rw [merged]⟩
          rw [← acted]
          simp
      · obtain ⟨_, present, _, phase⟩ := Shared.created_fresh shared past aloof start acted
        obtain rfl := (Shared.formed shared aloof start).identical member present (same.trans named.symm)
        exact .inl phase

theorem open_operation (shared : Shared outside initial history world running) (aloof : Aloof outside)
    (start : initial.WellFormed Resource.schema) {actor : Nat} {operation stored : Resource} {second : Trace}
    (unreported : Unreported (localTrace actor history) operation second) (member : stored ∈ world.objects)
    (uid : stored.uid = operation.uid) : Api.terminalPhase stored.status = false := by
  obtain ⟨found, present, same, _, phase⟩ := shared.unreported_running aloof start unreported
  obtain rfl := (shared.formed aloof start).identical member present (uid.trans same.symm)
  refine Bool.eq_false_iff.mpr fun terminal => terminal_decided terminal (.inl phase)

/-- A claim that is new was read from the store as it is now. -/
theorem holding_new (shared : Shared outside initial (history ++ [moment]) world running) (aloof : Aloof outside)
    (start : initial.WellFormed Resource.schema) {actor : Nat} {operation : Resource} {target : String}
    (holding : Holding (localTrace actor (history ++ [moment])) operation target) :
    Holding (localTrace actor history) operation target ∨ ∃ stored ∈ world.objects, stored.uid = target ∧
      Json.Same (value stored.status "operationRef") operation.reference := by
  obtain ⟨second, unreported, claimed, seen, named, owned⟩ := holding
  rcases localTrace_last actor history moment with ⟨event, acted, whole⟩ | ⟨others, whole⟩
  · rw [whole] at unreported
    rcases unreported.last with ⟨empty, _⟩ | ⟨middle, rfl, open', silent⟩
    · obtain ⟨_, none, _⟩ := seen
      rw [empty] at none
      cases none
    · obtain ⟨found, listed, returned⟩ := seen
      rcases List.mem_append.mp listed with before' | last
      · exact .inl ⟨middle, open', claimed, ⟨found, before', returned⟩, named, owned⟩
      · obtain rfl := List.mem_singleton.mp last
        exact .inr ⟨claimed, shared.returned_stored aloof start acted returned, named, owned⟩
  · rw [whole] at unreported
    exact .inl ⟨second, unreported, claimed, seen, named, owned⟩

/-- A target that was read as claimed keeps its owner while that is not reported on. -/
theorem holding_owner (shared : Shared outside initial history world running) (aloof : Aloof outside)
    (start : initial.WellFormed Resource.schema) {actor : Nat} {operation : Resource} {target : String}
    (holding : Holding (localTrace actor history) operation target) {stored : Resource}
    (member : stored ∈ world.objects) (uid : stored.uid = target) :
    Json.Same (value stored.status "operationRef") operation.reference := by
  induction history using List.reverseRecOn generalizing world running stored with
  | nil =>
      obtain ⟨_, ⟨⟨first, name, spec, split⟩, _⟩, _⟩ := holding
      simp at split
  | append_singleton earlier moment ih =>
      obtain ⟨before, programs, past, _⟩ := shared.last_cases
      rcases shared.holding_new aloof start holding with held | ⟨found, present, same, owned⟩
      · have issued : stored.uid ∈ before.issued := by
          obtain ⟨middle, open', version, found, same, _⟩ := held
          have known := (Api.Execution.agrees (Shared.surrounded past) aloof.orderly start
            (open'.seen found)).2
          rw [uid, ← same]
          exact known
        have advances := Api.Execution.last_advances shared.surrounded (Shared.surrounded past) aloof.orderly start
        obtain ⟨old, kept, _, same⟩ := advances.identities stored member issued
        have owner := ih past held kept (same.trans uid)
        rcases Shared.owner_kept shared past aloof start kept member same with
          equal | free | ⟨closed, present, kind, terminal, closes⟩
        · rw [equal]
          exact owner
        · rw [holds_eq, owner_truthy owner] at free
          cases free
        · rw [closes] at owner
          obtain ⟨_, unreported, _⟩ := holding
          have still := shared.open_operation aloof start unreported present (reference_uid owner)
          rw [still] at terminal
          cases terminal
      · obtain rfl := (shared.formed aloof start).identical member present (uid.trans same.symm)
        exact owned

/-- No two programs hold one target, and none holds it by two Operations. -/
theorem holding_once (shared : Shared outside initial history world running) (aloof : Aloof outside)
    (start : initial.WellFormed Resource.schema) {first second : Nat} {operation another : Resource}
    {target : String} (holding : Holding (localTrace first history) operation target)
    (other : Holding (localTrace second history) another target) :
    first = second ∧ operation.uid = another.uid := by
  induction history using List.reverseRecOn generalizing world running with
  | nil =>
      obtain ⟨_, ⟨⟨_, _, _, split⟩, _⟩, _⟩ := holding
      simp at split
  | append_singleton earlier moment ih =>
      obtain ⟨before, programs, past, _⟩ := shared.last_cases
      have agree : ∀ stored ∈ world.objects, stored.uid = target →
          first = second ∧ operation.uid = another.uid := by
        intro stored member uid
        have owner := shared.holding_owner aloof start holding member uid
        have same := reference_uid (owner.symm.trans (shared.holding_owner aloof start other member uid))
        obtain ⟨_, mine, _⟩ := holding
        obtain ⟨_, yours, _⟩ := other
        exact ⟨shared.created_once aloof start mine.created (same ▸ yours.created), same⟩
      rcases shared.holding_new aloof start holding with held | ⟨stored, member, uid, _⟩
      · rcases shared.holding_new aloof start other with held' | ⟨stored, member, uid, _⟩
        · exact ih past held held'
        · exact agree stored member uid
      · exact agree stored member uid

/-- The target belongs to a running Operation of the program, and to no other. -/
structure Owned (history : List (Moment interface Store)) (world : Store) (actor : Nat) (operation : Resource)
    (target : String) : Prop where
  running : ∃ stored ∈ world.objects, stored.uid = operation.uid ∧ stored.kind = .operation ∧
    value stored.status "phase" = .str "Running"
  named : ∀ stored ∈ world.objects, stored.uid = target →
    Json.Same (value stored.status "operationRef") operation.reference
  alone : ∀ another other, Holding (localTrace another history) other target →
    another = actor ∧ other.uid = operation.uid

theorem owned (shared : Shared outside initial history world running) (aloof : Aloof outside)
    (start : initial.WellFormed Resource.schema) {actor : Nat} {operation : Resource} {target : String}
    (holding : Holding (localTrace actor history) operation target) :
    Owned history world actor operation target := by
  constructor
  · obtain ⟨second, unreported, _⟩ := holding
    exact shared.unreported_running aloof start unreported
  · exact fun stored member uid => shared.holding_owner aloof start holding member uid
  · exact fun another other held => shared.holding_once aloof start held holding

/-! ## Outcomes -/

/-- An outcome that was reported stays as it is. -/
theorem outcome_kept {past later : List (Moment interface Store)} {others : List (Program interface α)}
    (shared : Shared outside initial (past ++ later) world running)
    (earlier : Shared outside initial past before others) (aloof : Aloof outside)
    (start : initial.WellFormed Resource.schema) {old : Resource} (stored : old ∈ before.objects)
    (kind : old.kind = .operation) (decided : ¬Undecided old.status) :
    ∃ new ∈ world.objects, old.uid = new.uid ∧ Resource.schema.key old = Resource.schema.key new ∧
      value new.status "phase" = value old.status "phase" := by
  induction later using List.reverseRecOn generalizing world running with
  | nil =>
      rw [List.append_nil] at shared
      obtain rfl := shared.world_unique earlier
      exact ⟨old, stored, rfl, rfl, rfl⟩
  | append_singleton middle moment ih =>
      rw [← List.append_assoc] at shared
      obtain ⟨between, programs, upTo, _⟩ := shared.last_cases
      obtain ⟨version, present, uid, key, phase⟩ := ih upTo
      have versionKind : version.kind = .operation := (congrArg Prod.fst key).symm.trans kind
      obtain ⟨new, member, same, sameKey⟩ := Shared.operation_kept shared upTo aloof start present versionKind
      refine ⟨new, member, uid.trans same, key.trans sameKey, ?_⟩
      rcases Shared.phase_kept shared upTo aloof start present member same versionKind with
        kept | ⟨_, _, _, _, _, _, _, _, undecided, _⟩
      · rw [kept, phase]
      · rw [Undecided, phase] at undecided
        exact absurd undecided decided

/-- A target that has an owner changes hands only after the outcome of that owner
was reported. -/
theorem owner_kept_while_open {past later : List (Moment interface Store)} {others : List (Program interface α)}
    (shared : Shared outside initial (past ++ later) world running)
    (earlier : Shared outside initial past before others) (aloof : Aloof outside)
    (start : initial.WellFormed Resource.schema) {old new : Resource} (stored : old ∈ before.objects)
    (owned : holds old.status "operationRef" = true) (present : new ∈ world.objects) (uid : old.uid = new.uid) :
    value new.status "operationRef" = value old.status "operationRef" ∨
      ∃ closed ∈ world.objects, closed.kind = .operation ∧ Api.terminalPhase closed.status = true ∧
        value old.status "operationRef" = closed.reference := by
  induction later using List.reverseRecOn generalizing world running new with
  | nil =>
      rw [List.append_nil] at shared
      obtain rfl := shared.world_unique earlier
      obtain rfl := (shared.formed aloof start).identical stored present uid
      exact .inl rfl
  | append_singleton middle moment ih =>
      rw [← List.append_assoc] at shared
      obtain ⟨between, programs, upTo, _⟩ := shared.last_cases
      have known : new.uid ∈ between.issued := by
        rw [← uid]
        have advances := Api.Execution.advances (Shared.surrounded upTo) earlier.surrounded aloof.orderly start
        exact advances.issued ((earlier.formed aloof start).issued old stored)
      have advances := Api.Execution.last_advances (Shared.surrounded shared) (Shared.surrounded upTo)
        aloof.orderly start
      obtain ⟨version, kept, _, same⟩ := advances.identities new present known
      rcases ih upTo kept (uid.trans same.symm) with equal | ⟨closed, member, kind, terminal, reference⟩
      · rcases Shared.owner_kept shared upTo aloof start kept present same with
          unchanged | free | ⟨closed, member, kind, terminal, reference⟩
        · exact .inl (unchanged.trans equal)
        · rw [holds_eq, equal, ← holds_eq, owned] at free
          cases free
        · exact .inr ⟨closed, member, kind, terminal, equal ▸ reference⟩
      · obtain ⟨final, last, sameUid, key, phase⟩ := Shared.outcome_kept shared upTo aloof
          start member kind (terminal_decided terminal)
        refine .inr ⟨final, last, (congrArg Prod.fst key).symm.trans kind, ?_, ?_⟩
        · rw [terminal_iff, phase]
          exact terminal_iff.mp terminal
        · rw [reference, reference_kept key sameUid]

end Shared

end Custody

end Homelab
