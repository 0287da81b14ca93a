import Mathlib.Data.List.Forall2
import Homelab.Interaction.Contract

namespace Interaction

/-! # Complete runs

The events of a run of a composed program split at the points where one part
ends and the next begins.
-/

variable {I : Interface} {α β σ τ : Type} {contract : Contract I} {trace events : Trace I}

namespace Program

/-- `events` is a run of the program from its start to this result. -/
def Ran (program : Program I α) (events : Trace I) (result : α) : Prop :=
  program.Steps events (.done result)

@[simp] theorem ran_done {result other : α} :
    (done result : Program I α).Ran events other ↔ events = [] ∧ result = other := by
  constructor
  · intro ran
    cases ran
    exact ⟨rfl, rfl⟩
  · intro ⟨empty, same⟩
    subst empty same
    exact .refl _

theorem ran_call {request : I.Request} {resume : I.Reply request → Program I α} {result : α} :
    (call request resume).Ran events result ↔
      ∃ reply rest, events = ⟨request, reply⟩ :: rest ∧ (resume reply).Ran rest result := by
  constructor
  · intro ran
    cases ran with
    | call later => exact ⟨_, _, rfl, later⟩
  · intro ⟨reply, rest, split, later⟩
    subst split
    exact .call later

theorem ran_bind {program : Program I α} {next : α → Program I β} {result : β} :
    (program.bind next).Ran events result ↔
      ∃ first second middle, events = first ++ second ∧ program.Ran first middle ∧
        (next middle).Ran second result := by
  induction program generalizing events with
  | done middle =>
      constructor
      · intro ran
        exact ⟨[], events, middle, rfl, .refl _, ran⟩
      · intro ⟨first, second, middle', split, ended, ran⟩
        obtain ⟨empty, same⟩ := ran_done.mp ended
        subst empty same
        rw [split]
        exact ran
  | call request resume ih =>
      rw [call_bind, ran_call]
      constructor
      · intro ⟨reply, rest, split, ran⟩
        obtain ⟨first, second, middle, inner, ended, later⟩ := (ih reply).mp ran
        refine ⟨⟨request, reply⟩ :: first, second, middle, ?_, .call ended, later⟩
        rw [split, inner, List.cons_append]
      · intro ⟨first, second, middle, split, ended, later⟩
        obtain ⟨reply, rest, head, ended⟩ := ran_call.mp ended
        refine ⟨reply, rest ++ second, ?_, (ih reply).mpr ⟨rest, second, middle, rfl, ended, later⟩⟩
        rw [split, head, List.cons_append]

/-- A partial run of a composed program is one of its first part, or goes on
with the next one after that has ended. -/
theorem steps_bind {program : Program I α} {next : α → Program I β} {rest : Program I β}
    (steps : (program.bind next).Steps events rest) :
    (∃ middle, program.Steps events middle ∧ rest = middle.bind next) ∨
      ∃ first second result, events = first ++ second ∧ program.Ran first result ∧
        (next result).Steps second rest := by
  induction program generalizing events with
  | done result => exact .inr ⟨[], events, result, rfl, .refl _, steps⟩
  | call request resume ih =>
      rw [call_bind] at steps
      cases steps with
      | refl => exact .inl ⟨_, .refl _, rfl⟩
      | call later =>
          cases ih _ later with
          | inl inside =>
              obtain ⟨middle, inner, same⟩ := inside
              exact .inl ⟨middle, .call inner, same⟩
          | inr ended =>
              obtain ⟨first, second, result, split, ran, remaining⟩ := ended
              exact .inr ⟨_ :: first, second, result, by rw [split, List.cons_append], .call ran, remaining⟩

/-- The request that the program issues after these events. -/
def Pending (program : Program I α) (events : Trace I) (request : I.Request) : Prop :=
  ∃ resume, program.Steps events (.call request resume)

/-- A request that is pending in a composed program is pending in the first
part, or the first part has ended and it is pending in the next one. -/
theorem Pending.bind {program : Program I α} {next : α → Program I β} {request : I.Request}
    (pending : (program.bind next).Pending events request) :
    program.Pending events request ∨
      ∃ first second middle, events = first ++ second ∧ program.Ran first middle ∧
        (next middle).Pending second request := by
  obtain ⟨resume, steps⟩ := pending
  induction program generalizing events with
  | done middle => exact .inr ⟨[], events, middle, rfl, .refl _, resume, steps⟩
  | call request' resume' ih =>
      rw [call_bind] at steps
      cases steps with
      | refl => exact .inl ⟨_, .refl _⟩
      | call later =>
          cases ih _ later with
          | inl pending =>
              obtain ⟨inner, pending⟩ := pending
              exact .inl ⟨inner, .call pending⟩
          | inr ended =>
              obtain ⟨first, second, middle, split, ended, pending⟩ := ended
              exact .inr ⟨_ :: first, second, middle, by rw [split, List.cons_append], .call ended, pending⟩

theorem not_pending_done {value : α} {request : I.Request} :
    ¬(done value : Program I α).Pending events request := by
  intro ⟨_, impossible⟩
  cases impossible

/-- What is bound to a program only at its end issues no request. -/
theorem Pending.inside {program : Program I α} {next : α → Program I β} {request : I.Request}
    (pending : (program.bind next).Pending events request)
    (silent : ∀ value later, ¬(next value).Pending later request) : program.Pending events request := by
  cases pending.bind with
  | inl inside => exact inside
  | inr ended =>
      obtain ⟨_, later, value, _, _, pending⟩ := ended
      exact (silent value later pending).elim

/-- A pending request is one that the contract allows. -/
theorem Meets.allows {program : Program I α} {post : Trace I → α → Prop} {request : I.Request}
    (meets : program.Meets contract trace post) (pending : program.Pending events request)
    (honest : ∀ event ∈ events, contract.rely event.request event.reply) :
    contract.guard (trace ++ events) request := by
  obtain ⟨resume, steps⟩ := pending
  exact meets.pending steps honest

/-- What a program owes when it ends holds of a complete run. -/
theorem Meets.ran {program : Program I α} {post : Trace I → α → Prop} {result : α}
    (meets : program.Meets contract trace post) (ran : program.Ran events result)
    (honest : ∀ event ∈ events, contract.rely event.request event.reply) : post (trace ++ events) result :=
  meets.steps ran honest

end Program

/-- A confined program keeps a contract that permits its kind of requests, and
leaves a complete run of itself. -/
theorem Program.Meets.of_only_ran {program : Program I α} {start : Trace I} {allowed : I.Request → Prop}
    (confined : program.Meets (Contract.only allowed) start fun _ _ => True)
    (permitted : ∀ later request, Extends allowed trace later → allowed request → contract.guard later request) :
    program.Meets contract trace fun later result => ∃ events, later = trace ++ events ∧
      (∀ event ∈ events, allowed event.request) ∧ (∀ event ∈ events, contract.rely event.request event.reply) ∧
      program.Ran events result := by
  induction program generalizing start trace with
  | done result => exact ⟨[], by simp, by simp, by simp, .refl _⟩
  | call request resume ih =>
      refine ⟨permitted _ _ (.refl trace) confined.1, fun reply honest => ?_⟩
      have first : Extends allowed trace (trace ++ [⟨request, reply⟩]) := .event trace confined.1
      have rest := ih reply (confined.2 reply True.intro)
        fun later request more => permitted later request (first.trans more)
      refine rest.mono fun later result _ left => ?_
      obtain ⟨events, rfl, inside, answered, ran⟩ := left
      refine ⟨⟨request, reply⟩ :: events, by simp, ?_, ?_, .call ran⟩
      · exact List.forall_mem_cons.mpr ⟨confined.1, inside⟩
      · exact List.forall_mem_cons.mpr ⟨honest, answered⟩

namespace Op

/-- `events` is a run of the computation from its start to this value. -/
def Ran (body : Op I α) (events : Trace I) (value : α) : Prop := Program.Ran body events (.ok value)

theorem ran_pure {value other : α} :
    Ran (pure value : Op I α) events other ↔ events = [] ∧ value = other := by
  rw [Ran]
  exact Program.ran_done.trans (and_congr_right fun _ => by rw [Except.ok.injEq])

theorem ran_throw {failure : I.Failure} {value : α} :
    ¬Ran (@throw (no_index I.Failure) (Op I) _ α failure) events value := by
  intro ran
  obtain ⟨_, impossible⟩ := Program.ran_done.mp ran
  cases impossible

theorem ran_ofExcept {result : Except I.Failure α} {value : α} :
    Ran (liftM result : Op I α) events value ↔ events = [] ∧ result = .ok value := Program.ran_done

theorem ran_perform {request : I.Request} {value : I.Value request} :
    Ran (perform request) events value ↔ events = [⟨request, .ok value⟩] := by
  refine Program.ran_call.trans ⟨?_, ?_⟩
  · intro ⟨reply, rest, split, ran⟩
    obtain ⟨empty, same⟩ := Program.ran_done.mp ran
    subst empty same
    exact split
  · intro split
    exact ⟨.ok value, [], split, .refl _⟩

theorem ran_bind {first : Op I α} {next : α → Op I β} {value : β} :
    Ran (first >>= next) events value ↔
      ∃ earlier later middle, events = earlier ++ later ∧ first.Ran earlier middle ∧
        (next middle).Ran later value := by
  refine Program.ran_bind.trans ⟨?_, ?_⟩
  · intro ⟨earlier, later, outcome, split, ended, ran⟩
    cases outcome with
    | ok middle => exact ⟨earlier, later, middle, split, ended, ran⟩
    | error failure => exact (ran_throw ran).elim
  · intro ⟨earlier, later, middle, split, ended, ran⟩
    exact ⟨earlier, later, .ok middle, split, ended, ran⟩

/-- A check before the rest adds no events. -/
theorem ran_check {result : Except I.Failure α} {next : α → Op I β} {value : β} :
    Ran (liftM result >>= next) events value ↔ ∃ middle, result = .ok middle ∧ (next middle).Ran events value := by
  rw [ran_bind]
  constructor
  · intro ⟨earlier, later, middle, split, checked, ran⟩
    obtain ⟨empty, same⟩ := ran_ofExcept.mp checked
    subst empty
    exact ⟨middle, same, split ▸ ran⟩
  · intro ⟨middle, same, ran⟩
    exact ⟨[], events, middle, rfl, ran_ofExcept.mpr ⟨rfl, same⟩, ran⟩

theorem ran_tryCatch {body : Op I α} {handler : I.Failure → Op I α} {value : α} :
    Ran (@tryCatch (no_index I.Failure) (Op I) _ α body handler) events value ↔ body.Ran events value ∨
      ∃ earlier later failure, events = earlier ++ later ∧ Program.Ran body earlier (.error failure) ∧
        (handler failure).Ran later value := by
  refine Program.ran_bind.trans ⟨?_, ?_⟩
  · intro ⟨earlier, later, outcome, split, ended, ran⟩
    cases outcome with
    | ok result =>
        obtain ⟨empty, same⟩ := Program.ran_done.mp ran
        subst empty
        rw [List.append_nil] at split
        rw [split]
        cases same
        exact .inl ended
    | error failure => exact .inr ⟨earlier, later, failure, split, ended, ran⟩
  · intro ran
    cases ran with
    | inl ended => exact ⟨events, [], .ok value, (List.append_nil events).symm, ended, .refl _⟩
    | inr caught =>
        obtain ⟨earlier, later, failure, split, ended, ran⟩ := caught
        exact ⟨earlier, later, .error failure, split, ended, ran⟩

/-- A handler that always raises again changes no value. -/
theorem ran_rethrow {body : Op I α} {handler : I.Failure → Op I α} {value : α}
    (ran : Ran (@tryCatch (no_index I.Failure) (Op I) _ α body handler) events value)
    (raises : ∀ failure later, ¬(handler failure).Ran later value) : body.Ran events value := by
  cases ran_tryCatch.mp ran with
  | inl ended => exact ended
  | inr caught =>
      obtain ⟨_, later, failure, _, _, ran⟩ := caught
      exact (raises failure later ran).elim

/-- A run of the computation to this value is found among the events. -/
def Reached (body : Op I α) (events : Trace I) (value : α) : Prop :=
  ∃ part, part ⊆ events ∧ body.Ran part value

theorem Ran.reached {value : α} {body : Op I α} (ran : body.Ran events value) : body.Reached events value :=
  ⟨events, fun _ member => member, ran⟩

theorem Reached.bind {first : Op I α} {next : α → Op I β} {value : β}
    (reached : Reached (first >>= next) events value) :
    ∃ middle, first.Reached events middle ∧ (next middle).Reached events value := by
  obtain ⟨part, inside, ran⟩ := reached
  obtain ⟨earlier, later, middle, split, ended, rest⟩ := ran_bind.mp ran
  subst split
  obtain ⟨before, after⟩ := List.append_subset.mp inside
  exact ⟨middle, ⟨earlier, before, ended⟩, later, after, rest⟩

theorem Reached.check {result : Except I.Failure α} {next : α → Op I β} {value : β}
    (reached : Reached (liftM result >>= next) events value) :
    ∃ middle, result = .ok middle ∧ (next middle).Reached events value := by
  obtain ⟨part, inside, ran⟩ := reached
  obtain ⟨middle, passed, ran⟩ := ran_check.mp ran
  exact ⟨middle, passed, part, inside, ran⟩

theorem Reached.done {value other : α} (reached : Reached (pure value : Op I α) events other) : value = other := by
  obtain ⟨part, _, ran⟩ := reached
  exact (ran_pure.mp ran).2

theorem Reached.lifted {result : Except I.Failure α} {value : α}
    (reached : Reached (liftM result : Op I α) events value) : result = .ok value := by
  obtain ⟨part, _, ran⟩ := reached
  exact (ran_ofExcept.mp ran).2

theorem Reached.perform {request : I.Request} {value : I.Value request}
    (reached : Reached (Op.perform request) events value) : ⟨request, .ok value⟩ ∈ events := by
  obtain ⟨part, inside, ran⟩ := reached
  exact inside (by rw [ran_perform.mp ran]; exact List.mem_singleton.mpr rfl)

theorem Reached.rethrow {body : Op I α} {handler : I.Failure → Op I α} {value : α}
    (reached : Reached (@tryCatch (no_index I.Failure) (Op I) _ α body handler) events value)
    (raises : ∀ failure later, ¬(handler failure).Ran later value) : body.Reached events value := by
  obtain ⟨part, inside, ran⟩ := reached
  exact ⟨part, inside, ran_rethrow ran raises⟩

theorem Reached.mapM {next : α → Op I β} {items : List α} {results : List β}
    (reached : (items.mapM next).Reached events results) :
    List.Forall₂ (fun item result => (next item).Reached events result) items results := by
  induction items generalizing results with
  | nil =>
      rw [List.mapM_nil] at reached
      rw [← reached.done]
      exact .nil
  | cons item rest ih =>
      rw [List.mapM_cons] at reached
      obtain ⟨first, head, reached⟩ := reached.bind
      obtain ⟨others, tail, reached⟩ := reached.bind
      rw [← reached.done]
      exact .cons head (ih tail)

/-- The request that the computation issues after these events. -/
def Pending (body : Op I α) (events : Trace I) (request : I.Request) : Prop :=
  Program.Pending body events request

/-- A request that is pending in a sequence is pending in its first part, or after it. -/
theorem Pending.bind {first : Op I α} {next : α → Op I β} {request : I.Request}
    (pending : Pending (first >>= next) events request) :
    first.Pending events request ∨
      ∃ earlier later middle, events = earlier ++ later ∧ first.Ran earlier middle ∧
        (next middle).Pending later request := by
  cases Program.Pending.bind pending with
  | inl inside => exact .inl inside
  | inr ended =>
      obtain ⟨earlier, later, outcome, split, ended, pending⟩ := ended
      cases outcome with
      | ok middle => exact .inr ⟨earlier, later, middle, split, ended, pending⟩
      | error failure =>
          obtain ⟨_, impossible⟩ := pending
          cases impossible

theorem pending_perform {request other : I.Request} :
    Pending (perform request) events other ↔ events = [] ∧ other = request := by
  constructor
  · intro ⟨resume, steps⟩
    cases steps with
    | refl => exact ⟨rfl, rfl⟩
    | call later => cases later
  · intro ⟨empty, same⟩
    subst empty same
    exact ⟨_, .refl _⟩

theorem not_pending_ofExcept {result : Except I.Failure α} {request : I.Request} :
    ¬Pending (liftM result : Op I α) events request := by
  intro ⟨resume, steps⟩
  cases steps

/-- A check issues no request. -/
theorem Pending.check {result : Except I.Failure α} {next : α → Op I β} {request : I.Request}
    (pending : Pending (liftM result >>= next) events request) :
    ∃ middle, result = .ok middle ∧ (next middle).Pending events request := by
  cases pending.bind with
  | inl inside => exact (not_pending_ofExcept inside).elim
  | inr ended =>
      obtain ⟨earlier, later, middle, split, checked, rest⟩ := ended
      obtain ⟨empty, same⟩ := ran_ofExcept.mp checked
      subst empty
      exact ⟨middle, same, split ▸ rest⟩

theorem pending_attempt {body : Op I α} {request : I.Request} (pending : Pending body.attempt events request) :
    body.Pending events request :=
  Program.Pending.inside pending fun _ _ => Program.not_pending_done

variable {ok : Trace I → α → Prop} {raised : Trace I → I.Failure → Prop} {body : Op I α}

/-- What a computation owes when it returns holds of a complete run. -/
theorem Meets.ran {value : α} (meets : body.Meets contract trace ok raised) (ran : body.Ran events value)
    (honest : ∀ event ∈ events, contract.rely event.request event.reply) : ok (trace ++ events) value := by
  have owed := Program.Meets.ran meets ran honest
  exact owed

theorem Meets.allows {request : I.Request} (meets : body.Meets contract trace ok raised)
    (pending : body.Pending events request)
    (honest : ∀ event ∈ events, contract.rely event.request event.reply) :
    contract.guard (trace ++ events) request :=
  Program.Meets.allows meets pending honest

/-- What a confined body adds to a trace: its own kind of requests, answered as
the contract promises, and a run to its value when it returns one. -/
structure Added (contract : Contract I) (allowed : I.Request → Prop) (trace later events : Trace I) : Prop where
  split : later = trace ++ events
  inside : ∀ event ∈ events, allowed event.request
  honest : ∀ event ∈ events, contract.rely event.request event.reply

theorem Confined.meets_ran {allowed : I.Request → Prop} (confined : body.Confined allowed)
    (permitted : ∀ later request, Extends allowed trace later → allowed request → contract.guard later request) :
    body.Meets contract trace
      (fun later value => ∃ events, Added contract allowed trace later events ∧ body.Ran events value)
      fun later _ => ∃ events, Added contract allowed trace later events := by
  have trivial : Program.Meets (Contract.only allowed) body trace fun _ _ => True :=
    Program.Meets.mono (confined trace) fun _ _ _ _ => True.intro
  refine Program.Meets.mono (trivial.of_only_ran permitted) fun later outcome _ left => ?_
  obtain ⟨events, split, inside, honest, ran⟩ := left
  cases outcome with
  | ok value => exact ⟨events, ⟨split, inside, honest⟩, ran⟩
  | error failure => exact ⟨events, split, inside, honest⟩

/-! ## Confined parts -/

namespace Confined

variable {allowed : I.Request → Prop}

theorem pending {body : Op I α} {request : I.Request} (confined : body.Confined allowed)
    (pending : body.Pending events request) : allowed request :=
  (confined []).allows pending fun _ _ => True.intro

theorem pure (value : α) : Confined allowed (Pure.pure value : Op I α) := fun _ => True.intro

theorem throw (failure : I.Failure) :
    Confined allowed (@MonadExceptOf.throw (no_index I.Failure) (Op I) _ α failure) := fun _ => True.intro

theorem bind {first : Op I α} {next : α → Op I β} (head : first.Confined allowed)
    (tail : ∀ value, (next value).Confined allowed) : (first >>= next).Confined allowed := by
  intro trace
  refine (head trace).bind (fun later value _ _ => tail value later) fun _ _ _ _ => True.intro

theorem check {result : Except I.Failure α} {next : α → Op I β}
    (tail : ∀ value, result = .ok value → (next value).Confined allowed) :
    Confined allowed (liftM result >>= next) := by
  intro trace
  exact Meets.check (fun value read => tail value read trace) fun _ => True.intro

theorem lift (result : Except I.Failure α) : Confined allowed (liftM result : Op I α) := by
  intro trace
  exact meets_ofExcept.mpr ⟨fun _ _ => True.intro, fun _ _ => True.intro⟩

theorem perform {request : I.Request} (permitted : allowed request) :
    Op.Confined (α := I.Value request) allowed (Op.perform request) := by
  intro trace
  exact meets_perform.mpr ⟨permitted, fun _ _ => True.intro, fun _ _ => True.intro⟩

theorem tryCatch {body : Op I α} {handler : I.Failure → Op I α} (inside : body.Confined allowed)
    (handled : ∀ failure, (handler failure).Confined allowed) :
    Confined allowed (@MonadExceptOf.tryCatch (no_index I.Failure) (Op I) _ α body handler) := by
  intro trace
  apply meets_tryCatch.mpr
  exact (inside trace).mono (fun _ _ _ _ => True.intro) fun later failure _ _ => handled failure later

theorem attempt {body : Op I α} (inside : body.Confined allowed) : body.attempt.Confined allowed := by
  intro trace
  apply meets_attempt.mpr
  exact (inside trace).mono (fun _ _ _ _ => True.intro) fun _ _ _ _ => True.intro

theorem mapM {next : α → Op I β} {items : List α} (each : ∀ item ∈ items, (next item).Confined allowed) :
    (items.mapM next).Confined allowed :=
  meets_mapM each

theorem foldlM {next : β → α → Op I β} {items : List α} {start : β}
    (each : ∀ state item, (next state item).Confined allowed) : (items.foldlM next start).Confined allowed := by
  induction items generalizing start with
  | nil => exact pure start
  | cons item rest ih => exact bind (each start item) fun _ => ih

end Confined

end Op

namespace Action

variable {state final : σ}

/-- `events` is a run of the action from `state` to this value and `final`. -/
def Ran (body : Action I σ α) (state : σ) (events : Trace I) (value : α) (final : σ) : Prop :=
  Program.Ran (body state) events (.ok value, final)

/-- A partial run of a sequence stays in its first part, or goes on after it. -/
theorem steps_bind {first : Action I σ α} {next : α → Action I σ β} {rest : Program I (Except I.Failure β × σ)}
    (steps : Program.Steps ((first >>= next) state) events rest) :
    (∃ middle, Program.Steps (first state) events middle) ∨
      ∃ earlier later value between, events = earlier ++ later ∧ first.Ran state earlier value between ∧
        Program.Steps (next value between) later rest := by
  cases Program.steps_bind steps with
  | inl inside =>
      obtain ⟨middle, inner, _⟩ := inside
      exact .inl ⟨middle, inner⟩
  | inr ended =>
      obtain ⟨earlier, later, outcome, split, ran, remaining⟩ := ended
      obtain ⟨failure | value, between⟩ := outcome
      · cases remaining
        rw [List.append_nil] at split
        exact .inl ⟨_, split ▸ ran⟩
      · exact .inr ⟨earlier, later, value, between, split, ran, remaining⟩

theorem steps_lift {body : Op I α} {rest : Program I (Except I.Failure α × σ)}
    (steps : Program.Steps ((liftM body : Action I σ α) state) events rest) :
    ∃ middle, Program.Steps body events middle := by
  cases Program.steps_bind steps with
  | inl inside =>
      obtain ⟨middle, inner, _⟩ := inside
      exact ⟨middle, inner⟩
  | inr ended =>
      obtain ⟨earlier, later, outcome, split, ran, remaining⟩ := ended
      cases remaining
      rw [List.append_nil] at split
      exact ⟨_, split ▸ ran⟩

theorem steps_attempt {body : Action I σ α} {rest : Program I (Except I.Failure (Except I.Failure α) × σ)}
    (steps : Program.Steps (body.attempt state) events rest) : ∃ middle, Program.Steps (body state) events middle := by
  cases Program.steps_bind steps with
  | inl inside =>
      obtain ⟨middle, inner, _⟩ := inside
      exact ⟨middle, inner⟩
  | inr ended =>
      obtain ⟨earlier, later, outcome, split, ran, remaining⟩ := ended
      cases remaining
      rw [List.append_nil] at split
      exact ⟨_, split ▸ ran⟩

/-- The outcome of an attempt is how its body ended. -/
theorem ran_outcome {body : Action I σ α} {outcome : Except I.Failure α} :
    body.attempt.Ran state events outcome final ↔ Program.Ran (body state) events (outcome, final) := by
  refine Program.ran_bind.trans ⟨?_, ?_⟩
  · intro ⟨earlier, later, (result, between), split, ended, ran⟩
    obtain ⟨empty, same⟩ := Program.ran_done.mp ran
    cases same
    subst empty
    rw [List.append_nil] at split
    exact split ▸ ended
  · intro ended
    exact ⟨events, [], (outcome, final), (List.append_nil events).symm, ended, .refl _⟩

theorem ran_bind {first : Action I σ α} {next : α → Action I σ β} {value : β} :
    Ran (first >>= next) state events value final ↔
      ∃ earlier later middle between, events = earlier ++ later ∧ first.Ran state earlier middle between ∧
        (next middle).Ran between later value final := by
  refine Program.ran_bind.trans ⟨?_, ?_⟩
  · intro ⟨earlier, later, outcome, split, ended, ran⟩
    obtain ⟨middle | failure, between⟩ := outcome
    · obtain ⟨_, impossible⟩ := Program.ran_done.mp ran
      cases impossible
    · exact ⟨earlier, later, failure, between, split, ended, ran⟩
  · intro ⟨earlier, later, middle, between, split, ended, ran⟩
    exact ⟨earlier, later, (.ok middle, between), split, ended, ran⟩

theorem ran_lift {body : Op I α} {value : α} :
    Ran (liftM body : Action I σ α) state events value final ↔ body.Ran events value ∧ state = final := by
  refine Program.ran_bind.trans ⟨?_, ?_⟩
  · intro ⟨earlier, later, outcome, split, ended, ran⟩
    obtain ⟨empty, same⟩ := Program.ran_done.mp ran
    cases same
    subst empty
    rw [List.append_nil] at split
    exact ⟨split ▸ ended, rfl⟩
  · intro ⟨ended, same⟩
    exact ⟨events, [], .ok value, (List.append_nil events).symm, ended, Program.ran_done.mpr ⟨rfl, by rw [same]⟩⟩

theorem ran_check {result : Except I.Failure α} {next : α → Action I σ β} {value : β} :
    Ran (liftM result >>= next) state events value final ↔
      ∃ middle, result = .ok middle ∧ (next middle).Ran state events value final := by
  rw [ran_bind]
  constructor
  · intro ⟨earlier, later, middle, between, split, checked, ran⟩
    obtain ⟨checked, same⟩ := ran_lift.mp checked
    obtain ⟨empty, passed⟩ := Op.ran_ofExcept.mp checked
    subst empty same
    exact ⟨middle, passed, split ▸ ran⟩
  · intro ⟨middle, passed, ran⟩
    exact ⟨[], events, middle, state, rfl, ran_lift.mpr ⟨Op.ran_ofExcept.mpr ⟨rfl, passed⟩, rfl⟩, ran⟩

theorem ran_attempt {body : Action I σ α} {value : α} :
    body.attempt.Ran state events (.ok value) final ↔ body.Ran state events value final := by
  refine Program.ran_bind.trans ⟨?_, ?_⟩
  · intro ⟨earlier, later, (result, between), split, ended, ran⟩
    obtain ⟨empty, same⟩ := Program.ran_done.mp ran
    cases same
    subst empty
    rw [List.append_nil] at split
    exact split ▸ ended
  · intro ended
    exact ⟨events, [], (.ok value, final), (List.append_nil events).symm, ended, .refl _⟩

theorem ran_within {start : σ} {body : Action I σ α} {value : α} :
    Op.Ran (within start body) events (.ok value, final) ↔ body.Ran start events value final := by
  refine Program.ran_bind.trans ⟨?_, ?_⟩
  · intro ⟨earlier, later, outcome, split, ended, ran⟩
    obtain ⟨empty, same⟩ := Program.ran_done.mp ran
    cases same
    subst empty
    rw [List.append_nil] at split
    exact split ▸ ended
  · intro ended
    exact ⟨events, [], (.ok value, final), (List.append_nil events).symm, ended, .refl _⟩

/-! ### Pending requests -/

/-- A request that is pending in a sequence is pending in its first part, or after it. -/
theorem pending_bind {first : Action I σ α} {next : α → Action I σ β} {request : I.Request}
    (pending : Program.Pending ((first >>= next) state) events request) :
    Program.Pending (first state) events request ∨
      ∃ earlier later value between, events = earlier ++ later ∧ first.Ran state earlier value between ∧
        Program.Pending (next value between) later request := by
  cases Program.Pending.bind pending with
  | inl inside => exact .inl inside
  | inr ended =>
      obtain ⟨earlier, later, outcome, split, ran, pending⟩ := ended
      obtain ⟨failure | value, between⟩ := outcome
      · obtain ⟨_, impossible⟩ := pending
        cases impossible
      · exact .inr ⟨earlier, later, value, between, split, ran, pending⟩

theorem pending_lift {body : Op I α} {request : I.Request}
    (pending : Program.Pending ((liftM body : Action I σ α) state) events request) : body.Pending events request :=
  Program.Pending.inside pending fun _ _ => Program.not_pending_done

theorem pending_attempt {body : Action I σ α} {request : I.Request}
    (pending : Program.Pending (body.attempt state) events request) : Program.Pending (body state) events request :=
  Program.Pending.inside pending fun _ _ => Program.not_pending_done

theorem pending_within {body : Action I σ α} {request : I.Request}
    (pending : Op.Pending (within state body) events request) : Program.Pending (body state) events request :=
  Program.Pending.inside pending fun _ _ => Program.not_pending_done

theorem pending_check {result : Except I.Failure α} {next : α → Action I σ β} {request : I.Request}
    (pending : Program.Pending ((liftM result >>= next : Action I σ β) state) events request) :
    ∃ middle, result = .ok middle ∧ Program.Pending (next middle state) events request := by
  cases pending_bind pending with
  | inl inside => exact (Op.not_pending_ofExcept (pending_lift inside)).elim
  | inr ended =>
      obtain ⟨earlier, later, middle, between, split, checked, rest⟩ := ended
      obtain ⟨checked, same⟩ := ran_lift.mp checked
      obtain ⟨empty, passed⟩ := Op.ran_ofExcept.mp checked
      subst empty same
      exact ⟨middle, passed, split ▸ rest⟩

end Action

end Interaction
