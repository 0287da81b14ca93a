import Homelab.Interaction.Program

namespace Interaction

/-! # Contracts

A contract is what one program owes to its surroundings: `guard` must hold of
every request it issues, given the trace of its own earlier events.  In return
the program may assume `rely` of every reply.  Since replies are otherwise
arbitrary, a program that meets its contract meets it under any interleaving.
-/

structure Contract (I : Interface) where
  guard : Trace I → I.Request → Prop
  rely : (request : I.Request) → I.Reply request → Prop

variable {I : Interface} {α β σ τ : Type} {contract : Contract I} {trace : Trace I}

namespace Program

/-- Every run from `trace` issues guarded requests only, and ends in `post`. -/
def Meets (contract : Contract I) : Program I α → Trace I → (Trace I → α → Prop) → Prop
  | .done result, trace, post => post trace result
  | .call request resume, trace, post =>
      contract.guard trace request ∧ ∀ reply, contract.rely request reply →
        (resume reply).Meets contract (trace ++ [⟨request, reply⟩]) post

@[simp] theorem meets_bind {program : Program I α} {next : α → Program I β} {post : Trace I → β → Prop} :
    (program.bind next).Meets contract trace post ↔
      program.Meets contract trace (fun later result => (next result).Meets contract later post) := by
  induction program generalizing trace with
  | done result => rfl
  | call request resume ih => simp only [call_bind, Meets, ih]

theorem Meets.mono {program : Program I α} {post weaker : Trace I → α → Prop}
    (meets : program.Meets contract trace post)
    (weaken : ∀ later result, trace <+: later → post later result → weaker later result) :
    program.Meets contract trace weaker := by
  induction program generalizing trace with
  | done result => exact weaken trace result (List.prefix_refl _) meets
  | call request resume ih =>
      refine ⟨meets.1, fun reply honest => ih reply (meets.2 reply honest) ?_⟩
      intro later result extended held
      exact weaken later result ((List.prefix_append _ _).trans extended) held

/-- `program.Steps trace rest`: answering the events of `trace` in order leaves `rest`. -/
inductive Steps : Program I α → Trace I → Program I α → Prop
  | refl (program : Program I α) : Steps program [] program
  | call {request : I.Request} {resume : I.Reply request → Program I α} {reply : I.Reply request}
      {trace : Trace I} {rest : Program I α} (later : Steps (resume reply) trace rest) :
      Steps (.call request resume) (⟨request, reply⟩ :: trace) rest

theorem Steps.trans {program middle rest : Program I α} {first second : Trace I}
    (left : Steps program first middle) (right : Steps middle second rest) :
    Steps program (first ++ second) rest := by
  induction left with
  | refl => exact right
  | call _ ih => exact .call (ih right)

theorem Meets.steps {program rest : Program I α} {events : Trace I} {post : Trace I → α → Prop}
    (meets : program.Meets contract trace post) (steps : program.Steps events rest)
    (honest : ∀ event ∈ events, contract.rely event.request event.reply) :
    rest.Meets contract (trace ++ events) post := by
  induction steps generalizing trace with
  | refl => simpa using meets
  | @call request resume reply events rest later ih =>
      have first := honest ⟨request, reply⟩ (by simp)
      have result := ih (meets.2 reply first)
        (fun event member => honest event (List.mem_cons_of_mem _ member))
      simpa using result

/-- Every request of a run satisfies its guard where it was issued. -/
theorem Meets.answered {program rest : Program I α} {earlier later : Trace I} {event : Event I}
    {post : Trace I → α → Prop} (meets : program.Meets contract trace post)
    (steps : program.Steps (earlier ++ event :: later) rest)
    (honest : ∀ event ∈ earlier, contract.rely event.request event.reply) :
    contract.guard (trace ++ earlier) event.request := by
  induction earlier generalizing program trace with
  | nil =>
      rw [List.nil_append] at steps
      cases steps with
      | call later => simpa using meets.1
  | cons first others ih =>
      rw [List.cons_append] at steps
      cases steps with
      | @call request resume reply events rest remaining =>
          have answered := meets.2 reply (honest ⟨request, reply⟩ (by simp))
          have guarded := ih answered remaining fun event member => honest event (List.mem_cons_of_mem _ member)
          simpa using guarded

/-- A contract is kept by whoever keeps a stricter one under weaker assumptions. -/
theorem Meets.weaken {wider : Contract I} {program : Program I α} {post : Trace I → α → Prop}
    (meets : program.Meets contract trace post)
    (guard : ∀ later request, trace <+: later → contract.guard later request → wider.guard later request)
    (rely : ∀ request reply, wider.rely request reply → contract.rely request reply) :
    program.Meets wider trace post := by
  induction program generalizing trace with
  | done result => exact meets
  | call request resume ih =>
      refine ⟨guard trace request (List.prefix_refl _) meets.1, fun reply honest => ?_⟩
      apply ih reply (meets.2 reply (rely request reply honest))
      intro later other extended
      exact guard later other ((List.prefix_append _ _).trans extended)

/-- A request that is pending after any prefix of a run satisfies its guard. -/
theorem Meets.pending {program : Program I α} {events : Trace I} {post : Trace I → α → Prop}
    {request : I.Request} {resume : I.Reply request → Program I α}
    (meets : program.Meets contract trace post) (steps : program.Steps events (.call request resume))
    (honest : ∀ event ∈ events, contract.rely event.request event.reply) :
    contract.guard (trace ++ events) request :=
  (meets.steps steps honest).1

end Program

namespace Op

/-- Both ways a computation can end: with a value or with an exception. -/
def Meets (contract : Contract I) (body : Op I α) (trace : Trace I)
    (ok : Trace I → α → Prop) (raised : Trace I → I.Failure → Prop) : Prop :=
  Program.Meets contract body trace fun later result =>
    match result with
    | .ok value => ok later value
    | .error failure => raised later failure

variable {ok : Trace I → β → Prop} {raised : Trace I → I.Failure → Prop}

theorem Meets.mono {body : Op I β} {ok' : Trace I → β → Prop} {raised' : Trace I → I.Failure → Prop}
    (meets : body.Meets contract trace ok raised)
    (onOk : ∀ later value, trace <+: later → ok later value → ok' later value)
    (onRaise : ∀ later failure, trace <+: later → raised later failure → raised' later failure) :
    body.Meets contract trace ok' raised' := by
  refine Program.Meets.mono meets fun later result extended held => ?_
  cases result with
  | ok value => exact onOk later value extended held
  | error failure => exact onRaise later failure extended held

@[simp] theorem meets_pure {value : β} :
    Meets contract (pure value : Op I β) trace ok raised ↔ ok trace value := Iff.rfl

@[simp] theorem meets_throw {failure : I.Failure} :
    Meets contract (@throw (no_index I.Failure) (Op I) _ β failure) trace ok raised ↔ raised trace failure := Iff.rfl

@[simp] theorem meets_ofExcept {result : Except I.Failure β} :
    Meets contract (liftM result : Op I β) trace ok raised ↔
      (∀ value, result = .ok value → ok trace value) ∧
        ∀ failure, result = .error failure → raised trace failure := by
  change (match result with | .ok value => ok trace value | .error failure => raised trace failure) ↔ _
  cases result <;> simp

@[simp] theorem meets_bind {first : Op I α} {next : α → Op I β} :
    Meets contract (first >>= next) trace ok raised ↔
      first.Meets contract trace
        (fun later value => (next value).Meets contract later ok raised) raised := by
  refine Iff.trans Program.meets_bind ?_
  constructor <;> intro meets <;>
    · refine Program.Meets.mono meets fun later result _ held => ?_
      cases result <;> exact held

@[simp] theorem meets_map {first : Op I α} {transform : α → β} :
    Meets contract (transform <$> first) trace ok raised ↔
      first.Meets contract trace (fun later value => ok later (transform value)) raised := by
  rw [map_eq_pure_bind, meets_bind]
  exact Iff.rfl

@[simp] theorem meets_perform {request : I.Request} {ok : Trace I → I.Value request → Prop} :
    @Meets I (no_index (I.Value request)) contract (perform request) trace ok raised ↔
      contract.guard trace request ∧
        (∀ value, contract.rely request (.ok value) → ok (trace ++ [⟨request, .ok value⟩]) value) ∧
        ∀ failure, contract.rely request (.error failure) →
          raised (trace ++ [⟨request, .error failure⟩]) failure := by
  change (_ ∧ _) ↔ _
  refine and_congr Iff.rfl ⟨fun meets => ⟨fun value => meets (.ok value), fun failure => meets (.error failure)⟩, ?_⟩
  rintro ⟨onOk, onRaise⟩ reply honest
  cases reply with
  | ok value => exact onOk value honest
  | error failure => exact onRaise failure honest

@[simp] theorem meets_tryCatch {body : Op I β} {handler : I.Failure → Op I β} :
    Meets contract (@tryCatch (no_index I.Failure) (Op I) _ β body handler) trace ok raised ↔
      body.Meets contract trace ok
        (fun later failure => (handler failure).Meets contract later ok raised) := by
  refine Iff.trans Program.meets_bind ?_
  constructor <;> intro meets <;>
    · refine Program.Meets.mono meets fun later result _ held => ?_
      cases result <;> exact held

@[simp] theorem meets_attempt {body : Op I β} {ok : Trace I → Except I.Failure β → Prop} :
    Meets contract body.attempt trace ok raised ↔
      body.Meets contract trace (fun later value => ok later (.ok value))
        (fun later failure => ok later (.error failure)) := by
  refine Iff.trans Program.meets_bind ?_
  constructor <;> intro meets <;>
    · refine Program.Meets.mono meets fun later result _ held => ?_
      cases result <;> exact held

/-- Sequencing by specification of the first part. -/
theorem Meets.bind {first : Op I α} {next : α → Op I β} {middle : Trace I → α → Prop}
    {failed : Trace I → I.Failure → Prop} (spec : first.Meets contract trace middle failed)
    (rest : ∀ later value, trace <+: later → middle later value →
      (next value).Meets contract later ok raised)
    (fail : ∀ later failure, trace <+: later → failed later failure → raised later failure) :
    Meets contract (first >>= next) trace ok raised :=
  meets_bind.mpr (spec.mono rest fail)

theorem Meets.check {result : Except I.Failure α} {next : α → Op I β}
    (rest : ∀ value, result = .ok value → (next value).Meets contract trace ok raised)
    (fail : ∀ failure, raised trace failure) :
    Meets contract (liftM result >>= next) trace ok raised :=
  meets_bind.mpr (meets_ofExcept.mpr ⟨rest, fun failure _ => fail failure⟩)

/-- The outcome of an attempted body, as a value. -/
def Outcome (middle : Trace I → α → Prop) (failed : Trace I → I.Failure → Prop) (later : Trace I) :
    Except I.Failure α → Prop
  | .ok value => middle later value
  | .error failure => failed later failure

theorem Meets.attempt {body : Op I α} {middle : Trace I → α → Prop}
    {failed : Trace I → I.Failure → Prop} (spec : body.Meets contract trace middle failed) :
    body.attempt.Meets contract trace (Outcome middle failed) fun _ _ => False :=
  meets_attempt.mpr spec

theorem meets_mapM {next : α → Op I β} {items : List α}
    (each : ∀ item ∈ items, ∀ trace, (next item).Meets contract trace (fun _ _ => True) (fun _ _ => True)) :
    ∀ trace, Meets contract (items.mapM next) trace (fun _ _ => True) (fun _ _ => True) := by
  induction items with
  | nil => exact fun trace => True.intro
  | cons item rest ih =>
      intro trace
      rw [List.mapM_cons, meets_bind]
      refine (each item (by simp) trace).mono (fun later value _ _ => ?_) fun _ _ _ _ => True.intro
      rw [meets_bind]
      refine (ih (fun item member => each item (by simp [member])) later).mono
        (fun _ _ _ _ => True.intro) fun _ _ _ _ => True.intro

end Op

namespace Action

def Meets (contract : Contract I) (body : Action I σ α) (trace : Trace I) (state : σ)
    (ok : Trace I → α → σ → Prop) (raised : Trace I → I.Failure → σ → Prop) : Prop :=
  (body state).Meets contract trace fun later outcome =>
    match outcome with
    | (.ok value, state) => ok later value state
    | (.error failure, state) => raised later failure state

variable {state : σ} {ok : Trace I → β → σ → Prop} {raised : Trace I → I.Failure → σ → Prop}

theorem Meets.mono {body : Action I σ β} {ok' : Trace I → β → σ → Prop}
    {raised' : Trace I → I.Failure → σ → Prop}
    (meets : body.Meets contract trace state ok raised)
    (onOk : ∀ later value state, trace <+: later → ok later value state → ok' later value state)
    (onRaise : ∀ later failure state, trace <+: later →
      raised later failure state → raised' later failure state) :
    body.Meets contract trace state ok' raised' := by
  refine Program.Meets.mono meets fun later outcome extended held => ?_
  obtain ⟨value | failure, state⟩ := outcome
  · exact onRaise later value state extended held
  · exact onOk later failure state extended held

@[simp] theorem meets_pure {value : β} :
    Meets contract (pure value : Action I σ β) trace state ok raised ↔ ok trace value state := Iff.rfl

@[simp] theorem meets_throw {failure : I.Failure} :
    Meets contract (@throw (no_index I.Failure) (Action I σ) _ β failure) trace state ok raised ↔
      raised trace failure state := Iff.rfl

@[simp] theorem meets_load {ok : Trace I → σ → σ → Prop} :
    Meets contract (load : Action I σ σ) trace state ok raised ↔ ok trace state state := Iff.rfl

@[simp] theorem meets_store {stored : σ} {ok : Trace I → PUnit → σ → Prop} :
    Meets contract (store stored : Action I σ PUnit) trace state ok raised ↔
      ok trace ⟨⟩ stored := Iff.rfl

@[simp] theorem meets_lift {body : Op I β} :
    Meets contract (liftM body : Action I σ β) trace state ok raised ↔
      body.Meets contract trace (fun later value => ok later value state)
        (fun later failure => raised later failure state) := by
  refine Iff.trans Program.meets_bind ?_
  constructor <;> intro meets <;>
    · refine Program.Meets.mono meets fun later result _ held => ?_
      cases result <;> exact held

@[simp] theorem meets_ofExcept {result : Except I.Failure β} :
    Meets contract (liftM result : Action I σ β) trace state ok raised ↔
      (∀ value, result = .ok value → ok trace value state) ∧
        ∀ failure, result = .error failure → raised trace failure state := by
  exact Iff.trans meets_lift Op.meets_ofExcept

@[simp] theorem meets_bind {first : Action I σ α} {next : α → Action I σ β} :
    Meets contract (first >>= next) trace state ok raised ↔
      first.Meets contract trace state
        (fun later value state => (next value).Meets contract later state ok raised) raised := by
  refine Iff.trans Program.meets_bind ?_
  constructor <;> intro meets <;>
    · refine Program.Meets.mono meets fun later outcome _ held => ?_
      obtain ⟨value | failure, state⟩ := outcome <;> exact held

@[simp] theorem meets_tryCatch {body : Action I σ β} {handler : I.Failure → Action I σ β} :
    Meets contract (@tryCatch (no_index I.Failure) (Action I σ) _ β body handler) trace state ok raised ↔
      body.Meets contract trace state ok
        (fun later failure state => (handler failure).Meets contract later state ok raised) := by
  refine Iff.trans Program.meets_bind ?_
  constructor <;> intro meets <;>
    · refine Program.Meets.mono meets fun later outcome _ held => ?_
      obtain ⟨value | failure, state⟩ := outcome <;> exact held

@[simp] theorem meets_attempt {body : Action I σ β} {ok : Trace I → Except I.Failure β → σ → Prop} :
    Meets contract body.attempt trace state ok raised ↔
      body.Meets contract trace state (fun later value state => ok later (.ok value) state)
        (fun later failure state => ok later (.error failure) state) := by
  refine Iff.trans Program.meets_bind ?_
  constructor <;> intro meets <;>
    · refine Program.Meets.mono meets fun later outcome _ held => ?_
      obtain ⟨value | failure, state⟩ := outcome <;> exact held

@[simp] theorem meets_within {start : σ} {body : Action I σ α}
    {ok : Trace I → Except I.Failure α × σ → Prop} {raised : Trace I → I.Failure → Prop} :
    Op.Meets contract (within start body) trace ok raised ↔
      body.Meets contract trace start (fun later value state => ok later (.ok value, state))
        (fun later failure state => ok later (.error failure, state)) := by
  refine Iff.trans Program.meets_bind ?_
  constructor <;> intro meets <;>
    · refine Program.Meets.mono meets fun later outcome _ held => ?_
      obtain ⟨value | failure, state⟩ := outcome <;> exact held

/-- Sequencing by specification of the first part. -/
theorem Meets.bind {first : Action I σ α} {next : α → Action I σ β} {middle : Trace I → α → σ → Prop}
    {failed : Trace I → I.Failure → σ → Prop} (spec : first.Meets contract trace state middle failed)
    (rest : ∀ later value state, trace <+: later → middle later value state →
      (next value).Meets contract later state ok raised)
    (fail : ∀ later failure state, trace <+: later → failed later failure state →
      raised later failure state) :
    Meets contract (first >>= next) trace state ok raised :=
  meets_bind.mpr (spec.mono rest fail)

theorem Meets.run {first : Op I α} {next : α → Action I σ β} {middle : Trace I → α → Prop}
    {failed : Trace I → I.Failure → Prop} (spec : first.Meets contract trace middle failed)
    (rest : ∀ later value, trace <+: later → middle later value →
      (next value).Meets contract later state ok raised)
    (fail : ∀ later failure, trace <+: later → failed later failure → raised later failure state) :
    Meets contract (liftM first >>= next) trace state ok raised :=
  meets_bind.mpr (meets_lift.mpr (spec.mono rest fail))

theorem Meets.check {result : Except I.Failure α} {next : α → Action I σ β}
    (rest : ∀ value, result = .ok value → (next value).Meets contract trace state ok raised)
    (fail : ∀ failure, raised trace failure state) :
    Meets contract (liftM result >>= next) trace state ok raised :=
  meets_bind.mpr (meets_ofExcept.mpr ⟨rest, fun failure _ => fail failure⟩)

theorem Meets.load {next : σ → Action I σ β}
    (rest : (next state).Meets contract trace state ok raised) :
    Meets contract (Action.load >>= next) trace state ok raised := rest

theorem Meets.store {stored : σ} {next : PUnit → Action I σ β}
    (rest : (next ⟨⟩).Meets contract trace stored ok raised) :
    Meets contract (Action.store stored >>= next) trace state ok raised := rest

end Action

/-! ## Programs confined to a kind of requests -/

/-- The contract that only allows some requests, at any time. -/
def Contract.only (allowed : I.Request → Prop) : Contract I where
  guard _ request := allowed request
  rely _ _ := True

@[simp] theorem Contract.only_guard (allowed : I.Request → Prop) (trace : Trace I)
    (request : I.Request) : (Contract.only allowed).guard trace request = allowed request := rfl

@[simp] theorem Contract.only_rely (allowed : I.Request → Prop) (request : I.Request)
    (reply : I.Reply request) : (Contract.only allowed).rely request reply = True := rfl

/-- `later` continues `trace` with allowed requests only. -/
def Extends (allowed : I.Request → Prop) (trace later : Trace I) : Prop :=
  ∃ events, later = trace ++ events ∧ ∀ event ∈ events, allowed event.request

variable {allowed : I.Request → Prop}

theorem Extends.refl (trace : Trace I) : Extends allowed trace trace := ⟨[], by simp, by simp⟩

theorem Extends.trans {first second third : Trace I} (left : Extends allowed first second)
    (right : Extends allowed second third) : Extends allowed first third := by
  obtain ⟨events, rfl, allowedEvents⟩ := left
  obtain ⟨more, rfl, allowedMore⟩ := right
  refine ⟨events ++ more, by simp, fun event member => ?_⟩
  rcases List.mem_append.mp member with member | member
  · exact allowedEvents event member
  · exact allowedMore event member

theorem Extends.event {event : Event I} (trace : Trace I) (permitted : allowed event.request) :
    Extends allowed trace (trace ++ [event]) :=
  ⟨[event], rfl, by simpa using permitted⟩

theorem Extends.prefix {later : Trace I} (extended : Extends allowed trace later) :
    trace <+: later := by
  obtain ⟨events, rfl, _⟩ := extended
  exact List.prefix_append _ _

theorem Extends.weaken {wider : I.Request → Prop} {later : Trace I}
    (extended : Extends allowed trace later) (weaken : ∀ request, allowed request → wider request) :
    Extends wider trace later := by
  obtain ⟨events, rfl, permitted⟩ := extended
  exact ⟨events, rfl, fun event member => weaken _ (permitted event member)⟩

/-- A confined program keeps any contract that permits its kind of requests
after its own kind of requests, and its run adds only such requests to the trace. -/
theorem Program.Meets.of_only {program : Program I α} {start : Trace I}
    (confined : program.Meets (Contract.only allowed) start fun _ _ => True)
    (permitted : ∀ later request, Extends allowed trace later → allowed request →
      contract.guard later request) :
    program.Meets contract trace fun later _ => Extends allowed trace later := by
  induction program generalizing start trace with
  | done result => exact Extends.refl trace
  | call request resume ih =>
      refine ⟨permitted _ _ (.refl trace) confined.1, fun reply _ => ?_⟩
      have first : Extends allowed trace (trace ++ [⟨request, reply⟩]) := .event trace confined.1
      have rest := ih reply (confined.2 reply True.intro)
        fun later request more => permitted later request (first.trans more)
      exact rest.mono fun later _ _ extended => first.trans extended

/-- The body issues allowed requests only. -/
abbrev Op.Confined (allowed : I.Request → Prop) (body : Op I α) : Prop :=
  ∀ trace, body.Meets (Contract.only allowed) trace (fun _ _ => True) (fun _ _ => True)

theorem Op.Confined.meets {body : Op I α} (confined : body.Confined allowed)
    (permitted : ∀ later request, Extends allowed trace later → allowed request →
      contract.guard later request) :
    body.Meets contract trace (fun later _ => Extends allowed trace later)
      (fun later _ => Extends allowed trace later) := by
  have trivial : Program.Meets (Contract.only allowed) body trace fun _ _ => True :=
    Program.Meets.mono (confined trace) fun _ _ _ _ => True.intro
  refine Program.Meets.mono (trivial.of_only permitted) fun later outcome _ extended => ?_
  cases outcome <;> exact extended

theorem Op.Confined.weaken {wider : I.Request → Prop} {body : Op I α} (confined : body.Confined allowed)
    (weaken : ∀ request, allowed request → wider request) : body.Confined wider := by
  intro trace
  have meets : body.Meets (Contract.only wider) trace (fun later _ => Extends allowed trace later)
      (fun later _ => Extends allowed trace later) :=
    confined.meets fun _ request _ permitted => weaken request permitted
  exact meets.mono (fun _ _ _ _ => True.intro) fun _ _ _ _ => True.intro

end Interaction
