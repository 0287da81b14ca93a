import Homelab.Interaction.Runs

namespace Interaction

/-! # Evaluation in a fixed world

Against a world that answers every request the same way each time, a program
has one run and one result.
-/

variable {I : Interface} {α β : Type}

namespace Program

variable (answer : (request : I.Request) → I.Reply request)

def eval : Program I α → α
  | .done result => result
  | .call request resume => (resume (answer request)).eval

/-- The events of the one run. -/
def path : Program I α → Trace I
  | .done _ => []
  | .call request resume => ⟨request, answer request⟩ :: (resume (answer request)).path

/-- The run up to the first request of a kind. -/
def pause (stop : I.Request → Bool) : Program I α → Option (Trace I × I.Request)
  | .done _ => none
  | .call request resume =>
      if stop request then some ([], request)
      else ((resume (answer request)).pause stop).map fun found =>
        (⟨request, answer request⟩ :: found.1, found.2)

@[simp] theorem eval_done (result : α) : (done result : Program I α).eval answer = result := rfl

@[simp] theorem eval_call (request : I.Request) (resume : I.Reply request → Program I α) :
    (call request resume).eval answer = (resume (answer request)).eval answer := rfl

@[simp] theorem eval_bind (program : Program I α) (next : α → Program I β) :
    (program.bind next).eval answer = (next (program.eval answer)).eval answer := by
  induction program with
  | done result => rfl
  | call request resume ih => exact ih (answer request)

theorem ran_eval (program : Program I α) : program.Ran (program.path answer) (program.eval answer) := by
  induction program with
  | done result => exact .refl _
  | call request resume ih => exact .call (ih (answer request))

theorem path_answered (program : Program I α) :
    ∀ event ∈ program.path answer, event.reply = answer event.request := by
  induction program with
  | done result => simp [path]
  | call request resume ih =>
      intro event member
      cases List.mem_cons.mp member with
      | inl same =>
          subst same
          rfl
      | inr later => exact ih (answer request) event later

variable {answer}

/-- A run that the world has answered is the one that is evaluated. -/
theorem Ran.eval {program : Program I α} {events : Trace I} {result : α} (ran : program.Ran events result)
    (answered : ∀ event ∈ events, event.reply = answer event.request) : program.eval answer = result := by
  induction program generalizing events with
  | done value => exact (ran_done.mp ran).2
  | call request resume ih =>
      obtain ⟨reply, rest, split, later⟩ := ran_call.mp ran
      subst split
      have first : reply = answer request := answered ⟨request, reply⟩ (by simp)
      subst first
      exact ih _ later fun event member => answered event (by simp [member])

theorem pending_pause {program : Program I α} {stop : I.Request → Bool} {events : Trace I}
    {request : I.Request} (found : program.pause answer stop = some (events, request)) :
    program.Pending events request ∧ stop request = true ∧
      ∀ event ∈ events, event.reply = answer event.request := by
  induction program generalizing events with
  | done result => cases found
  | call first resume ih =>
      unfold pause at found
      split at found
      · rename_i stopped
        cases found
        exact ⟨⟨resume, .refl _⟩, stopped, by simp⟩
      · obtain ⟨⟨later, last⟩, paused, same⟩ := Option.map_eq_some_iff.mp found
        cases same
        obtain ⟨⟨rest, steps⟩, stopped, answered⟩ := ih _ paused
        refine ⟨⟨rest, .call steps⟩, stopped, fun event member => ?_⟩
        cases List.mem_cons.mp member with
        | inl same =>
            subst same
            rfl
        | inr inside => exact answered event inside

end Program

namespace Op

variable (answer : (request : I.Request) → I.Reply request)

def eval (body : Op I α) : Except I.Failure α := Program.eval answer body

@[simp] theorem eval_pure (value : α) : eval answer (pure value : Op I α) = .ok value := rfl

@[simp] theorem eval_throw (failure : I.Failure) :
    eval answer (@throw (no_index I.Failure) (Op I) _ α failure) = .error failure := rfl

@[simp] theorem eval_ofExcept (result : Except I.Failure α) : eval answer (liftM result : Op I α) = result := rfl

@[simp] theorem eval_perform (request : I.Request) :
    @eval I (no_index (I.Value request)) answer (perform request) = answer request := rfl

@[simp] theorem eval_bind (first : Op I α) (next : α → Op I β) :
    eval answer (first >>= next) = eval answer first >>= fun value => eval answer (next value) := by
  refine (Program.eval_bind answer first _).trans ?_
  unfold eval
  cases Program.eval answer first <;> rfl

@[simp] theorem eval_tryCatch (body : Op I α) (handler : I.Failure → Op I α) :
    eval answer (@tryCatch (no_index I.Failure) (Op I) _ α body handler) =
      match eval answer body with
      | .ok result => .ok result
      | .error failure => eval answer (handler failure) := by
  refine (Program.eval_bind answer body _).trans ?_
  change Program.eval answer (match eval answer body with
    | .ok result => .done (.ok result)
    | .error failure => handler failure) = _
  cases eval answer body <;> rfl

theorem ran_eval {body : Op I α} {value : α} (evaluated : eval answer body = .ok value) :
    body.Ran (Program.path answer body) value := by
  have ran := Program.ran_eval answer body
  rwa [show Program.eval answer body = .ok value from evaluated] at ran

theorem Ran.eval {body : Op I α} {events : Trace I} {value : α} {answer : (request : I.Request) → I.Reply request}
    (ran : body.Ran events value) (answered : ∀ event ∈ events, event.reply = answer event.request) :
    eval answer body = .ok value :=
  Program.Ran.eval ran answered

theorem Reached.eval {body : Op I α} {events : Trace I} {value : α} {answer : (request : I.Request) → I.Reply request}
    (reached : body.Reached events value) (answered : ∀ event ∈ events, event.reply = answer event.request) :
    eval answer body = .ok value := by
  obtain ⟨part, inside, ran⟩ := reached
  exact ran.eval fun event member => answered event (inside member)

theorem eval_mapM (next : α → Op I β) (items : List α) :
    eval answer (items.mapM next) = items.mapM fun item => eval answer (next item) := by
  induction items with
  | nil => rfl
  | cons item rest ih => simp only [List.mapM_cons, eval_bind, ih, eval_pure]; rfl

theorem eval_foldlM (next : β → α → Op I β) (start : β) (items : List α) :
    eval answer (items.foldlM next start) = items.foldlM (fun state item => eval answer (next state item)) start := by
  induction items generalizing start with
  | nil => rfl
  | cons item rest ih =>
      simp only [List.foldlM_cons, eval_bind]
      congr 1
      funext state
      exact ih state

end Op

end Interaction
