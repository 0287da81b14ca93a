import Mathlib.Logic.Basic

namespace Interaction

/-! # Programs that talk to a world they do not own

A program is the tree of the requests it may issue.  Nothing is assumed about
who answers a request: the continuation covers every reply, failures included,
so one tree describes all runs of the program against any environment and any
schedule of other programs.
-/

/-- The requests of a family of programs, the value each one returns, and the
exceptions a request may raise instead. -/
structure Interface where
  Request : Type
  Value : Request → Type
  Failure : Type

abbrev Interface.Reply (I : Interface) (request : I.Request) : Type :=
  Except I.Failure (I.Value request)

/-- A request together with the reply it received. -/
structure Event (I : Interface) where
  request : I.Request
  reply : I.Reply request

abbrev Trace (I : Interface) := List (Event I)

inductive Program (I : Interface) (α : Type) where
  | done (result : α)
  | call (request : I.Request) (resume : I.Reply request → Program I α)

variable {I : Interface} {α β γ σ τ : Type}

namespace Program

def bind : Program I α → (α → Program I β) → Program I β
  | .done result, next => next result
  | .call request resume, next => .call request (fun reply => (resume reply).bind next)

@[simp] theorem done_bind (result : α) (next : α → Program I β) :
    (done result).bind next = next result := rfl

@[simp] theorem call_bind (request : I.Request) (resume : I.Reply request → Program I α)
    (next : α → Program I β) :
    (call request resume).bind next = call request (fun reply => (resume reply).bind next) := rfl

theorem bind_assoc (program : Program I α) (first : α → Program I β) (second : β → Program I γ) :
    (program.bind first).bind second = program.bind (fun result => (first result).bind second) := by
  induction program with
  | done result => rfl
  | call request resume ih =>
      simp only [call_bind]
      exact congrArg _ (funext ih)

theorem bind_done (program : Program I α) : program.bind done = program := by
  induction program with
  | done result => rfl
  | call request resume ih =>
      simp only [call_bind]
      exact congrArg _ (funext ih)

end Program

/-- A computation that may raise an exception of the interface. -/
def Op (I : Interface) (α : Type) := Program I (Except I.Failure α)

/-- A computation that may raise and also updates a local value. As in a language
with mutable variables, updates made before an exception stay visible after it. -/
def Action (I : Interface) (σ α : Type) := σ → Program I (Except I.Failure α × σ)

namespace Op

protected def pure (result : α) : Op I α := Program.done (.ok result)

protected def bind (first : Op I α) (next : α → Op I β) : Op I β :=
  Program.bind first fun
    | .ok result => next result
    | .error failure => Program.done (.error failure)

instance : Monad (Op I) where
  pure := Op.pure
  bind := Op.bind

theorem bind_assoc (first : Op I α) (second : α → Op I β) (third : β → Op I γ) :
    (first >>= second) >>= third = first >>= fun result => second result >>= third := by
  refine Eq.trans (Program.bind_assoc _ _ _) (congrArg (Program.bind first) (funext fun outcome => ?_))
  cases outcome <;> rfl

theorem bind_pure_comp (body : Op I α) : body >>= pure = body := by
  change Program.bind body _ = body
  refine Eq.trans (congrArg (Program.bind body) (funext fun outcome => ?_)) (Program.bind_done body)
  cases outcome <;> rfl

instance : LawfulMonad (Op I) := LawfulMonad.mk' (Op I)
  (fun body => bind_pure_comp body)
  (fun _ _ => rfl)
  (fun first second third => bind_assoc first second third)

def perform (request : I.Request) : Op I (I.Value request) :=
  Program.call request Program.done

def ofExcept (result : Except I.Failure α) : Op I α := Program.done result

instance : MonadLift (Except I.Failure) (Op I) := ⟨ofExcept⟩

def attempt (body : Op I α) : Op I (Except I.Failure α) :=
  Program.bind body (fun result => Program.done (.ok result))

instance : MonadExceptOf I.Failure (Op I) where
  throw failure := Program.done (.error failure)
  tryCatch body handler := Program.bind body fun
    | .ok result => Program.done (.ok result)
    | .error failure => handler failure

end Op

namespace Action

protected def pure (result : α) : Action I σ α := fun state => .done (.ok result, state)

protected def bind (first : Action I σ α) (next : α → Action I σ β) : Action I σ β := fun state =>
  (first state).bind fun
    | (.ok result, state) => next result state
    | (.error failure, state) => .done (.error failure, state)

instance : Monad (Action I σ) where
  pure := Action.pure
  bind := Action.bind

def lift (body : Op I α) : Action I σ α := fun state =>
  Program.bind body (fun result => .done (result, state))

instance : MonadLift (Op I) (Action I σ) := ⟨lift⟩

def load : Action I σ σ := fun state => .done (.ok state, state)

def store (state : σ) : Action I σ PUnit := fun _ => .done (.ok ⟨⟩, state)

instance : MonadExceptOf I.Failure (Action I σ) where
  throw failure := fun state => .done (.error failure, state)
  tryCatch body handler := fun state => (body state).bind fun
    | (.ok result, state) => .done (.ok result, state)
    | (.error failure, state) => handler failure state

/-- The outcome of a body as a value, together with its updates. -/
def attempt (body : Action I σ α) : Action I σ (Except I.Failure α) := fun state =>
  (body state).bind fun (outcome, state) => .done (.ok outcome, state)

/-- Run a computation on a fresh local value. Its exception is returned, not
raised: the caller decides, and still sees the final local value. -/
def within (start : τ) (body : Action I τ α) : Op I (Except I.Failure α × τ) :=
  (body start).bind (fun outcome => .done (.ok outcome))

end Action

end Interaction
