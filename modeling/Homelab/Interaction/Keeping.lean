import Homelab.Interaction.Runs

namespace Interaction

variable {I : Interface} {α β σ : Type} {contract : Contract I}

/-! # Bodies that keep a contract wherever they start -/

namespace Op

/-- Whatever happened before, every request is one that the contract allows. -/
def Keeps (contract : Contract I) (body : Op I α) : Prop :=
  ∀ trace, body.Meets contract trace (fun _ _ => True) fun _ _ => True

namespace Keeps

theorem pure (value : α) : Keeps contract (Pure.pure value : Op I α) := fun _ => True.intro

theorem throw (failure : I.Failure) :
    Keeps contract (@MonadExceptOf.throw (no_index I.Failure) (Op I) _ α failure) := fun _ => True.intro

theorem lift (result : Except I.Failure α) : Keeps contract (liftM result : Op I α) :=
  fun _ => meets_ofExcept.mpr ⟨fun _ _ => True.intro, fun _ _ => True.intro⟩

theorem perform {request : I.Request} (allowed : ∀ trace, contract.guard trace request) :
    Op.Keeps (α := I.Value request) contract (Op.perform request) :=
  fun trace => meets_perform.mpr ⟨allowed trace, fun _ _ => True.intro, fun _ _ => True.intro⟩

theorem bind {first : Op I α} {next : α → Op I β} (head : first.Keeps contract)
    (tail : ∀ value, (next value).Keeps contract) : (first >>= next).Keeps contract :=
  fun trace => (head trace).bind (fun later value _ _ => tail value later) fun _ _ _ _ => True.intro

theorem check {result : Except I.Failure α} {next : α → Op I β}
    (tail : ∀ value, result = .ok value → (next value).Keeps contract) :
    Keeps contract (liftM result >>= next) :=
  fun trace => Meets.check (fun value read => tail value read trace) fun _ => True.intro

theorem tryCatch {body : Op I α} {handler : I.Failure → Op I α} (inside : body.Keeps contract)
    (handled : ∀ failure, (handler failure).Keeps contract) :
    Keeps contract (@MonadExceptOf.tryCatch (no_index I.Failure) (Op I) _ α body handler) := by
  intro trace
  apply meets_tryCatch.mpr
  exact (inside trace).mono (fun _ _ _ _ => True.intro) fun later failure _ _ => handled failure later

theorem attempt {body : Op I α} (inside : body.Keeps contract) : body.attempt.Keeps contract := by
  intro trace
  apply meets_attempt.mpr
  exact (inside trace).mono (fun _ _ _ _ => True.intro) fun _ _ _ _ => True.intro

/-- A body of requests that are always allowed. -/
theorem of_confined {body : Op I α} {allowed : I.Request → Prop} (confined : body.Confined allowed)
    (permitted : ∀ trace request, allowed request → contract.guard trace request) : body.Keeps contract := by
  intro trace
  have meets : body.Meets contract trace (fun later _ => Extends allowed trace later)
      fun later _ => Extends allowed trace later :=
    Confined.meets confined fun later request _ => permitted later request
  exact meets.mono (fun _ _ _ _ => True.intro) fun _ _ _ _ => True.intro

end Keeps

end Op

namespace Action

def Keeps (contract : Contract I) (body : Action I σ α) : Prop :=
  ∀ trace state, body.Meets contract trace state (fun _ _ _ => True) fun _ _ _ => True

namespace Keeps

theorem pure (value : α) : Keeps contract (Pure.pure value : Action I σ α) := fun _ _ => True.intro

theorem lift {body : Op I α} (keeps : body.Keeps contract) : Keeps contract (liftM body : Action I σ α) :=
  fun trace _ => meets_lift.mpr (keeps trace)

theorem bind {first : Action I σ α} {next : α → Action I σ β} (head : first.Keeps contract)
    (tail : ∀ value, (next value).Keeps contract) : (first >>= next).Keeps contract := by
  intro trace state
  apply meets_bind.mpr
  exact (head trace state).mono (fun later value between _ _ => tail value later between) fun _ _ _ _ _ => True.intro

theorem within {body : Action I σ α} (keeps : body.Keeps contract) (state : σ) :
    (Action.within state body).Keeps contract :=
  fun trace => meets_within.mpr
    ((keeps trace state).mono (fun _ _ _ _ _ => True.intro) fun _ _ _ _ _ => True.intro)

end Keeps

end Action

end Interaction
