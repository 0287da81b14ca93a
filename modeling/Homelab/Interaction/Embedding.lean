import Homelab.Interaction.Runs

namespace Interaction

/-! # A program of a part inside a larger interface -/

/-- The same interface with requests of one more kind. -/
@[reducible] def Interface.extend (I : Interface) (Extra : Type) (Value : Extra → Type) : Interface where
  Request := Extra ⊕ I.Request
  Value := Sum.elim Value I.Value
  Failure := I.Failure

/-- The request is one of the part. -/
def Interface.Inner (I : Interface) (Extra : Type) (Value : Extra → Type)
    (request : (I.extend Extra Value).Request) : Prop := Sum.isRight request = true

variable {I : Interface} {Extra : Type} {Value : Extra → Type} {α : Type}

def Program.embed : Program I α → Program (I.extend Extra Value) α
  | .done result => .done result
  | .call request resume => .call (.inr request) fun reply => (resume reply).embed

/-- A computation of the part, as one that could also issue the other requests. -/
def Op.embed (body : Op I α) : Op (I.extend Extra Value) α := Program.embed body

theorem Program.embed_meets (program : Program I α) (trace : Trace (I.extend Extra Value)) :
    (program.embed).Meets (Contract.only (I.Inner Extra Value)) trace fun _ _ => True := by
  induction program generalizing trace with
  | done result => exact True.intro
  | call request resume ih => exact ⟨rfl, fun reply _ => ih reply _⟩

theorem Op.Confined.embed (body : Op I α) :
    (body.embed : Op (I.extend Extra Value) α).Confined (I.Inner Extra Value) := by
  intro trace
  apply Program.Meets.mono (Program.embed_meets body trace)
  intro later outcome _ _
  cases outcome <;> exact True.intro

end Interaction
