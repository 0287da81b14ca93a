import Homelab.Api.History

namespace Homelab.Api

open Interaction (Contract Execution Moment Program localTrace)

/-! # Patches of what was read

Whoever only patches versions that the API has returned gets back exactly what
the patch makes of them.
-/

/-- A granted patch changed the very version that it was computed from. -/
def Exact : (request : Request) → interface.Reply request → Prop
  | .patchStatus resource status, .ok (updated : Resource) =>
      updated.status = Json.mergeFields resource.status status
  | _, _ => True

def exactly (outside : Store → Store → Prop) : Interaction.Environment interface Store where
  serve before request reply after := Serve before request reply after ∧ Exact request reply
  outside := outside

theorem Serve.exact {before after : Store} {request : Request} {reply : interface.Reply request}
    (served : Serve before request reply after)
    (agrees : ∀ resource status, request = .patchStatus resource status →
      Versioned.Agrees Resource.schema before resource) : Exact request reply := by
  cases served with
  | applied written =>
      obtain ⟨current, found, rfl, _⟩ := patch_eq_some written
      obtain rfl := (agrees _ _ rfl).current found
      rfl
  | failed => cases ‹Request› <;> exact True.intro
  | _ => exact True.intro

/-- The programs may rely on what their own discipline ensures. -/
theorem Execution.exact {α : Type} {outside : Store → Store → Prop} {starts : Program interface α → Prop}
    {initial world : Store} {history : List (Moment interface Store)} {running : List (Program interface α)}
    (execution : Execution (surroundings outside) starts initial history world running) (orderly : Orderly outside)
    (start : initial.WellFormed Resource.schema) {contract : Contract interface}
    (meets : ∀ program, starts program → program.Meets contract [] fun _ _ => True)
    (patches : ∀ trace resource status, contract.guard trace (.patchStatus resource status) → Seen trace resource)
    (relied : ∀ before request reply after,
      (exactly outside).serve before request reply after → contract.rely request reply) :
    Execution (exactly outside) starts initial history world running := by
  induction execution with
  | init => exact .init
  | act past pending served ih =>
      refine .act ih pending ⟨served, served.exact fun resource status same => ?_⟩
      have guarded := ih.guarded relied meets pending
      rw [same] at guarded
      exact (Execution.agrees past orderly start (patches _ resource status guarded)).1
  | outside past changed ih => exact .outside ih changed
  | start past allowed ih => exact .start ih allowed

end Homelab.Api
