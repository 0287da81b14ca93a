import Homelab.Api.Server
import Homelab.Interaction.Evaluation

namespace Homelab.Api

open Interaction (Op Program)

/-! # A fixed state of the API

Every request finds the same resources, writes are refused, and the host
answers the same call in the same way.
-/

def fixed (store : Store) (host : (call : Host) → Except Exn call.Value) :
    (request : Request) → interface.Reply request
  | .get kind name =>
      match store.find? Resource.schema (kind, name) with
      | some resource => .ok resource
      | none => .error (.http 404)
  | .list kind => .ok (store.objects.filter fun resource => resource.kind = kind)
  | .patchStatus _ _ => .error (.http 409)
  | .create _ _ _ => .error (.http 409)
  | .host call => host call

variable {store : Store} {host : (call : Host) → Except Exn call.Value}

/-- A fixed state is one of the ways in which the API may answer. -/
theorem fixed_serve (request : Request) : Serve store request (fixed store host request) store := by
  cases request with
  | get kind name =>
      cases present : store.find? Resource.schema (kind, name) with
      | none =>
          simp only [fixed, present]
          exact .failed
      | some resource =>
          simp only [fixed, present]
          exact .found present
  | list kind => exact .listed
  | patchStatus resource status => exact .failed
  | create kind name spec => exact .failed
  | host call =>
      cases answered : host call with
      | error failure =>
          simp only [fixed, answered]
          exact .failed
      | ok result =>
          simp only [fixed, answered]
          exact .performed

theorem fixed_honest {α : Type} {body : Task α} :
    ∀ event ∈ Program.path (fixed store host) body, Honest event.request event.reply := by
  intro event member
  rw [Program.path_answered _ body event member]
  exact (fixed_serve event.request).honest

end Homelab.Api
