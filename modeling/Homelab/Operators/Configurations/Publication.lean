import Homelab.Operators.ServerOperation

namespace Homelab.Configurations

open Json (Object)
open ServerOperation (verifyOperation)

/-! # What an executor owns and publishes -/

/-- A released or replaced host claim is not permission to continue old work. -/
def verifyClaims : List Resource → Task Unit
  | [] => pure ()
  | server :: rest => do
      let latest ← Api.get .server server.name
      demand (latest.uid = server.uid && holds server.status "operationRef" &&
          Json.Same (value latest.status "operationRef") (value server.status "operationRef"))
        (.operator "OwnershipChanged" "Server operation ownership changed")
      let _ ← verifyOperation latest
      verifyClaims rest

/-- The collection that a target is served from. -/
def targetCollection (kind : Kind) : Except Exn Kind :=
  if kind = .server ∨ kind = .kubeCluster then .ok kind else .error (keyError kind.text)

def publishAttempts (target : Resource) (status : Object) (collection : Kind) : Nat → Task Unit
  | 0 => throw (.operator "InputsChanged" "Target status conflicted; observations were not published")
  | attempts + 1 => do
      let latest ← Api.get collection target.name
      demand (latest.uid = target.uid &&
          latest.metadata.generation = target.metadata.generation && !latest.terminating)
        (.operator "InputsChanged" "Target changed before reporting observations")
      let result ← (Api.patchStatus latest status).attempt
      match result with
      | .ok _ => pure ()
      | .error (.http 409) => publishAttempts target status collection attempts
      | .error failure => throw failure

/-- Publish verified target observations under its original lifetime and generation. -/
def publishTargetStatus (target : Resource) (status : Object) : Task Unit := do
  let collection ← targetCollection target.kind
  publishAttempts target status collection 5

end Homelab.Configurations
