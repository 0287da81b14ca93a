import Homelab.Operators.Common

namespace Homelab

open Json (Object)

/-! # Observable, exclusive ownership of a target -/

namespace ServerOperation

/-- The name, the identity and the kind of a target. -/
def targetRef (target : Resource) : Json :=
  .obj [("kind", .str target.kind.text), ("name", .str target.name), ("uid", .str target.uid)]

def completionFields (phase message : String) : Object := [("phase", .str phase), ("message", .str message)]

def completeAttempts (operation : Resource) (phase message : String) : Nat → Task Unit
  | 0 => throw (runtimeError "Operation completion conflicted; inspect retained ownership")
  | attempts + 1 => do
      let latest ← Api.get .operation operation.name
      demand (latest.uid = operation.uid && Json.Same (.obj latest.spec) (.obj operation.spec))
        (runtimeError "Operation ownership changed; refusing completion")
      let phaseNow := value latest.status "phase"
      demand (phaseNow = .str "Running" || phaseNow = .str "Uncertain")
        (runtimeError "Operation already completed; refusing to overwrite its outcome")
      let result ← (Api.patchStatus latest (completionFields phase message)).attempt
      match result with
      | .ok _ => return ()
      | .error (.http 409) => completeAttempts operation phase message attempts
      | .error failure => throw failure

/-- Report a known outcome; the API atomically releases only terminal work. -/
def completeOperation (operation : Resource) (phase message : String) : Task Unit :=
  completeAttempts operation phase message 5

/-- Require the API-owned reference and exact reciprocal, actively running claim. -/
def verifyOperation (target : Resource) : Task Resource := do
  let reference ← jsonObject (value target.status "operationRef") "active Operation"
  let name ← jsonString (value reference "name") "Operation name"
  let operation ← Api.get .operation name
  demand (value reference "uid" = .str operation.uid &&
      value operation.status "phase" = .str "Running" &&
      Json.Same (value operation.spec "targetRef") (targetRef target))
    (.operator "OwnershipChanged" "The active Operation changed")
  return operation

/-- Publish public stage names without copying private Ansible output. -/
def operationProgress (target : Resource) (step : String) : Task Unit := do
  let operation ← verifyOperation target
  let _ ← Api.patchStatus operation [("currentStep", .str step)]
  return ()

/-- What an Operation on a target is created with. -/
def operationSpec (target : Resource) (action operator : String) (requestedBy : Option Json) : Object :=
  [("targetRef", targetRef target), ("action", .str action), ("operator", .str operator)] ++
    match requestedBy with
    | some origin => [("requestedBy", origin)]
    | none => []

/-- The target must still be the one of the snapshot, owned by the new Operation. -/
def checkClaim (snapshot operation claimed : Resource) : Except Exn Unit :=
  demand (claimed.uid = snapshot.uid &&
      Json.Same (value claimed.status "operationRef") operation.reference)
    (.operator "OwnershipChanged" "Target changed before execution")

/-- Complete an Operation by the way its body ended, and end that way. -/
def settle {α : Type} (operation : Resource) : Except Exn α → Task α
  | .ok result => do
      completeOperation operation "Succeeded" "Operation execution completed"
      return result
  | .error (.operator reason message) => do
      if reason = "RemoteWorkUncertain" then
        completeOperation operation "Uncertain" "Inspect remote work before resolution"
      else completeOperation operation "Failed" reason
      throw (.operator reason message)
  -- A killed local process or unclassified failure does not attest remote completion.
  | .error failure => do
      completeOperation operation "Uncertain" "Execution interrupted; inspect remote work"
      throw failure

/-- Create the Operation that owns a target, unless the target is owned already. -/
def acquire (snapshot : Resource) (action operator : String) (requestedBy : Option Json) :
    Task Resource := do
  let provisioning ← jsonObject ((snapshot.status.get? "provisioning").getD (.obj [])) "provisioning"
  demand (!(holds snapshot.status "operationRef" || holds provisioning "maintenance" ||
      holds provisioning "activeRunRef"))
    (.operator "OperationBusy" "Another operation owns the target")
  let id : String ← Host.run .uuid
  tryCatch (Api.create .operation ("operation-" ++ id) (operationSpec snapshot action operator requestedBy))
    fun
    | .http 409 => throw (.operator "OperationBusy" "Target changed or is already owned")
    | failure => throw failure

/-- Acquire one generic target and run a body that is given the claimed target
and its Operation; unknown remote outcomes always retain ownership. -/
def reservation {σ α : Type} (snapshot : Resource) (action operator : String) (requestedBy : Option Json)
    (collection : Kind) (body : Resource → Resource → Pass σ α) : Pass σ α := do
  let operation ← acquire snapshot action operator requestedBy
  let outcome ← (do
    let claimed ← Api.get collection snapshot.name
    checkClaim snapshot operation claimed
    body claimed operation : Pass σ α).attempt
  settle operation outcome

end ServerOperation

end Homelab
