import Homelab.Json.Overwrite
import Homelab.Operators.Configurations.Verified

namespace Homelab.Configurations

open Json (Object)
open Api (Honest)
open Interaction (Op Program)

/-! # The outputs that a Ready report leaves -/

/-- The public object that an execution read from its result file; a file that
is missing stands for the empty object. -/
def PublishedResult (directory : String) (trace : Trace) (published : Object) : Prop :=
  ⟨.host (.inspectPath (directory ++ "/result.json")), .ok PathState.missing⟩ ∈ trace ∧ published = [] ∨
    ⟨.host (.readJson (directory ++ "/result.json")), .ok (Json.obj published)⟩ ∈ trace

variable {env : Environment} {resolved : Plan} {source directory : String} {events : Trace}

theorem readPublicResult_ran {result : Option Object}
    (ran : (readPublicResult (directory ++ "/result.json")).Ran events result) :
    PublishedResult directory events (result.getD []) := by
  obtain ⟨inspecting, reading, state, split, inspected, ran⟩ := Op.ran_bind.mp ran
  have first := Op.ran_perform.mp inspected
  cases state with
  | missing =>
      obtain ⟨_, same⟩ := Op.ran_pure.mp ran
      subst same
      exact .inl ⟨by simp [split, first], rfl⟩
  | regular size =>
      obtain ⟨_, _, ran⟩ := Op.ran_check.mp ran
      have read := Op.ran_rethrow ran fun failure later => Op.ran_throw
      obtain ⟨_, _, document, inner, document', ran⟩ := Op.ran_bind.mp read
      obtain ⟨fields, isObject, ran⟩ := Op.ran_check.mp ran
      obtain ⟨_, same⟩ := Op.ran_pure.mp ran
      have isDocument := jsonObject_ok isObject
      subst same isDocument
      exact .inr (by simp [split, inner, Op.ran_perform.mp document'])
  | link => exact (Op.ran_throw ran).elim
  | special => exact (Op.ran_throw ran).elim

theorem reportedStatus_distinct (configuration : Resource) (phase reason revision now buildURL : String)
    (planned : Option Plan) (outputs : Object) :
    ((reportedStatus configuration phase reason revision planned
      [("lastVerifiedAt", .str now), ("outputs", .obj outputs)] buildURL).map Prod.fst).Nodup := by
  cases planned <;> simp only [reportedStatus, whenPresent] <;> split <;> split <;> simp

theorem reportedStatus_outputs (configuration : Resource) (phase reason revision now buildURL : String)
    (planned : Option Plan) (outputs : Object) :
    (reportedStatus configuration phase reason revision planned
      [("lastVerifiedAt", .str now), ("outputs", .obj outputs)] buildURL).get? "outputs" = some (.obj outputs) := by
  cases planned <;> simp only [reportedStatus, whenPresent] <;> split <;> simp

/-- A report merges its outputs into those that are stored. -/
theorem merged_outputs (before : Object) {configuration : Resource} {phase reason revision now buildURL : String}
    {planned : Option Plan} {outputs : Object} :
    value (Json.mergeFields before (reportedStatus configuration phase reason revision planned
      [("lastVerifiedAt", .str now), ("outputs", .obj outputs)] buildURL)) "outputs" =
        Json.mergePatch (value before "outputs") (.obj outputs) := by
  rw [value, Json.get?_mergeFields _ _ (reportedStatus_distinct ..), reportedStatus_outputs]
  rfl

/-- The patched version is stored. -/
theorem patch_stored {before after : Store} {resource updated : Resource} {status : Object}
    (written : Api.patch before resource status = some (updated, after)) : updated ∈ after.objects := by
  obtain ⟨current, found, rfl, rfl⟩ := Api.patch_eq_some written
  obtain ⟨member, _⟩ := Versioned.Store.mem_of_current? found
  refine Api.release_other (Versioned.Store.mem_put.mpr (.inl ⟨current, member, rfl, rfl⟩)) ?_
  exact (Classical.em _).imp_right id

/-- Whenever the API applies a Ready report, the stored outputs are the public
object of this execution if and only if that object overwrites the outputs
that were stored before. -/
theorem ready_outputs_iff {outside : Store → Store → Prop} {initial world after : Store}
    {history : List (Interaction.Moment interface Store)}
    {running : List (Program interface (Except Exn Unit))}
    (execution : Interaction.Execution (Api.surroundings outside)
      (· = execute env resolved source directory) initial history world running)
    {actor : Nat} {latest updated : Resource} {status : Object} {resume}
    (pending : running[actor]? = some (.call (.patchStatus latest status) resume))
    (ready : ReportsReady latest status) (written : Api.patch world latest status = some (updated, after))
    (decoded : ∀ document, ⟨.host (.readJson (directory ++ "/result.json")), .ok document⟩ ∈
      Interaction.localTrace actor history → document.Distinct) :
    ∃ prior published, world.current? Resource.schema latest = some prior ∧ updated ∈ after.objects ∧
      PublishedResult directory (Interaction.localTrace actor history) published ∧
      (Json.Same (value updated.status "outputs") (.obj published) ↔
        Json.Overwrites (value prior.status "outputs") (.obj published)) := by
  obtain ⟨program, same, steps⟩ := execution.local_steps pending
  subst same
  have honest : ∀ event ∈ Interaction.localTrace actor history, Honest event.request event.reply :=
    @Interaction.Execution.replies _ _ _ _ _ _ _ _ _ modest execution (fun _ _ _ _ served => served.honest) actor
  obtain ⟨timeline, claims, published, now, whole, _, verifies, _, _, _, reported⟩ :=
    execute_ready ⟨resume, steps⟩ honest ready
  have result : PublishedResult directory (Interaction.localTrace actor history) (published.getD []) := by
    have read := readPublicResult_ran verifies.result
    have inside : timeline.result ⊆ Interaction.localTrace actor history := by
      intro event member
      rw [← whole]
      simp [Timeline.trace, member]
    exact read.imp (fun missing => ⟨inside missing.1, missing.2⟩) fun found => inside found
  have distinct : (Json.obj (published.getD [])).Distinct := by
    cases result with
    | inl missing =>
        rw [missing.2]
        exact ⟨List.nodup_nil, True.intro⟩
    | inr found => exact decoded _ found
  obtain ⟨prior, current, isUpdated, _⟩ := Api.patch_eq_some written
  refine ⟨prior, published.getD [], current, patch_stored written, result, ?_⟩
  rw [isUpdated, Api.patched, reported, merged_outputs]
  exact Json.mergePatch_same_iff _ _ distinct

namespace Rehearsal

/-- The only document that was read is this one. -/
def readsOnly (result : Json) (trace : Trace) : Bool :=
  trace.all fun event => match event with
    | ⟨.host (.readJson _), .ok document⟩ => decide (document = result)
    | _ => true

theorem read_of_readsOnly {result document : Json} {path : String} (only : readsOnly result events = true)
    (read : ⟨.host (.readJson path), .ok document⟩ ∈ events) : document = result := by
  have same := List.all_eq_true.mp only _ read
  simpa using same

def readsResult (result : Json) (trace : Trace) : Bool :=
  trace.any fun event => match event with
    | ⟨.host (.readJson path), .ok document⟩ =>
        path = "/tmp/configuration/result.json" && document = .obj result.fields
    | _ => false

theorem published_of_readsResult {result : Json} (read : readsResult result events = true) :
    PublishedResult "/tmp/configuration" events result.fields := by
  obtain ⟨event, member, matched⟩ := List.any_eq_true.mp read
  split at matched
  · simp only [Bool.and_eq_true, decide_eq_true_eq] at matched
    obtain ⟨samePath, sameDocument⟩ := matched
    subst samePath sameDocument
    exact .inr member
  · cases matched

/-- What is checked of a play whose Ready report is applied. -/
def applies (result : Json) (check : Resource → Bool) (play : Api.Play (Except Exn Unit)) : Bool :=
  match play.running[(0 : Nat)]? with
  | some (.call (.patchStatus latest status) _) =>
      readsOnly result (Interaction.localTrace 0 play.history) &&
        readsResult result (Interaction.localTrace 0 play.history) &&
        (Api.patch play.world latest status).any fun outcome => check outcome.1
  | _ => false

theorem applies_ready {outputs : Object} {result : Json} {check : Resource → Bool}
    (facts : (reporting outputs result).any (applies result check) = true) :
    ∃ (play : Api.Play (Except Exn Unit)) (latest : Resource) (status : Object) (resume : _)
      (updated : Resource) (after : Store),
      play.Plays (· = execution outputs) Provisioning.alone (deployment outputs) ∧
      play.running[(0 : Nat)]? = some (.call (.patchStatus latest status) resume) ∧
      ReportsReady latest status ∧ Api.patch play.world latest status = some (updated, after) ∧
      readsOnly result (Interaction.localTrace 0 play.history) = true ∧
      PublishedResult "/tmp/configuration" (Interaction.localTrace 0 play.history) result.fields ∧
      check updated = true := by
  obtain ⟨play, found, applied⟩ := (Option.any_eq_true _ _).mp facts
  obtain ⟨request, resume, pending, stopped⟩ := stops_proceed found
  unfold applies at applied
  rw [pending] at applied
  cases request with
  | patchStatus latest status =>
      simp only [reportsReady, Bool.and_eq_true, decide_eq_true_eq] at stopped
      simp only [Bool.and_eq_true] at applied
      obtain ⟨⟨updated, after⟩, written, checked⟩ := (Option.any_eq_true _ _).mp applied.2
      exact ⟨play, latest, status, resume, updated, after, plays_executing found, pending, stopped, written,
        applied.1.1, published_of_readsResult applied.1.2, checked⟩
  | _ => cases stopped

end Rehearsal

/-- New outputs that name every earlier key replace the stored ones. -/
theorem renamed_output_replaced :
    ∃ (history : List (Interaction.Moment interface Store)) (world after : Store)
      (latest updated prior : Resource) (status published : Object),
      ReportsReady latest status ∧ Api.patch world latest status = some (updated, after) ∧
        world.current? Resource.schema latest = some prior ∧ updated ∈ after.objects ∧
        PublishedResult "/tmp/configuration" (Interaction.localTrace 0 history) published ∧
        (Json.Same (value updated.status "outputs") (.obj published) ↔
          Json.Overwrites (value prior.status "outputs") (.obj published)) := by
  have facts : (Rehearsal.reporting [("cluster", .str "old")] (.obj [("cluster", .str "new")])).any
      (Rehearsal.applies (.obj [("cluster", .str "new")]) fun _ => true) = true := by
    decide +kernel
  obtain ⟨play, latest, status, resume, updated, after, plays, pending, ready, written, only, _, _⟩ :=
    Rehearsal.applies_ready facts
  obtain ⟨prior, published, current, stored, result, replaced⟩ :=
    ready_outputs_iff plays pending ready written fun document read => by
      rw [Rehearsal.read_of_readsOnly only read]
      exact ⟨by simp, True.intro, True.intro⟩
  exact ⟨play.history, play.world, after, latest, updated, prior, status, published, ready, written, current,
    stored, result, replaced⟩

/-- A key that an earlier execution published survives a report without outputs. -/
theorem earlier_output_survives :
    ∃ (history : List (Interaction.Moment interface Store)) (world after : Store)
      (running : List (Program interface (Except Exn Unit))) (latest updated : Resource) (status : Object),
      Interaction.Execution (Api.surroundings Provisioning.alone)
          (· = Rehearsal.execution [("cluster", .str "old")]) (Rehearsal.deployment [("cluster", .str "old")])
          history world running ∧
        (∃ resume, running[(0 : Nat)]? = some (.call (.patchStatus latest status) resume)) ∧
        ReportsReady latest status ∧ Api.patch world latest status = some (updated, after) ∧
        PublishedResult "/tmp/configuration" (Interaction.localTrace 0 history) [] ∧
        value updated.status "outputs" = .obj [("cluster", .str "old")] := by
  have facts : (Rehearsal.reporting [("cluster", .str "old")] (.obj [])).any (Rehearsal.applies (.obj [])
      fun updated => value updated.status "outputs" = .obj [("cluster", .str "old")]) = true := by
    decide +kernel
  obtain ⟨play, latest, status, resume, updated, after, plays, pending, ready, written, _, read, survived⟩ :=
    Rehearsal.applies_ready facts
  exact ⟨play.history, play.world, after, play.running, latest, updated, status, plays, ⟨resume, pending⟩, ready,
    written, read, of_decide_eq_true survived⟩

end Homelab.Configurations
