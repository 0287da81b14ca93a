import Homelab.Operators.Provisioning.StageGuards

namespace Homelab.Provisioning

open Json (Object)
open Interaction (Program Execution Moment localTrace mem_localTrace)

/-! # The live session before its key and its disk -/

variable {outside : Store → Store → Prop} {initial world : Store}
  {history : List (Moment interface Store)} {running : List (Program interface (Except Exn Nat))}

/-- Equal values have equal members. -/
theorem same_fields {left right : Json} (same : Json.Same left right) (key : String) :
    Json.Same (value left.fields key) (value right.fields key) := by
  have members : ∀ first second : Object, Json.Same (.obj first) (.obj second) →
      Json.Same (value first key) (value second key) := by
    intro first second equal
    have found := equal.get? key
    unfold value Json.Same
    cases one : first.get? key <;> cases other : second.get? key <;> simp_all
  cases left with
  | obj fields =>
      obtain ⟨others, shape⟩ := Json.Same.obj same.symm
      subst shape
      exact members fields others same
  | _ =>
      cases right with
      | obj fields =>
          obtain ⟨others, shape⟩ := Json.Same.obj same
          cases shape
      | _ => exact .refl _

/-- What the API returned for the pin of a first contact has the plan that was read. -/
theorem Passes.confirmed (execution : Passes outside initial history world running)
    (orderly : Api.Orderly outside) (start : initial.WellFormed Resource.schema) {actor : Nat} {view : View}
    {run : Resource} (confirmed : Confirmed (localTrace actor history) view run) :
    Json.Same (value run.status "snapshot") (value view.run.status "snapshot") := by
  cases confirmed with
  | inl same => rw [same]; exact .refl _
  | inr written =>
      obtain ⟨target, fields, member, _, absent, same⟩ := written
      obtain ⟨after, found⟩ := mem_localTrace.mp member
      obtain ⟨past, later, rfl⟩ := List.append_of_mem found
      rw [List.append_cons] at execution
      obtain ⟨_, upTo⟩ := Execution.before execution
      obtain ⟨_, _, _, first, _⟩ := upTo.act_cases
      obtain ⟨_, shape⟩ := Passes.acknowledged upTo first orderly start
      have kept : value run.status "snapshot" = value target.status "snapshot" := by
        rw [shape, value, value, Api.patched, Json.get?_mergeFields_of_not_mem _ _ absent]
      rw [kept]
      exact same

theorem Passes.deliverable (execution : Passes outside initial history world running)
    (orderly : Api.Orderly outside) (start : initial.WellFormed Resource.schema) {actor : Nat} {uid : String}
    (deliverable : Deliverable (localTrace actor history) uid) :
    ∃ view, view.run.uid = uid ∧ Inspected (localTrace actor history) view (pinnedPlan view.provisioning) := by
  obtain ⟨view, run, attested, confirmed, same⟩ := deliverable
  have plan := execution.confirmed orderly start confirmed
  refine ⟨view, same, ?_⟩
  obtain ⟨earlier, event, rest, known, facts, shape, held, probed, trusted, recorded, live, safe, disk⟩ :=
    attested
  refine ⟨earlier, event, rest, known, facts, shape, held, probed, trusted, recorded, live, safe, ?_⟩
  rw [held.same]
  exact disk.trans (same_fields plan "diskIdentity")

/-- The pass asks for a secret. -/
def FetchesSecret (actor : Nat) (moment : Moment interface Store) : Prop :=
  ∃ url method token body reply, moment.happening = .act actor ⟨.host (.fetch url method token body), reply⟩

/-- Whether a moment asks for a secret. -/
def fetches (moment : Moment interface Store) : Bool :=
  match moment.happening with
  | .act _ event => fetchesSecret event.request
  | _ => false

def installs (moment : Moment interface Store) : Bool :=
  match moment.happening with
  | .act _ ⟨.host (.spawn _ files), _⟩ => (stageOf files).any fun entry => entry.1 == "install"
  | _ => false

end Homelab.Provisioning
