import Homelab.Api.Fixed
import Homelab.Graph.PathGuard
import Homelab.Operators.Configurations.Rehearsal
import Homelab.Operators.Configurations.Resolution

namespace Homelab.Configurations

open Json (Object)
open Interaction (Op Program)

/-! # Prerequisites in a fixed state of the API -/

/-- What a computation comes to in a fixed state. -/
def inState {α : Type} (store : Store) (host : (call : Host) → Except Exn call.Value) (body : Task α) :
    Except Exn α :=
  Op.eval (Api.fixed store host) body

/-- A stored Configuration that `dependsOn` of another one names. -/
def Prerequisite (store : Store) (dependency dependent : Resource) : Prop :=
  DependsOn dependent dependency.name ∧
    store.find? Resource.schema (.configuration, dependency.name) = some dependency

/-- The Configuration is verified, and against this input revision. -/
def Current (configuration : Resource) (revision : String) : Prop :=
  value configuration.status "phase" = .str "Ready" ∧
    value configuration.status "observedGeneration" = optionalInt configuration.metadata.generation ∧
    value configuration.status "inputRevision" = .str revision

variable {env : Environment} {store : Store} {host : (call : Host) → Except Exn call.Value} {α β : Type}

theorem inState_bind (body : Task α) (next : α → Task β) :
    inState store host (body >>= next) = inState store host body >>= fun value => inState store host (next value) :=
  Op.eval_bind _ _ _

theorem inState_check (result : Except Exn α) (next : α → Task β) :
    inState store host (liftM result >>= next) = result >>= fun value => inState store host (next value) :=
  Op.eval_bind _ _ _

theorem inState_tryCatch (body : Task α) (handler : Exn → Task α) :
    inState store host (tryCatch body handler) =
      match inState store host body with
      | .ok result => .ok result
      | .error failure => inState store host (handler failure) := by
  refine (Op.eval_tryCatch _ body handler).trans ?_
  unfold inState
  cases Op.eval (Api.fixed store host) body <;> rfl

@[simp] theorem inState_pure (value : α) : inState store host (pure value) = .ok value := rfl

/-! ## One prerequisite -/

theorem reference_dependsOn {configuration : Resource} {references : List Object} {reference : Object} {name : String}
    (declared : dependencies configuration = .ok references) (listed : reference ∈ references)
    (named : value reference "name" = .str name) : DependsOn configuration name := by
  unfold dependencies at declared
  split at declared
  · cases declared
    cases listed
  · rename_i items isItems
    obtain ⟨item, member, isObject⟩ := mem_right (mapM_ok.mp declared) listed
    obtain rfl := jsonObject_ok isObject
    refine ⟨items, reference, isItems, member, ?_⟩
    unfold value at named
    cases found : reference.get? "name" with
    | none =>
        rw [found] at named
        cases named
    | some stored =>
        rw [found] at named
        exact congrArg some named
  · cases declared

theorem dependsOn_reference {configuration : Resource} {references : List Object} {name : String}
    (declared : dependencies configuration = .ok references) (depends : DependsOn configuration name) :
    ∃ reference ∈ references, value reference "name" = .str name := by
  obtain ⟨items, fields, isItems, listed, named⟩ := depends
  unfold dependencies at declared
  rw [isItems] at declared
  obtain ⟨reference, member, isObject⟩ := mem_left (mapM_ok.mp declared) listed
  cases isObject
  exact ⟨fields, member, value_some named⟩

/-- What was fetched is stored under the name of the reference. -/
theorem fetchReference_stored {kind : Kind} {reference : Object} {resource : Resource}
    (fetched : inState store host (fetchReference kind reference) = .ok resource) :
    value reference "name" = .str resource.name ∧
      store.find? Resource.schema (kind, resource.name) = some resource := by
  obtain ⟨name, named, read⟩ := fetchReference_reached (Op.ran_eval _ fetched).reached
  have answered := Program.path_answered _ _ _ read
  simp only [Api.fixed] at answered
  split at answered
  · rename_i stored found
    cases answered
    obtain ⟨_, key⟩ := Versioned.Store.mem_of_find? found
    have same : resource.name = name := congrArg Prod.snd key
    rw [same]
    exact ⟨named, found⟩
  · cases answered

theorem prerequisite_fetched {configuration dependency : Resource} {references : List Object} {reference : Object}
    (declared : dependencies configuration = .ok references) (listed : reference ∈ references)
    (fetched : inState store host (fetchReference .configuration reference) = .ok dependency) :
    Prerequisite store dependency configuration := by
  obtain ⟨named, found⟩ := fetchReference_stored fetched
  exact ⟨reference_dependsOn declared listed named, found⟩

variable {resolve first second : Resource → List String → Task Plan} {stack other : List String}

theorem prerequisiteInput_ok {revisions after reference : Object}
    (checked : inState store host (prerequisiteInput resolve stack revisions reference) = .ok after) :
    ∃ dependency resolved, inState store host (fetchReference .configuration reference) = .ok dependency ∧
      inState store host (resolve dependency stack) = .ok resolved ∧ Current dependency resolved.inputRevision ∧
      after = revisions.set dependency.uid (.str resolved.inputRevision) := by
  unfold prerequisiteInput at checked
  rw [inState_bind] at checked
  obtain ⟨dependency, fetched, checked⟩ := bind_ok checked
  rw [inState_bind] at checked
  obtain ⟨resolved, caught, checked⟩ := bind_ok checked
  rw [inState_check] at checked
  obtain ⟨_, passed, checked⟩ := bind_ok checked
  have current := demand_ok passed
  simp only [Bool.and_eq_true, decide_eq_true_eq, and_assoc] at current
  refine ⟨dependency, resolved, fetched, ?_, current, ?_⟩
  · rw [inState_tryCatch] at caught
    split at caught
    · rename_i result evaluated
      cases caught
      exact evaluated
    · split at caught
      · split at caught
        · cases caught
        · cases caught
      · cases caught
  · cases checked
    rfl

theorem prerequisiteInput_resolved {revisions reference : Object} {dependency : Resource} {resolved : Plan}
    (fetched : inState store host (fetchReference .configuration reference) = .ok dependency)
    (evaluated : inState store host (resolve dependency stack) = .ok resolved)
    (current : Current dependency resolved.inputRevision) :
    inState store host (prerequisiteInput resolve stack revisions reference) =
      .ok (revisions.set dependency.uid (.str resolved.inputRevision)) := by
  unfold prerequisiteInput
  rw [inState_bind, fetched, ok_bind_eq, inState_bind, inState_tryCatch, evaluated]
  obtain ⟨ready, observed, revision⟩ := current
  rw [ok_bind_eq, inState_check, ready, observed, revision]
  simp

/-- Only what the prerequisites come to matters. -/
theorem prerequisiteInput_congr {revisions reference : Object}
    (same : ∀ dependency, inState store host (fetchReference .configuration reference) = .ok dependency →
      inState store host (first dependency stack) = inState store host (second dependency stack)) :
    inState store host (prerequisiteInput first stack revisions reference) =
      inState store host (prerequisiteInput second stack revisions reference) := by
  unfold prerequisiteInput
  rw [inState_bind, inState_bind]
  cases fetched : inState store host (fetchReference .configuration reference) with
  | error failure => rfl
  | ok dependency =>
      rw [ok_bind_eq, ok_bind_eq, inState_bind, inState_bind, inState_tryCatch, inState_tryCatch, same dependency fetched]

/-! ## All prerequisites -/

theorem prerequisiteInputs_eq (configuration : Resource) :
    inState store host (prerequisiteInputs resolve configuration stack) =
      dependencies configuration >>= fun references => references.foldlM
        (fun revisions reference => inState store host
          (prerequisiteInput resolve (stack ++ [configuration.name]) revisions reference)) [] := by
  unfold prerequisiteInputs
  rw [inState_check]
  congr 1
  funext references
  exact Op.eval_foldlM _ _ _ _

theorem foldlM_congr {ε σ : Type} {next next' : σ → α → Except ε σ} {items : List α}
    (same : ∀ state, ∀ item ∈ items, next state item = next' state item) (start : σ) :
    items.foldlM next start = items.foldlM next' start := by
  induction items generalizing start with
  | nil => rfl
  | cons item rest ih =>
      rw [List.foldlM_cons, List.foldlM_cons, same start item List.mem_cons_self]
      congr 1
      funext state
      exact ih (fun state item member => same state item (List.mem_cons_of_mem _ member)) state

theorem foldlM_ok_mono {ε σ : Type} {next next' : σ → α → Except ε σ} {items : List α}
    (carries : ∀ state after, ∀ item ∈ items, next state item = .ok after → next' state item = .ok after)
    {start final : σ} (done : items.foldlM next start = .ok final) : items.foldlM next' start = .ok final := by
  induction items generalizing start with
  | nil => exact done
  | cons item rest ih =>
      rw [List.foldlM_cons] at done ⊢
      obtain ⟨middle, stepped, done⟩ := bind_ok done
      rw [carries start middle item List.mem_cons_self stepped, ok_bind_eq]
      exact ih (fun state after item member => carries state after item (List.mem_cons_of_mem _ member)) done

theorem prerequisiteInputs_congr {configuration : Resource}
    (same : ∀ dependency, Prerequisite store dependency configuration →
      inState store host (first dependency (stack ++ [configuration.name])) =
        inState store host (second dependency (stack ++ [configuration.name]))) :
    inState store host (prerequisiteInputs first configuration stack) =
      inState store host (prerequisiteInputs second configuration stack) := by
  rw [prerequisiteInputs_eq, prerequisiteInputs_eq]
  cases declared : dependencies configuration with
  | error failure => rfl
  | ok references =>
      rw [ok_bind_eq, ok_bind_eq]
      refine foldlM_congr (fun revisions reference listed => prerequisiteInput_congr fun dependency fetched => ?_) []
      exact same dependency (prerequisite_fetched declared listed fetched)

theorem prerequisiteInputs_mono {configuration : Resource} {revisions : Object}
    (carries : ∀ dependency, Prerequisite store dependency configuration → ∀ resolved,
      inState store host (first dependency (stack ++ [configuration.name])) = .ok resolved →
        inState store host (second dependency (other ++ [configuration.name])) = .ok resolved)
    (evaluated : inState store host (prerequisiteInputs first configuration stack) = .ok revisions) :
    inState store host (prerequisiteInputs second configuration other) = .ok revisions := by
  rw [prerequisiteInputs_eq] at evaluated ⊢
  obtain ⟨references, declared, evaluated⟩ := bind_ok evaluated
  rw [declared, ok_bind_eq]
  refine foldlM_ok_mono (fun revisions after reference listed checked => ?_) evaluated
  obtain ⟨dependency, resolved, fetched, evaluated, current, isAfter⟩ := prerequisiteInput_ok checked
  subst isAfter
  have prerequisite := prerequisite_fetched declared listed fetched
  exact prerequisiteInput_resolved fetched (carries dependency prerequisite resolved evaluated) current

/-- One revision of each prerequisite is recorded, and nothing else. -/
structure Records (store : Store) (host : (call : Host) → Except Exn call.Value)
    (resolve : Resource → List String → Task Plan) (stack : List String) (references : List Object)
    (before after : Object) : Prop where
  recorded : ∀ uid found, after.get? uid = some found → before.get? uid = some found ∨
    ∃ reference ∈ references, ∃ dependency resolved,
      inState store host (fetchReference .configuration reference) = .ok dependency ∧ dependency.uid = uid ∧
        inState store host (resolve dependency stack) = .ok resolved ∧ found = .str resolved.inputRevision
  kept : ∀ uid, uid ∈ before.map Prod.fst → uid ∈ after.map Prod.fst
  current : ∀ reference ∈ references, ∃ dependency resolved,
    inState store host (fetchReference .configuration reference) = .ok dependency ∧
      inState store host (resolve dependency stack) = .ok resolved ∧
        Current dependency resolved.inputRevision ∧ dependency.uid ∈ after.map Prod.fst

theorem foldlM_records {references : List Object} {before after : Object}
    (done : references.foldlM (fun revisions reference =>
      inState store host (prerequisiteInput resolve stack revisions reference)) before = .ok after) :
    Records store host resolve stack references before after := by
  induction references generalizing before with
  | nil =>
      cases done
      exact ⟨fun uid found lookup => .inl lookup, fun uid => id, by simp⟩
  | cons reference rest ih =>
      rw [List.foldlM_cons] at done
      obtain ⟨middle, checked, done⟩ := bind_ok done
      obtain ⟨dependency, resolved, fetched, evaluated, current, isMiddle⟩ := prerequisiteInput_ok checked
      subst isMiddle
      have later := ih done
      constructor
      · intro uid found lookup
        cases later.recorded uid found lookup with
        | inl earlier =>
            rw [Object.get?_set] at earlier
            split at earlier
            · rename_i same
              cases earlier
              exact .inr ⟨reference, List.mem_cons_self, dependency, resolved, fetched, same, evaluated, rfl⟩
            · exact .inl earlier
        | inr added =>
            obtain ⟨other, listed, added⟩ := added
            exact .inr ⟨other, List.mem_cons_of_mem _ listed, added⟩
      · intro uid listed
        exact later.kept uid (Object.mem_names_set.mpr (.inr listed))
      · intro other listed
        cases List.mem_cons.mp listed with
        | inl same =>
            subst same
            refine ⟨dependency, resolved, fetched, evaluated, current, later.kept _ ?_⟩
            exact Object.mem_names_set.mpr (.inl rfl)
        | inr listed => exact later.current other listed

/-- A resolved Configuration has only verified prerequisites. -/
theorem prerequisiteInputs_current {configuration dependency : Resource} {revisions : Object}
    (evaluated : inState store host (prerequisiteInputs resolve configuration stack) = .ok revisions)
    (prerequisite : Prerequisite store dependency configuration) : ∃ resolved,
    inState store host (resolve dependency (stack ++ [configuration.name])) = .ok resolved ∧
      Current dependency resolved.inputRevision ∧ dependency.uid ∈ revisions.map Prod.fst := by
  rw [prerequisiteInputs_eq] at evaluated
  obtain ⟨references, declared, done⟩ := bind_ok evaluated
  obtain ⟨depends, stored⟩ := prerequisite
  obtain ⟨reference, listed, named⟩ := dependsOn_reference declared depends
  obtain ⟨found, resolved, fetched, evaluated, current⟩ := (foldlM_records done).current reference listed
  obtain ⟨isNamed, isStored⟩ := fetchReference_stored fetched
  have sameName : dependency.name = found.name := Json.str.inj (named.symm.trans isNamed)
  rw [sameName] at stored
  have same : dependency = found := Option.some.inj (stored.symm.trans isStored)
  rw [same]
  exact ⟨resolved, evaluated, current⟩

theorem prerequisiteInputs_recorded {configuration : Resource} {revisions : Object} {uid : String} {found : Json}
    (evaluated : inState store host (prerequisiteInputs resolve configuration stack) = .ok revisions)
    (lookup : revisions.get? uid = some found) : ∃ dependency resolved,
    Prerequisite store dependency configuration ∧ dependency.uid = uid ∧
      inState store host (resolve dependency (stack ++ [configuration.name])) = .ok resolved ∧
      found = .str resolved.inputRevision := by
  rw [prerequisiteInputs_eq] at evaluated
  obtain ⟨references, declared, done⟩ := bind_ok evaluated
  cases (foldlM_records done).recorded uid found lookup with
  | inl absent => cases absent
  | inr added =>
      obtain ⟨reference, listed, dependency, resolved, fetched, isUid, evaluated, isFound⟩ := added
      exact ⟨dependency, resolved, prerequisite_fetched declared listed fetched, isUid, evaluated, isFound⟩

/-! ## One level of `plan` -/

theorem bind_congr_inState {body : Task α} {next next' : α → Task β}
    (same : ∀ value, inState store host (next value) = inState store host (next' value)) :
    inState store host (body >>= next) = inState store host (body >>= next') := by
  rw [inState_bind, inState_bind]
  congr 1
  funext value
  exact same value

theorem bind_mono_inState {body : Task α} {next next' : α → Task β} {result : β}
    (carries : ∀ value, inState store host (next value) = .ok result → inState store host (next' value) = .ok result)
    (evaluated : inState store host (body >>= next) = .ok result) :
    inState store host (body >>= next') = .ok result := by
  rw [inState_bind] at evaluated ⊢
  obtain ⟨value, first, rest⟩ := bind_ok evaluated
  rw [first, ok_bind_eq]
  exact carries value rest

theorem planStep_congr {configuration : Resource}
    (same : inState store host (prerequisiteInputs first configuration stack) =
      inState store host (prerequisiteInputs second configuration stack)) :
    inState store host (planStep env first configuration stack) =
      inState store host (planStep env second configuration stack) := by
  refine bind_congr_inState fun _ => bind_congr_inState fun _ => bind_congr_inState fun targets => ?_
  refine bind_congr_inState fun _ => bind_congr_inState fun _ => bind_congr_inState fun _ => ?_
  refine bind_congr_inState fun _ => bind_congr_inState fun _ => bind_congr_inState fun _ => ?_
  refine bind_congr_inState fun _ => bind_congr_inState fun prerequisites => ?_
  rw [inState_bind, inState_bind, same]

theorem planStep_entered {configuration : Resource} (entered : configuration.name ∈ stack) :
    inState store host (planStep env resolve configuration stack) =
      .error (.operator "DependencyCycle" "Configuration dependency cycle") := by
  unfold planStep
  rw [inState_check, show demand (!stack.contains configuration.name)
    (.operator "DependencyCycle" "Configuration dependency cycle") = .error _ by simp [demand, entered]; rfl]
  rfl

theorem planStep_mono {configuration : Resource} {resolved : Plan} (fresh : configuration.name ∉ other)
    (carries : ∀ revisions, inState store host (prerequisiteInputs first configuration stack) = .ok revisions →
      inState store host (prerequisiteInputs second configuration other) = .ok revisions)
    (evaluated : inState store host (planStep env first configuration stack) = .ok resolved) :
    inState store host (planStep env second configuration other) = .ok resolved := by
  unfold planStep at evaluated ⊢
  rw [inState_check] at evaluated ⊢
  obtain ⟨_, _, evaluated⟩ := bind_ok evaluated
  rw [show demand (!other.contains configuration.name)
    (.operator "DependencyCycle" "Configuration dependency cycle") = .ok () by simp [fresh], ok_bind_eq]
  refine bind_mono_inState (fun _ => bind_mono_inState fun targets => ?_) evaluated
  refine bind_mono_inState fun _ => bind_mono_inState fun _ => bind_mono_inState fun _ => ?_
  refine bind_mono_inState fun _ => bind_mono_inState fun _ => bind_mono_inState fun _ => ?_
  refine bind_mono_inState fun _ => bind_mono_inState fun prerequisites evaluated => ?_
  rw [inState_bind] at evaluated ⊢
  obtain ⟨revisions, isRevisions, rest⟩ := bind_ok evaluated
  rw [carries revisions isRevisions, ok_bind_eq]
  exact rest

/-! ## Whole plans -/

def configurationNames (store : Store) : List String :=
  (store.objects.filter fun resource => decide (resource.kind = .configuration)).map Resource.name

theorem prerequisite_listed {dependency dependent : Resource} (prerequisite : Prerequisite store dependency dependent) :
    dependency.name ∈ configurationNames store := by
  obtain ⟨stored, key⟩ := Versioned.Store.mem_of_find? prerequisite.2
  have kind : dependency.kind = .configuration := congrArg Prod.fst key
  exact List.mem_map_of_mem (List.mem_filter.mpr ⟨stored, by simp [kind]⟩)

theorem plan_guarded (env : Environment) (store : Store) (host : (call : Host) → Except Exn call.Value) :
    Graph.PathGuarded (planStep env) (inState store host) Resource.name
      fun dependent dependency => Prerequisite store dependency dependent where
  refuses entered first second := by
    rw [planStep_entered entered, planStep_entered entered]
  descends same := planStep_congr (prerequisiteInputs_congr same)

theorem plan_iterate (env : Environment) (frames : Nat) :
    plan env frames = (planStep env)^[frames] fun _ _ => throw recursionError := by
  induction frames with
  | zero => rfl
  | succ frames ih =>
      rw [Function.iterate_succ_apply', ← ih]
      rfl

/-- A plan that succeeds does so with more frames and from a shorter path. -/
theorem plan_mono {frames more : Nat} {configuration : Resource} {stack shorter : List String} {resolved : Plan}
    (enough : frames ≤ more) (subset : shorter ⊆ stack)
    (evaluated : inState store host (plan env frames configuration stack) = .ok resolved) :
    inState store host (plan env more configuration shorter) = .ok resolved := by
  induction frames generalizing more configuration stack shorter resolved with
  | zero => cases evaluated
  | succ frames ih =>
      cases more with
      | zero => omega
      | succ more =>
          have unvisited : configuration.name ∉ stack := by
            intro entered
            rw [plan, planStep_entered entered] at evaluated
            cases evaluated
          refine planStep_mono (fun entered => unvisited (subset entered)) (fun revisions => ?_) evaluated
          refine prerequisiteInputs_mono fun dependency _ resolved succeeded => ih (by omega) ?_ succeeded
          exact List.append_subset.mpr ⟨List.subset_append_of_subset_left _ subset, List.subset_append_right _ _⟩

/-- A successful plan resolved each prerequisite with fewer frames. -/
theorem plan_prerequisite {frames : Nat} {configuration dependency : Resource} {stack : List String} {resolved : Plan}
    (evaluated : inState store host (plan env frames configuration stack) = .ok resolved)
    (prerequisite : Prerequisite store dependency configuration) :
    ∃ fewer < frames, ∃ path inner, inState store host (plan env fewer dependency path) = .ok inner ∧
      Current dependency inner.inputRevision := by
  obtain ⟨fewer, parts, rfl, resolves, _⟩ := plan_reached (Op.ran_eval _ evaluated).reached
  have revisions := resolves.revisions.eval (Program.path_answered _ _)
  obtain ⟨inner, planned, current, _⟩ := prerequisiteInputs_current revisions prerequisite
  exact ⟨fewer, by omega, _, inner, planned, current⟩

theorem plan_transitive {frames : Nat} {configuration dependency : Resource} {stack : List String} {resolved : Plan}
    (prerequisite : Relation.TransGen (Prerequisite store) dependency configuration)
    (evaluated : inState store host (plan env frames configuration stack) = .ok resolved) :
    ∃ fewer < frames, ∃ path inner, inState store host (plan env fewer dependency path) = .ok inner ∧
      Current dependency inner.inputRevision := by
  induction prerequisite using Relation.TransGen.head_induction_on with
  | single edge => exact plan_prerequisite evaluated edge
  | head edge _ ih =>
      obtain ⟨less, below, _, _, planned, _⟩ := ih
      obtain ⟨fewer, further, found⟩ := plan_prerequisite planned edge
      exact ⟨fewer, by omega, found⟩

/-- No Configuration that can be planned is among its own prerequisites. -/
theorem plan_acyclic {frames : Nat} {configuration : Resource} {stack : List String} {resolved : Plan}
    (evaluated : inState store host (plan env frames configuration stack) = .ok resolved) :
    ¬Relation.TransGen (Prerequisite store) configuration configuration := by
  intro cycle
  induction frames using Nat.strong_induction_on generalizing stack resolved with
  | _ frames ih =>
      obtain ⟨fewer, below, path, inner, planned, _⟩ := plan_transitive cycle evaluated
      exact ih fewer below planned

/-- At some depth and from some path the plan comes to this revision. -/
def PlannedAs (env : Environment) (store : Store) (host : (call : Host) → Except Exn call.Value)
    (configuration : Resource) (revision : String) : Prop :=
  ∃ frames path resolved, inState store host (plan env frames configuration path) = .ok resolved ∧
    resolved.inputRevision = revision

/-- The path and the depth have no influence on the revision. -/
theorem PlannedAs.unique {configuration : Resource} {revision again : String}
    (planned : PlannedAs env store host configuration revision) (replanned : PlannedAs env store host configuration again) :
    revision = again := by
  obtain ⟨frames, path, resolved, evaluated, rfl⟩ := planned
  obtain ⟨frames', path', resolved', evaluated', rfl⟩ := replanned
  have deep := plan_mono (Nat.le_max_left frames frames') (List.nil_subset path) evaluated
  have deep' := plan_mono (Nat.le_max_right frames frames') (List.nil_subset path') evaluated'
  rw [Except.ok.inj (deep.symm.trans deep')]

theorem Prerequisite.stored {dependency dependent : Resource} (prerequisite : Prerequisite store dependency dependent) :
    dependency ∈ store.objects :=
  (Versioned.Store.mem_of_find? prerequisite.2).1

/-! ## Two states -/

variable {later : Store} {host' : (call : Host) → Except Exn call.Value}

/-- Where a Configuration has one revision in two states, so has each prerequisite. -/
theorem same_revision_prerequisite (identifies : Json.Identifies env.digest)
    (formed : store.WellFormed Resource.schema) {configuration configuration' dependency : Resource} {revision : String}
    (planned : PlannedAs env store host configuration revision)
    (planned' : PlannedAs env later host' configuration' revision)
    (prerequisite : Prerequisite store dependency configuration) :
    ∃ dependency' inner, Prerequisite later dependency' configuration' ∧ dependency'.uid = dependency.uid ∧
      PlannedAs env store host dependency inner ∧ PlannedAs env later host' dependency' inner := by
  obtain ⟨frames, path, resolved, evaluated, isRevision⟩ := planned
  obtain ⟨frames', path', resolved', evaluated', isRevision'⟩ := planned'
  obtain ⟨fewer, parts, _, resolves, rfl⟩ := plan_reached (Op.ran_eval _ evaluated).reached
  obtain ⟨fewer', parts', _, resolves', rfl⟩ := plan_reached (Op.ran_eval _ evaluated').reached
  have revisions := resolves.revisions.eval (Program.path_answered _ _)
  have revisions' := resolves'.revisions.eval (Program.path_answered _ _)
  have inputs := Parts.same_inputs identifies (isRevision.trans isRevision'.symm)
  have recorded : Json.Same (.obj parts.revisions) (.obj parts'.revisions) :=
    Option.some.inj (inputs.get? "dependencies")
  -- The recorded revision is that of the only stored Configuration with this UID.
  obtain ⟨_, _, _, listed⟩ := prerequisiteInputs_current revisions prerequisite
  obtain ⟨found, lookup⟩ := Option.isSome_iff_exists.mp (Object.isSome_get?.mpr listed)
  obtain ⟨owner, inner, owned, sameUid, evaluated, isFound⟩ := prerequisiteInputs_recorded revisions lookup
  have same : owner = dependency := formed.identical owned.stored prerequisite.stored sameUid
  subst same
  have lookups := recorded.get? owner.uid
  rw [lookup, isFound] at lookups
  cases lookup' : parts'.revisions.get? owner.uid with
  | none =>
      rw [lookup'] at lookups
      cases lookups
  | some found' =>
      rw [lookup'] at lookups
      obtain ⟨dependency', inner', prerequisite', sameUid', evaluated', isFound'⟩ :=
        prerequisiteInputs_recorded revisions' lookup'
      subst isFound'
      have sameRevision : inner.inputRevision = inner'.inputRevision := Json.str.inj (Option.some.inj lookups)
      exact ⟨dependency', inner.inputRevision, prerequisite', sameUid', ⟨_, _, inner, evaluated, rfl⟩,
        _, _, inner', evaluated', sameRevision.symm⟩

theorem same_revision_transitive (identifies : Json.Identifies env.digest) (formed : store.WellFormed Resource.schema)
    {configuration configuration' dependency : Resource} {revision : String}
    (planned : PlannedAs env store host configuration revision)
    (planned' : PlannedAs env later host' configuration' revision)
    (prerequisite : Relation.TransGen (Prerequisite store) dependency configuration) :
    ∃ dependency' ∈ later.objects, dependency'.uid = dependency.uid ∧ ∃ inner,
      PlannedAs env store host dependency inner ∧ PlannedAs env later host' dependency' inner := by
  induction prerequisite using Relation.TransGen.head_induction_on with
  | single edge =>
      obtain ⟨dependency', inner, edge', same, found⟩ := same_revision_prerequisite identifies formed planned planned' edge
      exact ⟨dependency', edge'.stored, same, inner, found⟩
  | head edge _ ih =>
      obtain ⟨middle', _, _, middle, planned, planned'⟩ := ih
      obtain ⟨dependency', inner, edge', same, found⟩ := same_revision_prerequisite identifies formed planned planned' edge
      exact ⟨dependency', edge'.stored, same, inner, found⟩

/-! ## The three guarantees -/

/-- Nothing below some depth is looked at. -/
def Terminates (env : Environment) (store : Store) (host : (call : Host) → Except Exn call.Value)
    (configuration : Resource) : Prop :=
  ∃ depth, ∀ frames ≥ depth, ∀ beyond, inState store host ((planStep env)^[frames] beyond configuration []) =
    inState store host (plan env depth configuration [])

/-- A prerequisite is not suspended and verified against the inputs that it has now. -/
def Fresh (env : Environment) (store : Store) (host : (call : Host) → Except Exn call.Value) (frames : Nat)
    (configuration : Resource) : Prop :=
  holds configuration.spec "suspended" = false ∧ ∃ resolved,
    inState store host (plan env frames configuration []) = .ok resolved ∧ Current configuration resolved.inputRevision

theorem plan_terminates (configuration : Resource) : Terminates env store host configuration := by
  refine ⟨(configurationNames store).length + 2, fun frames enough beyond => ?_⟩
  rw [plan_iterate]
  exact (plan_guarded env store host).settles_root (fun _ _ edge => prerequisite_listed edge) configuration []
    (by omega) (by omega) _ _

theorem transitive_fresh {frames : Nat} {configuration dependency : Resource} {stack : List String} {resolved : Plan}
    (evaluated : inState store host (plan env frames configuration stack) = .ok resolved)
    (prerequisite : Relation.TransGen (Prerequisite store) dependency configuration) :
    Fresh env store host frames dependency := by
  obtain ⟨fewer, below, path, inner, planned, current⟩ := plan_transitive prerequisite evaluated
  obtain ⟨_, _, _, resolves, _⟩ := plan_reached (Op.ran_eval _ planned).reached
  exact ⟨resolves.active.1, inner, plan_mono (Nat.le_of_lt below) (List.nil_subset path) planned, current⟩

/-- In a fixed state every plan comes to an end.  One that succeeds rests on an
acyclic graph of fresh prerequisites, and its revision changes with theirs. -/
theorem plan_fresh (env : Environment) (store : Store) (host : (call : Host) → Except Exn call.Value)
    (formed : store.WellFormed Resource.schema) :
    (∀ configuration, Terminates env store host configuration) ∧
    (∀ frames configuration resolved, inState store host (plan env frames configuration []) = .ok resolved →
      (∀ reachable, Relation.ReflTransGen (Prerequisite store) reachable configuration →
        ¬Relation.TransGen (Prerequisite store) reachable reachable) ∧
      ∀ dependency, Relation.TransGen (Prerequisite store) dependency configuration →
        Fresh env store host frames dependency) ∧
    (Json.Identifies env.digest → ∀ (later : Store) (host' : (call : Host) → Except Exn call.Value),
      later.WellFormed Resource.schema → ∀ frames frames' configuration configuration' resolved resolved',
        inState store host (plan env frames configuration []) = .ok resolved →
        inState later host' (plan env frames' configuration' []) = .ok resolved' →
        ∀ dependency dependency' inner inner',
          Relation.TransGen (Prerequisite store) dependency configuration →
          dependency' ∈ later.objects → dependency'.uid = dependency.uid →
          inState store host (plan env frames dependency []) = .ok inner →
          inState later host' (plan env frames' dependency' []) = .ok inner' →
          inner.inputRevision ≠ inner'.inputRevision → resolved.inputRevision ≠ resolved'.inputRevision) := by
  refine ⟨plan_terminates, ?_, ?_⟩
  · intro frames configuration resolved evaluated
    refine ⟨fun reachable leads => ?_, fun dependency => transitive_fresh evaluated⟩
    cases Relation.reflTransGen_iff_eq_or_transGen.mp leads with
    | inl same =>
        subst same
        exact plan_acyclic evaluated
    | inr prerequisite =>
        obtain ⟨_, resolved, planned, _⟩ := transitive_fresh evaluated prerequisite
        exact plan_acyclic planned
  · intro identifies later host' formed' frames frames' configuration configuration' resolved resolved' evaluated
      evaluated' dependency dependency' inner inner' prerequisite stored sameUid planned planned' changed same
    obtain ⟨found, isStored, isUid, revision, known, known'⟩ := same_revision_transitive identifies formed
      ⟨_, _, resolved, evaluated, rfl⟩ ⟨_, _, resolved', evaluated', same.symm⟩ prerequisite
    obtain rfl : found = dependency' := formed'.identical isStored stored (isUid.trans sameUid.symm)
    have first := known.unique ⟨_, _, inner, planned, rfl⟩
    have second := known'.unique ⟨_, _, inner', planned', rfl⟩
    exact changed (first.symm.trans second)

namespace Rehearsal

open Provisioning.Rehearsal (executor metadata stored stored_formed)

def base (values : Json) (status : Object) : Resource :=
  { configuration [] with spec := specification.set "values" values, status }

def dependent : Resource where
  kind := .configuration
  metadata := metadata "app"
  spec := specification.set "dependsOn" (.arr [.obj [("name", .str "base")]])
  status := []

def targets : Targets where
  target := server
  servers := [server]
  group := group
  hosts := [("node", .obj hostVars)]
  inventory := inventory

def baseInputs (values : Json) : Json :=
  .obj (planInputs (base values []) targets repository commit ([server, group, repository, server].map observedReference)
    none [] ((memberInputs server).toOption.toList))

/-- An executor whose hash tells all documents apart. -/
def hashing : Environment :=
  { executor "group" with digest := Json.abbreviate [baseInputs (.int 1), baseInputs (.int 2)] }

/-- A Configuration that depends on another one. -/
def chain (values : Json) (status : Object) : Store :=
  stored [server, installation, machine, group, repository, base values status, dependent]

def answers (call : Host) : Except Exn call.Value := .ok (Rehearsal.host .null call)

/-- The status of the prerequisite after its verification. -/
def verified (values : Json) : Object :=
  match inState (chain values []) answers (plan hashing 1 (base values []) []) with
  | .ok resolved => [("phase", .str "Ready"), ("observedGeneration", .int 1),
      ("inputRevision", .str resolved.inputRevision)]
  | .error _ => []

def verifiedBase (values : Json) : Resource := base values (verified values)

def verifiedChain (values : Json) : Store := chain values (verified values)

theorem verifiedChain_formed (values : Json) : (verifiedChain values).WellFormed Resource.schema :=
  stored_formed (show ((chain .null []).objects.map Resource.schema.key).Nodup by decide +kernel)
    (show ((chain .null []).objects.map Resource.uid).Nodup by decide +kernel)
    (fun object member => by
      simp only [List.mem_cons, List.not_mem_nil, or_false] at member
      rcases member with rfl | rfl | rfl | rfl | rfl | rfl | rfl <;> rfl)
    (show "" ∉ (chain .null []).objects.map Resource.uid by decide +kernel)

theorem verifiedChain_prerequisite (values : Json) :
    Prerequisite (verifiedChain values) (verifiedBase values) dependent :=
  ⟨⟨[.obj [("name", .str "base")]], [("name", .str "base")], rfl, by simp, rfl⟩, rfl⟩

end Rehearsal

/-- The verified prerequisite is fresh, and the revision of what depends on it
changes with its values. -/
theorem rehearsed_chain_fresh :
    Fresh Rehearsal.hashing (Rehearsal.verifiedChain (.int 1)) Rehearsal.answers 2
      (Rehearsal.verifiedBase (.int 1)) ∧
    ∃ resolved changed,
      inState (Rehearsal.verifiedChain (.int 1)) Rehearsal.answers (plan Rehearsal.hashing 2 Rehearsal.dependent []) =
        .ok resolved ∧
      inState (Rehearsal.verifiedChain (.int 2)) Rehearsal.answers (plan Rehearsal.hashing 2 Rehearsal.dependent []) =
        .ok changed ∧ resolved.inputRevision ≠ changed.inputRevision := by
  have facts : ([.int 1, .int 2] : List Json).all (fun values =>
      (inState (Rehearsal.verifiedChain values) Rehearsal.answers
        (plan Rehearsal.hashing 2 Rehearsal.dependent [])).isOk) = true := by
    decide +kernel
  have differ : value (Rehearsal.verified (.int 1)) "inputRevision" ≠
      value (Rehearsal.verified (.int 2)) "inputRevision" := by
    decide +kernel
  have succeeds (values : Json) (listed : values ∈ ([.int 1, .int 2] : List Json)) :
      ∃ resolved, inState (Rehearsal.verifiedChain values) Rehearsal.answers
        (plan Rehearsal.hashing 2 Rehearsal.dependent []) = .ok resolved := by
    have ended := List.all_eq_true.mp facts values listed
    cases evaluated : inState (Rehearsal.verifiedChain values) Rehearsal.answers
        (plan Rehearsal.hashing 2 Rehearsal.dependent []) with
    | ok resolved => exact ⟨resolved, rfl⟩
    | error failure =>
        rw [evaluated] at ended
        cases ended
  obtain ⟨resolved, evaluated⟩ := succeeds (.int 1) (by simp)
  obtain ⟨changed, evaluated'⟩ := succeeds (.int 2) (by simp)
  obtain ⟨_, guarantees, changes⟩ := plan_fresh Rehearsal.hashing (Rehearsal.verifiedChain (.int 1)) Rehearsal.answers
    (Rehearsal.verifiedChain_formed _)
  obtain ⟨_, guarantees', _⟩ := plan_fresh Rehearsal.hashing (Rehearsal.verifiedChain (.int 2)) Rehearsal.answers
    (Rehearsal.verifiedChain_formed _)
  have edge := Relation.TransGen.single (Rehearsal.verifiedChain_prerequisite (.int 1))
  have edge' := Relation.TransGen.single (Rehearsal.verifiedChain_prerequisite (.int 2))
  have fresh := (guarantees 2 _ resolved evaluated).2 _ edge
  have ⟨_, inner, planned, _, _, revision⟩ := fresh
  obtain ⟨_, inner', planned', _, _, revision'⟩ := (guarantees' 2 _ changed evaluated').2 _ edge'
  refine ⟨fresh, resolved, changed, evaluated, evaluated', ?_⟩
  refine changes (Json.identifies_abbreviate _) _ _ (Rehearsal.verifiedChain_formed (.int 2)) 2 2 _ _ resolved changed
    evaluated evaluated' _ (Rehearsal.verifiedBase (.int 2)) inner inner' edge
    (Rehearsal.verifiedChain_prerequisite (.int 2)).stored rfl planned planned' fun same => differ ?_
  exact revision.trans ((congrArg Json.str same).trans revision'.symm)

end Homelab.Configurations
