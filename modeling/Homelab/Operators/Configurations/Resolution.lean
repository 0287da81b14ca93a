import Homelab.Interaction.Runs
import Homelab.Json.Overwrite
import Homelab.Json.Render
import Homelab.Operators.Configurations.Plan

namespace Homelab.Configurations

open Json (Object)
open Interaction (Op)

/-! # What a resolution has read -/

variable {env : Environment} {events : Trace}

/-- Everything that a plan is made of. -/
structure Parts where
  targets : Targets
  sourceSpec : Object
  repositoryReference : Object
  repository : Resource
  commit : String
  kubeCluster : Option Resource
  references : List Object
  prerequisites : List Resource
  revisions : Object
  members : List Object

namespace Parts

def resolvedReferences (parts : Parts) : List Json :=
  ([parts.targets.target, parts.targets.group, parts.repository] ++ parts.targets.servers ++
    parts.kubeCluster.toList ++ parts.prerequisites).map observedReference

def inputs (parts : Parts) (configuration : Resource) : Object :=
  planInputs configuration parts.targets parts.repository parts.commit parts.resolvedReferences
    parts.kubeCluster parts.revisions parts.members

def plan (parts : Parts) (env : Environment) (configuration : Resource) : Plan where
  configuration
  target := parts.targets.target
  servers := parts.targets.servers
  hosts := parts.targets.hosts
  inputRevision := "sha256:" ++ env.digest (.obj (parts.inputs configuration))
  sourceRevision := parts.commit
  resolvedReferences := parts.resolvedReferences
  inventory := parts.targets.inventory
  kubeCluster := parts.kubeCluster

end Parts

/-- The parts are what the steps of `plan` returned; `resolve` plans the prerequisites. -/
structure Composed (env : Environment) (resolve : Resource → List String → Task Plan) (configuration : Resource)
    (stack : List String) (events : Trace) (parts : Parts) : Prop where
  unvisited : configuration.name ∉ stack
  active : holds configuration.spec "suspended" = false ∧ configuration.terminating = false
  targets : (resolveTargets env configuration).Reached events parts.targets
  source : mapping configuration.spec "source" = .ok parts.sourceSpec
  repositoryReference : reference parts.sourceSpec "repositoryRef" = .ok parts.repositoryReference
  repository : (fetchReference .gitRepository parts.repositoryReference).Reached events parts.repository
  commit : (sourceCommit parts.repository parts.sourceSpec env.checkout).Reached events parts.commit
  kubeCluster : (contextCluster configuration).Reached events parts.kubeCluster
  references : dependencies configuration = .ok parts.references
  prerequisites : (parts.references.mapM (fetchReference .configuration)).Reached events parts.prerequisites
  revisions : (prerequisiteInputs resolve configuration stack).Reached events parts.revisions
  members : parts.targets.servers.mapM memberInputs = .ok parts.members

theorem plan_reached {frames : Nat} {configuration : Resource} {stack : List String} {resolved : Plan}
    (reached : (plan env frames configuration stack).Reached events resolved) :
    ∃ fewer parts, frames = fewer + 1 ∧ Composed env (plan env fewer) configuration stack events parts ∧
      resolved = parts.plan env configuration := by
  cases frames with
  | zero =>
      obtain ⟨_, _, ran⟩ := reached
      exact (Op.ran_throw ran).elim
  | succ fewer =>
      obtain ⟨_, unvisited, reached⟩ := reached.check
      obtain ⟨_, active, reached⟩ := reached.check
      obtain ⟨targets, isTargets, reached⟩ := reached.bind
      obtain ⟨_, _, reached⟩ := reached.check
      obtain ⟨sourceSpec, source, reached⟩ := reached.check
      obtain ⟨repositoryReference, isReference, reached⟩ := reached.check
      obtain ⟨repository, isRepository, reached⟩ := reached.bind
      obtain ⟨commit, isCommit, reached⟩ := reached.bind
      obtain ⟨kubeCluster, isCluster, reached⟩ := reached.bind
      obtain ⟨references, isReferences, reached⟩ := reached.check
      obtain ⟨prerequisites, arePrerequisites, reached⟩ := reached.bind
      obtain ⟨revisions, areRevisions, reached⟩ := reached.bind
      obtain ⟨members, areMembers, reached⟩ := reached.check
      let parts : Parts := {
        targets, sourceSpec, repositoryReference, repository, commit, kubeCluster, references, prerequisites
        revisions, members }
      have active := demand_ok active
      simp only [Bool.and_eq_true, Bool.not_eq_true'] at active
      exact ⟨fewer, parts, rfl, ⟨by simpa using demand_ok unvisited, active, isTargets, source, isReference,
        isRepository, isCommit, isCluster, isReferences, arePrerequisites, areRevisions, areMembers⟩,
        reached.done.symm⟩

/-- One revision stands for one set of inputs. -/
theorem Parts.same_inputs {parts others : Parts} {configuration other : Resource}
    (identifies : Json.Identifies env.digest)
    (same : (parts.plan env configuration).inputRevision = (others.plan env other).inputRevision) :
    Json.Same (.obj (parts.inputs configuration)) (.obj (others.inputs other)) := by
  have digests := congrArg String.toList same
  simp only [Parts.plan, String.toList_append] at digests
  exact identifies _ _ (String.toList_inj.mp (List.append_cancel_left digests))

/-- What was fetched was asked for by the name of the reference. -/
theorem fetchReference_reached {kind : Kind} {reference : Object} {resource : Resource}
    (reached : (fetchReference kind reference).Reached events resource) :
    ∃ name, value reference "name" = .str name ∧ ⟨.get kind name, .ok resource⟩ ∈ events := by
  obtain ⟨name, isName, reached⟩ := reached.check
  obtain ⟨found, fetched, reached⟩ := reached.bind
  obtain ⟨_, _, reached⟩ := reached.check
  have same := reached.done
  subst same
  refine ⟨name, jsonString_ok isName, Op.Reached.perform (fetched.rethrow fun failure later ran => ?_)⟩
  split at ran
  · exact Op.ran_throw ran
  · exact Op.ran_throw ran

/-! ## The selected hosts -/

theorem collectHosts_names {entries : List (String × Json)} {known result : List (String × Object)}
    (collected : collectHosts entries known = .ok result) (distinct : (known.map Prod.fst).Nodup) :
    (result.map Prod.fst).Nodup := by
  induction entries generalizing known with
  | nil =>
      cases collected
      exact distinct
  | cons entry rest ih =>
      obtain ⟨name, document⟩ := entry
      obtain ⟨hostVars, _, collected⟩ := bind_ok collected
      cases found : known.find? (fun entry => entry.1 == name) with
      | none =>
          rw [found] at collected
          refine ih collected ?_
          rw [List.map_append, List.nodup_append]
          refine ⟨distinct, by simp, fun first listed second single => ?_⟩
          obtain ⟨entry, member, isFirst⟩ := List.mem_map.mp listed
          have different := List.find?_eq_none.mp found entry member
          simp only [List.map_cons, List.map_nil, List.mem_singleton] at single
          rw [single, ← isFirst]
          simpa using different
      | some entry =>
          rw [found] at collected
          obtain ⟨_, _, collected⟩ := bind_ok collected
          refine ih collected ?_
          have names : (known.map fun entry =>
              if entry.1 = name then (name, entry.2.update hostVars) else entry).map Prod.fst =
                known.map Prod.fst := by
            rw [List.map_map]
            apply List.map_congr_left
            intro entry _
            simp only [Function.comp]
            split
            · rename_i same
              exact same.symm
            · rfl
          rw [names]
          exact distinct

theorem resolvedInventoryHosts_names {inventory : Object} {hosts : List (String × Object)}
    (reached : (resolvedInventoryHosts env inventory).Reached events hosts) : (hosts.map Prod.fst).Nodup := by
  obtain ⟨_, _, reached⟩ := reached.bind
  obtain ⟨_, _, reached⟩ := reached.bind
  obtain ⟨_, _, reached⟩ := reached.check
  obtain ⟨_, _, reached⟩ := reached.check
  obtain ⟨resolved, _, reached⟩ := reached.check
  obtain ⟨names, named, reached⟩ := reached.check
  have read := mapM_ok.mp reached.lifted
  obtain ⟨entries, _, collected⟩ := bind_ok named
  have kept : List.Forall₂ (· = ·) (hosts.map Prod.fst) (names.map Prod.fst) := by
    rw [List.forall₂_map_left_iff, List.forall₂_map_right_iff]
    refine read.flip.imp fun host entry => ?_
    intro found
    obtain ⟨hostVars, _, same⟩ := bind_ok found
    cases same
    rfl
  rw [List.forall₂_eq_eq_eq] at kept
  rw [kept]
  exact collectHosts_names collected List.nodup_nil

theorem selectHosts_names {rawHosts : List (String × Object)} {servers : List Resource} {hosts selected : Object}
    (reached : (selectHosts rawHosts servers hosts).Reached events selected) {name : String} :
    name ∈ selected.map Prod.fst ↔ name ∈ hosts.map Prod.fst ∨ name ∈ servers.map Resource.name := by
  induction servers generalizing hosts with
  | nil =>
      rw [← reached.done]
      simp
  | cons server rest ih =>
      obtain ⟨_, _, reached⟩ := reached.bind
      split at reached
      · rw [ih reached, Object.mem_names_set, List.map_cons, List.mem_cons]
        tauto
      · obtain ⟨_, _, ran⟩ := reached
        exact (Op.ran_throw ran).elim

/-- The selected Servers have distinct names, and each of them has variables. -/
theorem resolveTargets_servers {configuration : Resource} {targets : Targets}
    (reached : (resolveTargets env configuration).Reached events targets)
    (honest : ∀ event ∈ events, Api.Honest event.request event.reply) :
    (targets.servers.map Resource.name).Nodup ∧
      ∀ server ∈ targets.servers, server.name ∈ targets.hosts.map Prod.fst := by
  obtain ⟨_, _, reached⟩ := reached.check
  obtain ⟨_, _, reached⟩ := reached.check
  obtain ⟨_, _, reached⟩ := reached.check
  obtain ⟨_, _, reached⟩ := reached.bind
  obtain ⟨_, _, reached⟩ := reached.check
  obtain ⟨_, _, reached⟩ := reached.bind
  obtain ⟨_, _, reached⟩ := reached.check
  obtain ⟨_, _, reached⟩ := reached.check
  obtain ⟨_, _, reached⟩ := reached.check
  obtain ⟨⟨_, inventory⟩, _, reached⟩ := reached.bind
  obtain ⟨_, _, reached⟩ := reached.check
  obtain ⟨rawHosts, isRawHosts, reached⟩ := reached.bind
  obtain ⟨_, _, reached⟩ := reached.check
  obtain ⟨servers, fetched, reached⟩ := reached.bind
  obtain ⟨hosts, selected, reached⟩ := reached.bind
  have same := reached.done
  subst same
  have named : servers.map Resource.name = (rawHosts.map Prod.fst).insertionSort (· ≤ ·) := by
    rw [← List.map_id ((rawHosts.map Prod.fst).insertionSort (· ≤ ·))]
    refine List.forall₂_eq_eq_eq ▸ ?_
    rw [List.forall₂_map_left_iff, List.forall₂_map_right_iff]
    refine fetched.mapM.flip.imp fun server name => ?_
    intro found
    obtain ⟨asked, isAsked, read⟩ := fetchReference_reached found
    cases isAsked
    exact (honest _ read).2
  refine ⟨?_, fun server member => (selectHosts_names selected).mpr (.inr (List.mem_map_of_mem member))⟩
  rw [named]
  exact ((List.perm_insertionSort _ _).nodup_iff).mpr (resolvedInventoryHosts_names isRawHosts)

end Homelab.Configurations
