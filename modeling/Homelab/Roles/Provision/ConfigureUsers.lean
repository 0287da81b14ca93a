import Homelab.Interaction.Evaluation
import Homelab.Operators.Provisioning.Bodies
import Homelab.Operators.Provisioning.Rehearsal

namespace Homelab.ConfigureUsers

open Json (Object)
open Interaction (Op Program)
open Provisioning

/-! # Ordinary users of the installed root -/

structure Account where
  name : String
  shell : String
  groups : List String
  password : String

/-- What the script changes in the installed root. -/
structure Root where
  users : List Account
  groups : List String
  sshDirectories : List String
  authorizedKeys : List (String × String)

def Root.names (root : Root) : List String := root.users.map Account.name

/-- The commands that are run in the root. -/
inductive Command
  | groupadd (group : String)
  | useradd (shell : String) (groups : List String) (username : String)
  | usermod (password username : String)
  | chown (username : String)

def Root.withUser (root : Root) (user : Account) : Root :=
  { root with users := root.users ++ [user], groups := root.groups ++ [user.name] }

def Root.withPassword (root : Root) (username password : String) : Root :=
  { root with users := root.users.map fun user => if user.name = username then { user with password } else user }

/-- `useradd` also creates a group of the same name, and refuses a name that is taken. -/
def run (root : Root) : Command → Except Exn Root
  | .groupadd group => .ok { root with groups := root.groups.insert group }
  | .useradd shell groups username =>
      if username ∈ root.names ∨ username ∈ root.groups then .error .calledProcess
      else .ok (root.withUser { name := username, shell, groups, password := "!" })
  | .usermod password username => .ok (root.withPassword username password)
  | .chown _ => .ok root

def name (value : String) : Except Exn String :=
  if isLowerName value then .ok value else .error (runtimeError "Unsupported user/group name")

def isInstalledShell (text : String) : Bool :=
  match text.toList with
  | '/' :: first :: rest =>
      (first :: rest).all fun char => isAlphanumeric char || "_./-".toList.contains char
  | _ => false

def mkdir (root : Root) (username : String) : Except Exn Root :=
  if username ∈ root.sshDirectories then .error (.error "FileExistsError" "File exists")
  else .ok { root with sshDirectories := root.sshDirectories ++ [username] }

def authorize (root : Root) (username : String) (keys : List String) : Except Exn Root :=
  if keys = [] then .ok root
  else do
    let root ← mkdir root username
    let root : Root := { root with
      authorizedKeys := root.authorizedKeys ++ [(username, "\n".intercalate keys ++ "\n")] }
    run root (.chown username)

def configureGroup (root : Root) (group : String) : Except Exn Root := do
  run root (.groupadd (← name group))

def configureUser (root : Root) (entry : Json) : Except Exn Root := do
  let user ← asObject entry
  let username ← itemString user "name" >>= name
  demand (!(["root", "ansible", "homelabd"].contains username))
    (runtimeError "Reserved account is not an ordinary user")
  let listed ← stringList user "groups"
  let groups ← listed.mapM name
  let root ← groups.foldlM (fun root group => run root (.groupadd group)) root
  let shell ← stringOr user "shell" "/bin/bash"
  demand (isInstalledShell shell) (runtimeError "Invalid shell")
  let root ← run root (.useradd shell groups username)
  let root ← run root (.usermod (if holds user "locked" then "!" else "*") username)
  let keys ← stringList user "publicKeys"
  authorize root username keys

/-- Configure explicit users in the installed root; never generate credentials. -/
def configureUsers (groups users : Json) (root : Root) : Except Exn Root := do
  let listed ← asArray groups >>= fun items => items.mapM asString
  let root ← listed.foldlM configureGroup root
  let entries ← asArray users
  entries.foldlM configureUser root

/-! ## What a Server spec requests -/

def nameOf (entry : Json) : String :=
  match itemString entry.fields "name" with
  | .ok text => text
  | .error _ => ""

def groupsOf (fields : Object) : List String :=
  match stringList fields "groups" with
  | .ok groups => groups
  | .error _ => []

/-- The requested users with their groups. -/
def requestedUsers (desired : Object) : List (String × List String) :=
  match memberArray desired "users" with
  | .ok entries => entries.map fun entry => (nameOf entry, groupsOf entry.fields)
  | .error _ => []

/-- No user is named like a group that exists before it, its own groups included, or like an earlier user. -/
def Unshadowed (groups : List String) (users : List (String × List String)) : Prop :=
  ∀ earlier user later, users = earlier ++ user :: later →
    user.1 ∉ groups ∧ user.1 ∉ user.2 ∧ ∀ other ∈ earlier, user.1 ≠ other.1 ∧ user.1 ∉ other.2

/-- The root has nothing yet that belongs to a requested user. -/
def Fresh (root : Root) (users : List (String × List String)) : Prop :=
  ∀ user ∈ users, user.1 ∉ root.names ∧ user.1 ∉ root.groups ∧ user.1 ∉ root.sshDirectories

/-! ## One user -/

/-- An entry that the plan accepted and resolved. -/
structure Accepted (entry : Json) (username : String) (groups : List String) : Prop where
  entry : ∃ user : Object, entry = .obj user ∧ itemString user "name" = .ok username ∧
    stringList user "groups" = .ok groups ∧ (∃ shell, stringOr user "shell" "/bin/bash" = .ok shell ∧
      isShell shell = true) ∧ ∃ keys, stringList user "publicKeys" = .ok keys
  name : isLowerName username = true
  ordinary : ["root", "ansible", "homelabd"].contains username = false
  groups : groups.all isLowerName = true

section Users

variable {root after : Root} {username : String} {groups : List String} {entry : Json}

/-- The shells that validation accepts are a part of those that the script accepts. -/
theorem shell_accepted {shell : String} (accepted : isShell shell = true) : isInstalledShell shell = true := by
  unfold isShell at accepted
  split at accepted
  · rename_i first rest shape
    rw [isInstalledShell, shape]
    apply List.all_eq_true.mpr
    intro char listed
    have allowed := List.all_eq_true.mp accepted char listed
    rw [Bool.or_eq_true] at allowed ⊢
    cases allowed with
    | inl plain => exact .inl plain
    | inr special =>
        right
        simp only [List.contains_eq_mem, decide_eq_true_eq] at special ⊢
        have wider : ∀ char ∈ "_/-".toList, char ∈ "_./-".toList := by decide
        exact wider char special
  · cases accepted

theorem mapM_name (accepted : groups.all isLowerName = true) : groups.mapM name = .ok groups := by
  induction groups with
  | nil => rfl
  | cons group groups ih =>
      rw [List.all_cons, Bool.and_eq_true] at accepted
      rw [List.mapM_cons, ih accepted.2, name, if_pos accepted.1]
      rfl

/-- The groups are created, nothing else changes. -/
structure Grouped (root : Root) (groups : List String) (after : Root) : Prop where
  names : after.names = root.names
  groups : ∀ group, group ∈ after.groups ↔ group ∈ groups ∨ group ∈ root.groups
  sshDirectories : after.sshDirectories = root.sshDirectories

theorem groupadds (root : Root) (groups : List String) :
    ∃ after, groups.foldlM (fun root group => run root (.groupadd group)) root = .ok after ∧
      Grouped root groups after := by
  induction groups generalizing root with
  | nil => exact ⟨root, rfl, rfl, by simp, rfl⟩
  | cons group groups ih =>
      obtain ⟨after, ended, names, listed, same⟩ := ih { root with groups := root.groups.insert group }
      refine ⟨after, ended, names, fun other => ?_, same⟩
      rw [listed, List.mem_insert_iff, List.mem_cons]
      tauto

theorem configureGroups (root : Root) (accepted : groups.all isLowerName = true) :
    groups.foldlM configureGroup root = groups.foldlM (fun root group => run root (.groupadd group)) root := by
  induction groups generalizing root with
  | nil => rfl
  | cons group groups ih =>
      rw [List.all_cons, Bool.and_eq_true] at accepted
      have step : configureGroup root group = run root (.groupadd group) := by
        rw [configureGroup, name, if_pos accepted.1]
        rfl
      rw [List.foldlM_cons, List.foldlM_cons, step]
      cases run root (.groupadd group) with
      | error failure => rfl
      | ok next => exact ih next accepted.2

/-- A user is added with its groups and its own group. -/
structure Added (root : Root) (username : String) (groups : List String) (after : Root) : Prop where
  names : after.names = root.names ++ [username]
  groups : ∀ group, group ∈ after.groups ↔ group = username ∨ group ∈ groups ∨ group ∈ root.groups
  sshDirectories : ∀ other ∈ after.sshDirectories, other = username ∨ other ∈ root.sshDirectories

theorem authorize_ok {keys : List String} (absent : username ∉ root.sshDirectories) :
    ∃ after, authorize root username keys = .ok after ∧ after.names = root.names ∧ after.groups = root.groups ∧
      ∀ other ∈ after.sshDirectories, other = username ∨ other ∈ root.sshDirectories := by
  unfold authorize
  by_cases none : keys = []
  · rw [if_pos none]
    exact ⟨root, rfl, rfl, rfl, fun other listed => .inr listed⟩
  · rw [if_neg none, mkdir, if_neg absent]
    refine ⟨_, rfl, rfl, rfl, fun other listed => ?_⟩
    cases List.mem_append.mp listed with
    | inl before => exact .inr before
    | inr created => exact .inl (List.mem_singleton.mp created)

theorem withUser_names (user : Account) : (root.withUser user).names = root.names ++ [user.name] :=
  List.map_append

theorem withPassword_names (password : String) : (root.withPassword username password).names = root.names := by
  rw [Root.names, Root.withPassword, List.map_map]
  apply List.map_congr_left
  intro user _
  rw [Function.comp_apply]
  split <;> rfl

/-- For an accepted entry only the commands decide. -/
theorem configureUser_accepted (accepted : Accepted entry username groups) (root : Root) :
    ∃ grouped shell password keys, Grouped root groups grouped ∧
      configureUser root entry = run grouped (.useradd shell groups username) >>= fun root =>
        run root (.usermod password username) >>= fun root => authorize root username keys := by
  obtain ⟨⟨user, rfl, isName, isGroups, ⟨shell, isShell, shellAccepted⟩, keys, isKeys⟩, lower, ordinary, plain⟩ := accepted
  obtain ⟨grouped, created, facts⟩ := groupadds root groups
  have named : name username = .ok username := if_pos lower
  refine ⟨grouped, shell, if holds user "locked" then "!" else "*", keys, facts, ?_⟩
  rw [configureUser, asObject, ok_bind_eq, isName, ok_bind_eq, named, ok_bind_eq, ordinary]
  simp only [demand, Bool.not_false, if_true, ok_bind_eq, isGroups, mapM_name plain, created, isShell,
    shell_accepted shellAccepted, isKeys]

theorem configureUser_free (accepted : Accepted entry username groups) (unnamed : username ∉ root.names)
    (ungrouped : username ∉ root.groups) (apart : username ∉ groups)
    (directory : username ∈ root.sshDirectories → username ∈ root.names) :
    ∃ after, configureUser root entry = .ok after ∧ Added root username groups after := by
  obtain ⟨grouped, shell, password, keys, facts, reads⟩ := configureUser_accepted accepted root
  have untaken : ¬ (username ∈ grouped.names ∨ username ∈ grouped.groups) := by
    rw [facts.names, facts.groups]
    tauto
  have absent : username ∉ grouped.sshDirectories := by
    rw [facts.sshDirectories]
    exact fun listed => unnamed (directory listed)
  let user : Account := { name := username, shell, groups, password := "!" }
  obtain ⟨after, ended, names, sameGroups, directories⟩ :=
    @authorize_ok ((grouped.withUser user).withPassword username password) username keys absent
  refine ⟨after, ?_, ?_, ?_, ?_⟩
  · rw [reads, run, if_neg untaken, ok_bind_eq, run, ok_bind_eq]
    exact ended
  · rw [names, withPassword_names, withUser_names, facts.names]
  · intro group
    rw [sameGroups, Root.withPassword, Root.withUser, List.mem_append, List.mem_singleton, facts.groups]
    tauto
  · intro other listed
    rw [← facts.sshDirectories]
    exact directories other listed

theorem configureUser_taken (accepted : Accepted entry username groups) (done : configureUser root entry = .ok after) :
    username ∉ root.names ∧ username ∉ root.groups ∧ username ∉ groups := by
  obtain ⟨grouped, shell, password, keys, facts, reads⟩ := configureUser_accepted accepted root
  by_cases taken : username ∈ grouped.names ∨ username ∈ grouped.groups
  · rw [reads, run, if_pos taken] at done
    cases done
  · rw [facts.names, facts.groups] at taken
    tauto

end Users

/-! ## All users -/

section All

variable {root : Root} {entries : List Json} {users : List (String × List String)}

/-- The users are apart from what the root has, and from one another. -/
def Apart (root : Root) (users : List (String × List String)) : Prop :=
  ∀ earlier user later, users = earlier ++ user :: later →
    (user.1 ∉ root.names ∧ user.1 ∉ root.groups) ∧ user.1 ∉ user.2 ∧
      ∀ other ∈ earlier, user.1 ≠ other.1 ∧ user.1 ∉ other.2

theorem apart_cons {user : String × List String} {after : Root} (added : Added root user.1 user.2 after) :
    Apart root (user :: users) ↔
      (user.1 ∉ root.names ∧ user.1 ∉ root.groups ∧ user.1 ∉ user.2) ∧ Apart after users := by
  have names (name : String) : name ∉ after.names ↔ name ∉ root.names ∧ name ≠ user.1 := by
    rw [added.names, List.mem_append, List.mem_singleton, not_or]
  have groups (name : String) : name ∉ after.groups ↔ name ≠ user.1 ∧ name ∉ user.2 ∧ name ∉ root.groups := by
    rw [added.groups, not_or, not_or]
  constructor
  · intro apart
    obtain ⟨⟨unnamed, ungrouped⟩, own, _⟩ := apart [] user users rfl
    refine ⟨⟨unnamed, ungrouped, own⟩, ?_⟩
    intro earlier other later split
    obtain ⟨⟨unnamed, ungrouped⟩, own, before⟩ := apart (user :: earlier) other later (by rw [split]; rfl)
    obtain ⟨different, outside⟩ := before user (by simp)
    exact ⟨⟨(names _).mpr ⟨unnamed, different⟩, (groups _).mpr ⟨different, outside, ungrouped⟩⟩, own,
      fun third listed => before third (List.mem_cons_of_mem _ listed)⟩
  · intro ⟨⟨unnamed, ungrouped, own⟩, apart⟩ earlier other later split
    cases earlier with
    | nil =>
        cases split
        exact ⟨⟨unnamed, ungrouped⟩, own, by simp⟩
    | cons first earlier =>
        cases split
        obtain ⟨⟨unnamed, ungrouped⟩, own, before⟩ := apart earlier other later rfl
        obtain ⟨unnamed, different⟩ := (names _).mp unnamed
        obtain ⟨_, outside, ungrouped⟩ := (groups _).mp ungrouped
        refine ⟨⟨unnamed, ungrouped⟩, own, fun third listed => ?_⟩
        cases List.mem_cons.mp listed with
        | inl same => exact same ▸ ⟨different, outside⟩
        | inr inside => exact before third inside

/-- The loop over the users ends exactly when they are apart. -/
theorem configureUsers_loop (accepted : List.Forall₂ (fun entry user => Accepted entry user.1 user.2) entries users)
    (directories : ∀ user ∈ users, user.1 ∈ root.sshDirectories → user.1 ∈ root.names) :
    (∃ after, entries.foldlM configureUser root = .ok after) ↔ Apart root users := by
  induction accepted generalizing root with
  | nil =>
      refine ⟨fun _ earlier user later split => ?_, fun _ => ⟨root, rfl⟩⟩
      exact absurd split.symm (by simp)
  | @cons entry user entries users first _ ih =>
      obtain ⟨firstDirectory, others⟩ := List.forall_mem_cons.mp directories
      have next {middle : Root} (added : Added root user.1 user.2 middle) :
          (∃ after, entries.foldlM configureUser middle = .ok after) ↔ Apart middle users := by
        apply ih
        intro other listed directory
        rw [added.names, List.mem_append, List.mem_singleton]
        cases added.sshDirectories _ directory with
        | inl same => exact .inr same
        | inr before => exact .inl (others other listed before)
      constructor
      · intro ⟨after, ended⟩
        rw [List.foldlM_cons] at ended
        obtain ⟨middle, done, ended⟩ := bind_ok ended
        obtain ⟨unnamed, ungrouped, own⟩ := configureUser_taken first done
        obtain ⟨middle', done', added⟩ := configureUser_free first unnamed ungrouped own firstDirectory
        cases done.symm.trans done'
        exact (apart_cons added).mpr ⟨⟨unnamed, ungrouped, own⟩, (next added).mp ⟨after, ended⟩⟩
      · intro apart
        obtain ⟨⟨unnamed, ungrouped⟩, own, _⟩ := apart [] user users rfl
        obtain ⟨middle, done, added⟩ := configureUser_free first unnamed ungrouped own firstDirectory
        obtain ⟨after, ended⟩ := (next added).mpr ((apart_cons added).mp apart).2
        refine ⟨after, ?_⟩
        rw [List.foldlM_cons, done]
        exact ended

end All

/-! ## What validation accepts -/

section Resolved

variable {desired : Object} {events : Trace} {users : Json} {root : Root}

theorem resolveKey_text {reference key : Json} (reached : (resolveKey reference).Reached events key) :
    ∃ text, key = .str text := by
  obtain ⟨_, _, reached⟩ := reached.check
  obtain ⟨_, _, reached⟩ := reached.check
  obtain ⟨_, _, reached⟩ := reached.bind
  obtain ⟨_, _, reached⟩ := reached.check
  obtain ⟨_, _, reached⟩ := reached.check
  obtain ⟨_, _, reached⟩ := reached.check
  obtain ⟨normal, _, reached⟩ := reached.check
  exact ⟨normal, reached.done.symm⟩

theorem keys_texts {references keys : List Json}
    (resolved : List.Forall₂ (fun reference key => (resolveKey reference).Reached events key) references keys) :
    ∃ texts, keys.mapM asString = .ok texts := by
  induction resolved with
  | nil => exact ⟨[], rfl⟩
  | cons first _ ih =>
      obtain ⟨text, rfl⟩ := resolveKey_text first
      obtain ⟨texts, read⟩ := ih
      refine ⟨text :: texts, ?_⟩
      rw [List.mapM_cons, read]
      rfl

theorem resolveUser_accepted {entry result : Json} (reached : (resolveUser entry).Reached events result) :
    Accepted result (nameOf entry) (groupsOf entry.fields) := by
  obtain ⟨user, isUser, reached⟩ := reached.check
  obtain ⟨username, isName, reached⟩ := reached.check
  obtain ⟨_, named, reached⟩ := reached.check
  obtain ⟨groups, isGroups, reached⟩ := reached.check
  obtain ⟨shell, isShell, reached⟩ := reached.check
  obtain ⟨_, plain, reached⟩ := reached.check
  obtain ⟨_, _, reached⟩ := reached.check
  obtain ⟨references, _, reached⟩ := reached.check
  obtain ⟨keys, resolved, reached⟩ := reached.bind
  obtain ⟨texts, read⟩ := keys_texts resolved.mapM
  obtain rfl := reached.done
  obtain rfl := asObject_ok isUser
  obtain ⟨lower, ordinary⟩ := Bool.and_eq_true_iff.mp (demand_ok named)
  obtain ⟨plainGroups, plainShell⟩ := Bool.and_eq_true_iff.mp (demand_ok plain)
  have sameName : nameOf (.obj user) = username := by
    rw [nameOf, Json.fields, isName]
  have sameGroups : groupsOf (Json.obj user).fields = groups := by
    rw [groupsOf, Json.fields, isGroups]
  rw [sameName, sameGroups]
  refine ⟨⟨_, rfl, ?_, ?_, ⟨shell, ?_, plainShell⟩, texts, ?_⟩, lower, ?_, plainGroups⟩
  · rw [itemString, item, Object.get?_set_ne _ _ (by decide)]
    exact isName
  · rw [stringList, Object.get?_set_ne _ _ (by decide)]
    exact isGroups
  · rw [stringOr, Object.get?_set_ne _ _ (by decide)]
    exact isShell
  · rw [stringList, Object.get?_set_self]
    exact read
  · exact Bool.not_eq_true' _ ▸ ordinary

theorem resolveUsers_accepted (resolved : (resolveUsers desired).Ran events users) : ∃ entries, users = .arr entries ∧
    List.Forall₂ (fun entry user => Accepted entry user.1 user.2) entries (requestedUsers desired) := by
  obtain ⟨declared, isDeclared, reached⟩ := resolved.reached.check
  obtain ⟨entries, each, reached⟩ := reached.bind
  refine ⟨entries, reached.done.symm, ?_⟩
  rw [requestedUsers, isDeclared]
  rw [List.forall₂_map_right_iff]
  exact (each.mapM.imp fun _ _ reached => resolveUser_accepted reached).flip

theorem validated_groups (accepted : validateServerSettings desired = .ok ()) :
    ∃ groups, stringList desired "groups" = .ok groups ∧ groups.all isLowerName = true := by
  obtain ⟨_, _, accepted⟩ := bind_ok accepted
  obtain ⟨_, _, accepted⟩ := bind_ok accepted
  obtain ⟨_, _, accepted⟩ := bind_ok accepted
  obtain ⟨_, _, accepted⟩ := bind_ok accepted
  obtain ⟨_, _, accepted⟩ := bind_ok accepted
  obtain ⟨_, _, accepted⟩ := bind_ok accepted
  obtain ⟨_, _, accepted⟩ := bind_ok accepted
  obtain ⟨_, _, accepted⟩ := bind_ok accepted
  obtain ⟨_, _, accepted⟩ := bind_ok accepted
  obtain ⟨_, _, accepted⟩ := bind_ok accepted
  obtain ⟨_, _, accepted⟩ := bind_ok accepted
  obtain ⟨groups, isGroups, accepted⟩ := bind_ok accepted
  obtain ⟨_, plain, _⟩ := bind_ok accepted
  exact ⟨groups, isGroups, demand_ok plain⟩

theorem pinned_groups {groups : List String} (isGroups : stringList desired "groups" = .ok groups) :
    (asArray ((desired.get? "groups").getD (.arr [])) >>= fun items => items.mapM asString) = .ok groups := by
  unfold stringList at isGroups
  split at isGroups
  · rename_i absent
    rw [absent]
    exact isGroups
  · rename_i items present
    rw [present]
    exact isGroups

/-- A fresh root has no user of its own in the way. -/
theorem apart_fresh {groups : List String} {users : List (String × List String)} {grouped : Root}
    (fresh : Fresh root users) (created : Grouped root groups grouped) : Apart grouped users ↔ Unshadowed groups users := by
  have member {earlier later : List (String × List String)} {user : String × List String}
      (split : users = earlier ++ user :: later) : user ∈ users := by
    rw [split]
    simp
  constructor
  · intro apart earlier user later split
    obtain ⟨⟨_, ungrouped⟩, own, before⟩ := apart earlier user later split
    rw [created.groups, not_or] at ungrouped
    exact ⟨ungrouped.1, own, before⟩
  · intro unshadowed earlier user later split
    obtain ⟨ungrouped, own, before⟩ := unshadowed earlier user later split
    obtain ⟨unnamed, absent, _⟩ := fresh user (member split)
    refine ⟨⟨?_, ?_⟩, own, before⟩
    · rw [created.names]
      exact unnamed
    · rw [created.groups, not_or]
      exact ⟨ungrouped, absent⟩

end Resolved

/-- On a fresh root, the script reaches its end exactly when no requested user is shadowed by a group or another user. -/
theorem configure_users_iff {desired : Object} {events : Trace} {users : Json} {root : Root}
    (accepted : validateServerSettings desired = .ok ()) (resolved : (resolveUsers desired).Ran events users)
    (fresh : Fresh root (requestedUsers desired)) :
    (∃ after, configureUsers ((desired.get? "groups").getD (.arr [])) users root = .ok after) ↔
      Unshadowed (groupsOf desired) (requestedUsers desired) := by
  obtain ⟨groups, isGroups, plain⟩ := validated_groups accepted
  obtain ⟨entries, rfl, each⟩ := resolveUsers_accepted resolved
  obtain ⟨grouped, ended, created⟩ := groupadds root groups
  have declared : groupsOf desired = groups := by
    rw [groupsOf, isGroups]
  have directories : ∀ user ∈ requestedUsers desired, user.1 ∈ grouped.sshDirectories → user.1 ∈ grouped.names := by
    intro user listed directory
    rw [created.sshDirectories] at directory
    exact absurd directory (fresh user listed).2.2
  rw [configureUsers, pinned_groups isGroups, ok_bind_eq, configureGroups root plain, ended, ok_bind_eq, asArray, ok_bind_eq,
    configureUsers_loop each directories, apart_fresh fresh created, declared]

/-! ### A shared group, and a user with the name of a group -/

def unanswered (request : Request) : interface.Reply request := .error (.http 404)

def desiredUsers (groups : List String) (users : List (String × List String)) : Object :=
  [("operatingSystem", .obj []), ("groups", .arr (groups.map .str)),
    ("users", .arr (users.map fun user => .obj [("name", .str user.1), ("groups", .arr (user.2.map .str))]))]

/-- The base system of a new installation. -/
def baseRoot : Root where
  users := [{ name := "root", shell := "/bin/bash", groups := [], password := "!" }]
  groups := ["root", "sudo"]
  sshDirectories := []
  authorizedKeys := []

/-- Two users, of which one is in a group that is named like the other. -/
def sharedGroup : Object := desiredUsers ["staff"] [("alice", ["staff", "sudo"]), ("bob", ["alice"])]

def sameName : Object := desiredUsers ["alice"] [("alice", [])]

theorem shared_group_configured : ∃ users after, Op.eval unanswered (resolveUsers sharedGroup) = .ok users ∧
    configureUsers (.arr [.str "staff"]) users baseRoot = .ok after := by
  have accepted : (Op.eval unanswered (resolveUsers sharedGroup)).isOk = true := by decide +kernel
  cases evaluated : Op.eval unanswered (resolveUsers sharedGroup) with
  | error failure =>
      rw [evaluated] at accepted
      cases accepted
  | ok users =>
      have fresh : Fresh baseRoot (requestedUsers sharedGroup) := by
        unfold Fresh
        decide +kernel
      have apart : Unshadowed (groupsOf sharedGroup) (requestedUsers sharedGroup) := by
        have requested : requestedUsers sharedGroup = [("alice", ["staff", "sudo"]), ("bob", ["alice"])] := by decide +kernel
        have groups : groupsOf sharedGroup = ["staff"] := by decide +kernel
        intro earlier user later split
        rw [requested] at split
        rw [groups]
        cases earlier with
        | nil =>
            cases split
            decide +kernel
        | cons first earlier =>
            cases earlier with
            | nil =>
                cases split
                decide +kernel
            | cons second earlier => simp at split
      obtain ⟨after, ended⟩ := (configure_users_iff (by decide +kernel) (Op.ran_eval _ evaluated) fresh).mpr apart
      exact ⟨users, after, rfl, ended⟩

/-- A user named like one of the requested groups is accepted, and refused on the installed root. -/
theorem shadowed_user_refused : ¬ ∀ desired events users root, validateServerSettings desired = .ok () →
    (resolveUsers desired).Ran events users → Fresh root (requestedUsers desired) →
      ∃ after, configureUsers ((desired.get? "groups").getD (.arr [])) users root = .ok after := by
  intro configured
  have fresh : Fresh baseRoot (requestedUsers sameName) := by
    unfold Fresh
    decide +kernel
  have refused : (match Op.eval unanswered (resolveUsers sameName) with
    | .ok users => !(configureUsers ((sameName.get? "groups").getD (.arr [])) users baseRoot).isOk
    | .error _ => false) = true := by decide +kernel
  split at refused
  · rename_i users evaluated
    obtain ⟨after, ended⟩ := configured sameName _ users baseRoot (by decide +kernel) (Op.ran_eval _ evaluated) fresh
    rw [ended] at refused
    cases refused
  · cases refused

end Homelab.ConfigureUsers
