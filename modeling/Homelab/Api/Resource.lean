import Mathlib.Data.List.Forall2
import Homelab.Json.Merge
import Homelab.Versioned.Store
import Homelab.Interaction.Contract

namespace Homelab

/-- Errors of the operating system that the operators tell apart. -/
inductive OSFailure where
  | processLookup
  | permission
  | fileNotFound
  | other
deriving DecidableEq

/-- Exceptions.  An HTTP error is an operating system error as well; a
termination request is not an ordinary exception. -/
inductive Exn where
  | operator (reason message : String)
  | http (code : Nat)
  | os (failure : OSFailure)
  | timeoutExpired
  | calledProcess
  | error (kind message : String)
  | termination
deriving DecidableEq

/-- What `except Exception` catches. -/
def Exn.isException : Exn → Bool
  | .termination => false
  | _ => true

/-- What `except OSError` catches. -/
def Exn.isOSError : Exn → Bool
  | .http _ => true
  | .os _ => true
  | _ => false

/-- The resource kinds the API serves, each under its own collection. -/
inductive Kind where
  | server
  | provisioningRun
  | configuration
  | kubeCluster
  | operation
  | machine
  | iso
  | sshKeyPair
  | sshCertificateAuthority
  | inventoryCaptureGroup
  | gitRepository
  | command
deriving DecidableEq

namespace Kind

def text : Kind → String
  | .server => "Server"
  | .provisioningRun => "ProvisioningRun"
  | .configuration => "Configuration"
  | .kubeCluster => "KubeCluster"
  | .operation => "Operation"
  | .machine => "Machine"
  | .iso => "ISO"
  | .sshKeyPair => "SSHKeyPair"
  | .sshCertificateAuthority => "SSHCertificateAuthority"
  | .inventoryCaptureGroup => "InventoryCaptureGroup"
  | .gitRepository => "GitRepository"
  | .command => "Command"

def all : List Kind :=
  [.server, .provisioningRun, .configuration, .kubeCluster, .operation, .machine, .iso,
    .sshKeyPair, .sshCertificateAuthority, .inventoryCaptureGroup, .gitRepository, .command]

def ofText? (name : String) : Option Kind := all.find? (fun kind => kind.text == name)

end Kind

/-- Identity fields of a resource.  The resource version is an opaque token. -/
structure Metadata where
  name : String
  uid : String
  resourceVersion : Nat
  generation : Option Int := none
  deletionTimestamp : Option String := none
  annotations : Option (List (String × String)) := none
  labels : Option (List (String × String)) := none
  creationTimestamp : Option String := none
  finalizers : Option (List String) := none

/-- A validated envelope; spec and status stay JSON until they are interpreted. -/
structure Resource where
  kind : Kind
  metadata : Metadata
  spec : Json.Object
  status : Json.Object

open Json (Object)

namespace Metadata

def strings (entries : List (String × String)) : Json :=
  .obj (entries.map fun entry => (entry.1, .str entry.2))

def optional (key : String) (value : Option Json) : Object :=
  match value with
  | some value => [(key, value)]
  | none => []

/-- The metadata mapping as it is written into a document. -/
def json (metadata : Metadata) : Json :=
  .obj ([("name", .str metadata.name), ("uid", .str metadata.uid),
      ("resourceVersion", .str (toString metadata.resourceVersion))] ++
    optional "generation" (metadata.generation.map .int) ++
    optional "deletionTimestamp" (metadata.deletionTimestamp.map .str) ++
    optional "annotations" (metadata.annotations.map strings) ++
    optional "labels" (metadata.labels.map strings) ++
    optional "creationTimestamp" (metadata.creationTimestamp.map .str) ++
    optional "finalizers" (metadata.finalizers.map fun names => .arr (names.map .str)))

end Metadata

namespace Resource

abbrev name (resource : Resource) : String := resource.metadata.name

abbrev uid (resource : Resource) : String := resource.metadata.uid

def terminating (resource : Resource) : Bool := resource.metadata.deletionTimestamp.any (· ≠ "")

/-- Reference to this lifetime of a resource. -/
def reference (resource : Resource) : Json :=
  .obj [("name", .str resource.name), ("uid", .str resource.uid)]

def schema : Versioned.Schema Resource (Kind × String) where
  key resource := (resource.kind, resource.name)
  uid := uid
  version resource := resource.metadata.resourceVersion

end Resource

abbrev Store := Versioned.Store Resource

/-! ## Access to JSON mappings -/

def keyError (key : String) : Exn := .error "KeyError" key

/-- `mapping[key]` -/
def item (fields : Object) (key : String) : Except Exn Json :=
  match fields.get? key with
  | some value => .ok value
  | none => .error (keyError key)

/-- The mapping behind a value that is used as one. -/
def asObject : Json → Except Exn Object
  | .obj fields => .ok fields
  | _ => .error (.error "AttributeError" "get")

/-- `mapping.get(key, {})`, used as a mapping. -/
def member (fields : Object) (key : String) : Except Exn Object :=
  match fields.get? key with
  | some value => asObject value
  | none => .ok []

/-- `mapping[key]`, used as a mapping. -/
def itemObject (fields : Object) (key : String) : Except Exn Object :=
  item fields key >>= asObject

def asString : Json → Except Exn String
  | .str text => .ok text
  | _ => .error (.error "TypeError" "expected a string")

def asInt : Json → Except Exn Int
  | .int value => .ok value
  | _ => .error (.error "TypeError" "expected a number")

def asArray : Json → Except Exn (List Json)
  | .arr items => .ok items
  | _ => .error (.error "TypeError" "expected a list")

/-- `mapping[key]`, used as a string. -/
def itemString (fields : Object) (key : String) : Except Exn String :=
  item fields key >>= asString

/-- `mapping[key]`, used as a list. -/
def itemArray (fields : Object) (key : String) : Except Exn (List Json) :=
  item fields key >>= asArray

/-- `mapping.get(key, [])`, used as a list. -/
def memberArray (fields : Object) (key : String) : Except Exn (List Json) :=
  match fields.get? key with
  | some items => asArray items
  | none => .ok []

/-- Whether `mapping.get(key)` is true in a condition. -/
def holds (fields : Object) (key : String) : Bool := (fields.get? key).any Json.truthy

/-- `mapping.get(key)`: an absent member reads as null. -/
def value (fields : Object) (key : String) : Json := (fields.get? key).getD .null

/-- Raise `failure` unless `condition` holds. -/
def demand (condition : Bool) (failure : Exn) : Except Exn Unit :=
  if condition then .ok () else .error failure

/-! ### What a successful access has read -/

theorem demand_ok {condition : Bool} {failure : Exn} {result : Unit}
    (passed : demand condition failure = .ok result) : condition = true := by
  cases condition with
  | true => rfl
  | false => simp [demand] at passed

theorem holds_eq (fields : Object) (key : String) : holds fields key = (value fields key).truthy := by
  rw [holds, value]
  cases fields.get? key <;> rfl

theorem item_ok {fields : Object} {key : String} {result : Json} (found : item fields key = .ok result) :
    fields.get? key = some result := by
  unfold item at found
  split at found
  · rename_i stored lookup
    rw [lookup, Except.ok.inj found]
  · simp at found

theorem asObject_ok {result : Json} {fields : Object} (found : asObject result = .ok fields) :
    result = .obj fields := by
  cases result <;> simp [asObject] at found
  rw [found]

theorem bind_ok {ε α β : Type} {first : Except ε α} {next : α → Except ε β} {result : β}
    (done : first >>= next = .ok result) : ∃ value, first = .ok value ∧ next value = .ok result := by
  cases first with
  | error failure => cases done
  | ok value => exact ⟨value, rfl, done⟩

theorem itemObject_ok {fields result : Object} {key : String}
    (found : itemObject fields key = .ok result) : fields.get? key = some (.obj result) := by
  obtain ⟨stored, lookup, inside⟩ := bind_ok found
  rw [item_ok lookup, asObject_ok inside]

theorem asString_ok {result : Json} {text : String} (found : asString result = .ok text) :
    result = .str text := by
  cases result <;> simp [asString] at found
  rw [found]

theorem itemString_ok {fields : Object} {key text : String}
    (found : itemString fields key = .ok text) : fields.get? key = some (.str text) := by
  obtain ⟨stored, lookup, inside⟩ := bind_ok found
  rw [item_ok lookup, asString_ok inside]

theorem asInt_ok {result : Json} {number : Int} (found : asInt result = .ok number) :
    result = .int number := by
  cases result <;> simp [asInt] at found
  rw [found]

theorem asArray_ok {result : Json} {items : List Json} (found : asArray result = .ok items) :
    result = .arr items := by
  cases result <;> simp [asArray] at found
  rw [found]

theorem value_some {fields : Object} {key : String} {found : Json} (lookup : fields.get? key = some found) :
    value fields key = found := by
  rw [value, lookup]
  rfl

theorem value_set_self (fields : Object) (key : String) (added : Json) : value (fields.set key added) key = added := by
  rw [value, Object.get?_set_self]
  rfl

theorem value_set_ne {fields : Object} {key other : String} (different : key ≠ other) (replaced : Json) :
    value (fields.set key replaced) other = value fields other := by
  rw [value, value, Object.get?_set_ne fields replaced different]

@[simp] theorem ok_bind_eq {ε α β : Type} (result : α) (next : α → Except ε β) :
    (Except.ok result >>= next) = next result := rfl

@[simp] theorem demand_iff {condition : Bool} {failure : Exn} :
    demand condition failure = .ok () ↔ condition = true := by
  cases condition <;> simp [demand]

@[simp] theorem demand_true (failure : Exn) : demand true failure = .ok () := rfl

theorem mapM_ok {ε α β : Type} {next : α → Except ε β} {items : List α} {results : List β} :
    items.mapM next = .ok results ↔ List.Forall₂ (fun item result => next item = .ok result) items results := by
  induction items generalizing results with
  | nil =>
      simp only [List.mapM_nil, List.forall₂_nil_left_iff]
      constructor
      · intro done
        cases done
        rfl
      · intro same
        rw [same]
        rfl
  | cons item rest ih =>
      rw [List.mapM_cons, List.forall₂_cons_left_iff]
      constructor
      · intro done
        obtain ⟨first, read, done⟩ := bind_ok done
        obtain ⟨others, remaining, done⟩ := bind_ok done
        cases done
        exact ⟨first, others, read, ih.mp remaining, rfl⟩
      · intro ⟨first, others, read, remaining, same⟩
        rw [read, ok_bind_eq, ih.mpr remaining, same]
        rfl

theorem mem_left {α β : Type} {Related : α → β → Prop} {lefts : List α} {rights : List β}
    (related : List.Forall₂ Related lefts rights) {left : α} (listed : left ∈ lefts) :
    ∃ right ∈ rights, Related left right := by
  induction related with
  | nil => cases listed
  | cons first _ ih =>
      cases List.mem_cons.mp listed with
      | inl same =>
          subst same
          exact ⟨_, by simp, first⟩
      | inr later =>
          obtain ⟨right, member, found⟩ := ih later
          exact ⟨right, by simp [member], found⟩

theorem mem_right {α β : Type} {Related : α → β → Prop} {lefts : List α} {rights : List β}
    (related : List.Forall₂ Related lefts rights) {right : β} (listed : right ∈ rights) :
    ∃ left ∈ lefts, Related left right :=
  mem_left related.flip listed

/-! ## Requests -/

/-- A known_hosts file and what it holds. -/
structure KnownHosts where
  path : String
  content : String

/-- One SSH client invocation. -/
structure Session where
  arguments : List String
  host : String
  known : KnownHosts

structure Login where
  returncode : Int
  stderr : String
  known : String

structure Completed where
  returncode : Int
  stdout : String

/-- What a path turns out to be when it is inspected without following links. -/
inductive PathState where
  | missing
  | link
  | special
  | regular (size : Nat)

/-- Calls to the executor's host, to managed nodes and to other services. -/
inductive Host where
  | writeText (path content : String)
  | writeJson (path : String) (content : Json)
  | readText (path : String)
  | readJson (path : String)
  | inspectPath (path : String)
  | spawn (argv : List String) (files : List (String × Json))
  | startReader
  | wait (timeout : Nat)
  | killGroup
  | reap
  | probe (session : Session) (disk : Json)
  | login (session : Session)
  | services (session : Session) (command : String)
  | subprocess (argv : List String)
  | ansibleInventory (inventory : Json)
  | fetch (url method token : String) (body : Json)
  | head (url : String)
  | download (url : String)
  | rounds
  | now
  | uuid
  | warn (text : String)
  | work

@[reducible] def Host.Value : Host → Type
  | .writeText .. => Unit
  | .writeJson .. => Unit
  | .readText .. => String
  | .readJson .. => Json
  | .inspectPath .. => PathState
  | .spawn .. => Unit
  | .startReader => Unit
  | .wait .. => Int
  | .killGroup => Unit
  | .reap => Unit
  | .probe .. => Option Json
  | .login .. => Login
  | .services .. => Int
  | .subprocess .. => Completed
  | .ansibleInventory .. => Json
  | .fetch .. => Json
  | .head .. => Nat
  | .download .. => String
  | .rounds => Nat
  | .now => String
  | .uuid => String
  | .warn .. => Unit
  | .work => Unit

inductive Request where
  | get (kind : Kind) (name : String)
  | list (kind : Kind)
  | patchStatus (resource : Resource) (status : Object)
  | create (kind : Kind) (name : String) (spec : Object)
  | host (call : Host)

@[reducible] def Request.Value : Request → Type
  | .get .. => Resource
  | .list .. => List Resource
  | .patchStatus .. => Resource
  | .create .. => Resource
  | .host call => call.Value

abbrev interface : Interaction.Interface where
  Request := Request
  Value := Request.Value
  Failure := Exn

abbrev Task (α : Type) := Interaction.Op interface α

/-- A task that keeps the executor's local copy of a resource up to date. -/
abbrev Pass (σ α : Type) := Interaction.Action interface σ α

abbrev Event := Interaction.Event interface

abbrev Trace := Interaction.Trace interface

/-- A call to the host with the value it returns. -/
def Host.run (call : Host) : Task call.Value := @Interaction.Op.perform interface (.host call)

namespace Api

/-- Fetch a named resource. -/
def get (kind : Kind) (name : String) : Task Resource :=
  @Interaction.Op.perform interface (.get kind name)

/-- Fetch the current collection. -/
def list (kind : Kind) : Task (List Resource) := @Interaction.Op.perform interface (.list kind)

def patchable : List Kind := [.server, .provisioningRun, .configuration, .kubeCluster, .operation]

/-- Merge owned status fields only for the same resource lifetime and revision. -/
def patchStatus (resource : Resource) (status : Object) : Task Resource := do
  demand (patchable.contains resource.kind) (keyError resource.kind.text)
  @Interaction.Op.perform interface (.patchStatus resource status)

/-- Create one explicit resource; never retry an uncertain POST. -/
def create (kind : Kind) (name : String) (spec : Object) : Task Resource :=
  @Interaction.Op.perform interface (.create kind name spec)

end Api

end Homelab
