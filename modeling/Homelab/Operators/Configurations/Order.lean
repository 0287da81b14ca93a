import Mathlib.Data.List.Sort
import Homelab.Graph.DepthFirst
import Homelab.Operators.Common

namespace Homelab

open Json (Object)

/-! # The order of the Configurations of one reconciliation -/

namespace Configurations

/-- Validated Configuration references in declaration order. -/
def dependencies (configuration : Resource) : Except Exn (List Object) :=
  match configuration.spec.get? "dependsOn" with
  | none => .ok []
  | some (.arr values) => values.mapM (jsonObject · "dependency")
  | some _ => .error (.error "ValueError" "dependsOn must be an array")

/-- `indexed[name] = configuration` -/
def assign (indexed : List (String × Resource)) (configuration : Resource) : List (String × Resource) :=
  if indexed.any (fun entry => entry.1 == configuration.name) then
    indexed.map fun entry => if entry.1 = configuration.name then (entry.1, configuration) else entry
  else indexed ++ [(configuration.name, configuration)]

def index (configurations : List Resource) : List (String × Resource) := configurations.foldl assign []

def lookup (indexed : List (String × Resource)) (name : String) : Except Exn Resource :=
  match indexed.lookup name with
  | some configuration => .ok configuration
  | none => .error (keyError name)

def recursionError : Exn := .error "RecursionError" "maximum recursion depth exceeded"

def dependencyCycle (name : String) : Exn :=
  .operator "DependencyCycle" ("Configuration dependency cycle at " ++ name)

/-- The marks of a traversal and what it has ordered. -/
structure Traversal where
  visiting : List String := []
  visited : List String := []
  ordered : List Resource := []

/-- Walk one component; `frames` is the call depth the interpreter still allows. -/
def visit (indexed : List (String × Resource)) : Nat → Traversal → String → Except Exn Traversal
  | 0, _, _ => throw recursionError
  | frames + 1, marks, name =>
      if marks.visiting.contains name then throw (dependencyCycle name)
      else if marks.visited.contains name then return marks
      else do
        let configuration ← lookup indexed name
        let references ← dependencies configuration
        let marks ← references.foldlM (fun marks reference => do
          let dependency ← jsonString (value reference "name") "dependency name"
          if (indexed.lookup dependency).isSome then visit indexed frames marks dependency
          else return marks) { marks with visiting := name :: marks.visiting }
        return {
          visiting := marks.visiting.erase name
          visited := marks.visited ++ [name]
          ordered := marks.ordered ++ [configuration] }

/-- Traverse dependencies before dependents; detect cycles before any work. -/
def dependencyOrder (frames : Nat) (configurations : List Resource) : Except Exn (List Resource) := do
  let indexed := index configurations
  let names := (indexed.map Prod.fst).insertionSort (· ≤ ·)
  let marks ← names.foldlM (visit indexed frames) {}
  return marks.ordered

/-! ## Dependencies by name -/

/-- `dependsOn` is an array of references by name. -/
def NamesDependencies (configuration : Resource) : Prop :=
  ∀ declared, configuration.spec.get? "dependsOn" = some declared → ∃ items, declared = .arr items ∧
    ∀ reference ∈ items, ∃ (fields : Object) (name : String),
      reference = .obj fields ∧ fields.get? "name" = some (.str name)

/-- `dependsOn` has a reference to this name. -/
def DependsOn (configuration : Resource) (name : String) : Prop :=
  ∃ (items : List Json) (fields : Object), configuration.spec.get? "dependsOn" = some (.arr items) ∧ .obj fields ∈ items ∧
    fields.get? "name" = some (.str name)

/-- The dependency graph between the names of a list. -/
def Requires (configurations : List Resource) (name dependency : String) : Prop :=
  (∃ configuration ∈ configurations, configuration.name = name ∧ DependsOn configuration dependency) ∧
    dependency ∈ configurations.map Resource.name

/-- Some Configuration of the list requires itself, directly or through others. -/
def Cyclic (configurations : List Resource) : Prop :=
  ∃ name, Relation.TransGen (Requires configurations) name name

def referenceName : Json → Option String
  | .obj fields =>
      match Object.get? fields "name" with
      | some (.str name) => some name
      | _ => none
  | _ => none

/-- The names in `dependsOn`, in declaration order. -/
def dependencyNames (configuration : Resource) : List String :=
  match configuration.spec.get? "dependsOn" with
  | some (.arr items) => items.filterMap referenceName
  | _ => []

/-- What has to be visited before a name. -/
def requirements (configurations : List Resource) (name : String) : List String :=
  match configurations.find? (fun configuration => configuration.name == name) with
  | some configuration =>
      (dependencyNames configuration).filter fun dependency =>
        (configurations.map Resource.name).contains dependency
  | none => []

theorem mem_dependencyNames {configuration : Resource} {name : String} :
    name ∈ dependencyNames configuration ↔ DependsOn configuration name := by
  unfold dependencyNames DependsOn
  constructor
  · intro member
    split at member
    · rename_i items declared
      obtain ⟨reference, listed, named⟩ := List.mem_filterMap.mp member
      cases reference with
      | obj fields =>
          refine ⟨items, fields, declared, listed, ?_⟩
          simp only [referenceName] at named
          split at named
          · rename_i found
            cases named
            exact found
          · cases named
      | _ => cases named
    · cases member
  · rintro ⟨items, fields, declared, listed, named⟩
    rw [declared]
    exact List.mem_filterMap.mpr ⟨.obj fields, listed, by simp [referenceName, named]⟩

section

variable {configurations : List Resource}

theorem foldl_assign {indexed : List (String × Resource)}
    (distinct : (indexed.map Prod.fst ++ configurations.map Resource.name).Nodup) :
    configurations.foldl assign indexed =
      indexed ++ configurations.map fun configuration => (configuration.name, configuration) := by
  induction configurations generalizing indexed with
  | nil => simp
  | cons configuration rest ih =>
      have absent : configuration.name ∉ indexed.map Prod.fst := by
        intro member
        exact (List.nodup_append.mp distinct).2.2 _ member _ (by simp) rfl
      have fresh : indexed.any (fun entry => entry.1 == configuration.name) = false := by
        rw [List.any_eq_false]
        intro entry member same
        exact absent (List.mem_map.mpr ⟨entry, member, eq_of_beq same⟩)
      rw [List.foldl_cons, assign, fresh, if_neg (by simp)]
      rw [ih (by simpa using distinct)]
      simp

theorem index_eq (distinct : (configurations.map Resource.name).Nodup) :
    index configurations = configurations.map fun configuration => (configuration.name, configuration) := by
  have start : (([] : List (String × Resource)).map Prod.fst ++ configurations.map Resource.name).Nodup := distinct
  simpa [index] using foldl_assign start

theorem lookup_index (name : String) :
    (configurations.map fun configuration => (configuration.name, configuration)).lookup name =
      configurations.find? (fun configuration => configuration.name == name) := by
  induction configurations with
  | nil => rfl
  | cons configuration rest ih =>
      simp only [List.map_cons, List.lookup_cons, List.find?_cons, ih]
      rw [BEq.comm]

end

/-- Well formed references are read back as the names they have. -/
theorem read_references {items : List Json} (named : ∀ reference ∈ items, ∃ (fields : Object) (name : String),
      reference = .obj fields ∧ fields.get? "name" = some (.str name)) :
    ∃ references, items.mapM (jsonObject · "dependency") = .ok references ∧
      references.map (fun reference => jsonString (value reference "name") "dependency name") =
        (items.filterMap referenceName).map .ok := by
  induction items with
  | nil => exact ⟨[], rfl, rfl⟩
  | cons item rest ih =>
      obtain ⟨fields, name, rfl, found⟩ := named item (by simp)
      obtain ⟨references, read, names⟩ := ih fun reference member => named reference (by simp [member])
      refine ⟨fields :: references, ?_, ?_⟩
      · rw [List.mapM_cons, read]
        rfl
      · have head : jsonString (value fields "name") "dependency name" = .ok name := by
          simp [value, found, jsonString]
        simp [referenceName, found, head, names]

theorem dependencies_names {configuration : Resource} (named : NamesDependencies configuration) :
    ∃ references, dependencies configuration = .ok references ∧
      references.map (fun reference => jsonString (value reference "name") "dependency name") =
        (dependencyNames configuration).map .ok := by
  unfold dependencies dependencyNames
  cases declared : configuration.spec.get? "dependsOn" with
  | none => exact ⟨[], rfl, rfl⟩
  | some document =>
      obtain ⟨items, rfl, references⟩ := named document declared
      exact read_references references

/-! ## The traversal is a depth-first search -/

section

variable {configurations : List Resource}

/-- The Configurations of a list of names. -/
def resolve (configurations : List Resource) (names : List String) : List Resource :=
  names.filterMap fun name => configurations.find? fun configuration => configuration.name == name

/-- The traversal that a search from an open path stands for. -/
def outcome (configurations : List Resource) (path : List String) :
    Except (Graph.Halt String) (List String) → Except Exn Traversal
  | .ok finished => .ok ⟨path, finished, resolve configurations finished⟩
  | .error (.cycle name) => .error (dependencyCycle name)
  | .error .depth => .error recursionError

theorem known_iff {name : String} :
    (configurations.find? fun configuration => configuration.name == name).isSome =
      (configurations.map Resource.name).contains name := by
  induction configurations with
  | nil => rfl
  | cons configuration rest ih =>
      simp only [List.find?_cons, List.map_cons, List.contains_cons]
      rw [BEq.comm (a := name)]
      cases configuration.name == name with
      | true => rfl
      | false => simpa using ih

theorem found_index (distinct : (configurations.map Resource.name).Nodup) (name : String) :
    ((index configurations).lookup name).isSome = (configurations.map Resource.name).contains name := by
  rw [index_eq distinct, lookup_index, known_iff]

/-- One step of the loop over the references of a Configuration. -/
theorem foldlM_visit (distinct : (configurations.map Resource.name).Nodup) {frames : Nat}
    {path : List String}
    (visits : ∀ name ∈ configurations.map Resource.name, ∀ finished,
      visit (index configurations) frames ⟨path, finished, resolve configurations finished⟩ name =
        outcome configurations path (Graph.finish (requirements configurations) frames path finished name))
    (references : List Object) (names : List String)
    (read : references.map (fun reference => jsonString (value reference "name") "dependency name") =
      names.map .ok) (finished : List String) :
    references.foldlM (fun marks reference => do
        let dependency ← jsonString (value reference "name") "dependency name"
        if ((index configurations).lookup dependency).isSome then
          visit (index configurations) frames marks dependency
        else return marks) ⟨path, finished, resolve configurations finished⟩ =
      outcome configurations path
        ((names.filter fun name => (configurations.map Resource.name).contains name).foldlM
          (Graph.finish (requirements configurations) frames path) finished) := by
  induction references generalizing names finished with
  | nil =>
      cases names with
      | nil => rfl
      | cons name names => cases read
  | cons reference rest ih =>
      cases names with
      | nil => cases read
      | cons name names =>
          obtain ⟨head, tail⟩ := List.cons.inj read
          simp only at head
          simp only [List.foldlM_cons, head, List.filter_cons, ok_bind_eq, found_index distinct] at ih ⊢
          split
          · rename_i found
            rw [visits name (by simpa using found), List.foldlM_cons]
            cases Graph.finish (requirements configurations) frames path finished name with
            | ok finished => exact ih names tail finished
            | error halt => cases halt <;> rfl
          · exact ih names tail finished

/-- Visiting a name of the list is a search from it. -/
theorem visit_eq (distinct : (configurations.map Resource.name).Nodup)
    (named : ∀ configuration ∈ configurations, NamesDependencies configuration) (frames : Nat)
    {path finished : List String} {name : String} (member : name ∈ configurations.map Resource.name) :
    visit (index configurations) frames ⟨path, finished, resolve configurations finished⟩ name =
      outcome configurations path (Graph.finish (requirements configurations) frames path finished name) := by
  induction frames generalizing path finished name with
  | zero => rfl
  | succ frames ih =>
      simp only [visit, Graph.finish, List.contains_iff_mem]
      split
      · rfl
      · split
        · rfl
        · have found : (configurations.find? fun configuration => configuration.name == name).isSome := by
            rw [known_iff]
            simpa using member
          obtain ⟨configuration, found⟩ := Option.isSome_iff_exists.mp found
          have listed := List.mem_of_find?_eq_some found
          obtain ⟨references, read, names⟩ := dependencies_names (named configuration listed)
          have looked : lookup (index configurations) name = .ok configuration := by
            rw [lookup, index_eq distinct, lookup_index, found]
          have needs : requirements configurations name = (dependencyNames configuration).filter
              fun dependency => (configurations.map Resource.name).contains dependency := by
            rw [requirements, found]
          rw [looked, ok_bind_eq, read, ok_bind_eq, needs]
          rw [foldlM_visit distinct (fun name known finished => ih known) references _ names]
          cases List.foldlM (Graph.finish (requirements configurations) frames (name :: path)) finished
              ((dependencyNames configuration).filter fun dependency =>
                (configurations.map Resource.name).contains dependency) with
          | ok finished => simp [outcome, resolve, found]
          | error halt => cases halt <;> rfl

/-- The names in the order they are visited. -/
def sortedNames (configurations : List Resource) : List String :=
  (configurations.map Resource.name).insertionSort (· ≤ ·)

theorem mem_sortedNames {name : String} :
    name ∈ sortedNames configurations ↔ name ∈ configurations.map Resource.name :=
  (List.perm_insertionSort _ _).mem_iff

theorem dependencyOrder_eq (distinct : (configurations.map Resource.name).Nodup)
    (named : ∀ configuration ∈ configurations, NamesDependencies configuration) (frames : Nat) :
    dependencyOrder frames configurations =
      (outcome configurations []
        (Graph.traverse (requirements configurations) frames (sortedNames configurations))).map
          Traversal.ordered := by
  have walk : ∀ (names finished : List String),
      (∀ name ∈ names, name ∈ configurations.map Resource.name) →
      names.foldlM (visit (index configurations) frames) ⟨[], finished, resolve configurations finished⟩ =
        outcome configurations []
          (names.foldlM (Graph.finish (requirements configurations) frames []) finished) := by
    intro names
    induction names with
    | nil => exact fun _ _ => rfl
    | cons name names ih =>
        intro finished known
        rw [List.foldlM_cons, visit_eq distinct named frames (known name (by simp)), List.foldlM_cons]
        cases Graph.finish (requirements configurations) frames [] finished name with
        | ok finished => exact ih finished fun other member => known other (by simp [member])
        | error halt => cases halt <;> rfl
  have names : (index configurations).map Prod.fst = configurations.map Resource.name := by
    rw [index_eq distinct, List.map_map]
    rfl
  have whole := walk (sortedNames configurations) [] fun name member => mem_sortedNames.mp member
  unfold dependencyOrder Graph.traverse
  simp only [names]
  rw [← whole]
  rfl

/-- Names select Configurations. -/
theorem find_iff (distinct : (configurations.map Resource.name).Nodup) {name : String}
    {configuration : Resource} :
    configurations.find? (fun configuration => configuration.name == name) = some configuration ↔
      configuration ∈ configurations ∧ configuration.name = name := by
  constructor
  · intro found
    have same : (configuration.name == name) = true :=
      List.find?_some (p := fun entry : Resource => entry.name == name) found
    exact ⟨List.mem_of_find?_eq_some found, eq_of_beq same⟩
  · intro ⟨member, same⟩
    cases found : configurations.find? (fun configuration => configuration.name == name) with
    | none =>
        have absent := List.find?_eq_none.mp found configuration member
        simp [same] at absent
    | some other =>
        have matched : (other.name == name) = true :=
          List.find?_some (p := fun entry : Resource => entry.name == name) found
        have equal := List.inj_on_of_nodup_map distinct (List.mem_of_find?_eq_some found) member
          ((eq_of_beq matched).trans same.symm)
        rw [equal]

theorem edge_iff (distinct : (configurations.map Resource.name).Nodup) {name dependency : String} :
    Graph.Edge (requirements configurations) name dependency ↔
      Requires configurations name dependency := by
  unfold Graph.Edge requirements Requires
  constructor
  · intro needed
    cases found : configurations.find? (fun configuration => configuration.name == name) with
    | none =>
        rw [found] at needed
        cases needed
    | some configuration =>
        rw [found] at needed
        obtain ⟨declared, known⟩ := List.mem_filter.mp needed
        obtain ⟨member, same⟩ := (find_iff distinct).mp found
        exact ⟨⟨configuration, member, same, mem_dependencyNames.mp declared⟩, by simpa using known⟩
  · intro ⟨⟨configuration, member, same, depends⟩, known⟩
    rw [(find_iff distinct).mpr ⟨member, same⟩]
    exact List.mem_filter.mpr ⟨mem_dependencyNames.mpr depends, by simpa using known⟩

theorem requirements_known (name : String) :
    ∀ dependency ∈ requirements configurations name, dependency ∈ sortedNames configurations := by
  intro dependency needed
  unfold requirements at needed
  split at needed
  · exact mem_sortedNames.mpr (by simpa using (List.mem_filter.mp needed).2)
  · cases needed

theorem length_sortedNames : (sortedNames configurations).length = configurations.length := by
  simp [sortedNames]

theorem cyclic_iff (distinct : (configurations.map Resource.name).Nodup) :
    (∃ name ∈ sortedNames configurations,
      Relation.TransGen (Graph.Edge (requirements configurations)) name name) ↔ Cyclic configurations := by
  have same : Graph.Edge (requirements configurations) = Requires configurations :=
    funext fun _ => funext fun _ => propext (edge_iff distinct)
  rw [same]
  constructor
  · intro ⟨name, _, cycle⟩
    exact ⟨name, cycle⟩
  · intro ⟨name, cycle⟩
    obtain ⟨_, _, last⟩ := Relation.TransGen.tail'_iff.mp cycle
    exact ⟨name, mem_sortedNames.mpr last.2, cycle⟩

/-- A list of the names in another order resolves to the Configurations in that order. -/
theorem resolve_perm (distinct : (configurations.map Resource.name).Nodup) {names : List String}
    (nodup : names.Nodup) (listed : ∀ name, name ∈ names ↔ name ∈ sortedNames configurations) :
    (resolve configurations names).Perm configurations := by
  have same : names.Perm (configurations.map Resource.name) :=
    (List.perm_ext_iff_of_nodup nodup distinct).mpr fun name => (listed name).trans mem_sortedNames
  have whole : resolve configurations (configurations.map Resource.name) = configurations := by
    unfold resolve
    rw [List.filterMap_map]
    refine Eq.trans (List.filterMap_congr fun configuration member => ?_) List.filterMap_some
    exact (find_iff distinct).mpr ⟨member, rfl⟩
  calc
    (resolve configurations names).Perm (resolve configurations (configurations.map Resource.name)) :=
      same.filterMap _
    _ = configurations := whole

theorem resolve_names (distinct : (configurations.map Resource.name).Nodup) {names : List String}
    (known : ∀ name ∈ names, name ∈ sortedNames configurations) :
    (resolve configurations names).map Resource.name = names := by
  induction names with
  | nil => rfl
  | cons name names ih =>
      obtain ⟨configuration, member, same⟩ := List.mem_map.mp (mem_sortedNames.mp (known name (by simp)))
      have found := (find_iff distinct).mpr ⟨member, same⟩
      have rest := ih fun other member => known other (by simp [member])
      unfold resolve at rest ⊢
      rw [List.filterMap_cons, found, List.map_cons, rest, same]

/-! ## Dependency order -/

/-- With more frames than Configurations, the traversal either reports a cycle of
the dependencies inside the list, or orders the list. -/
theorem dependencies_precede (configurations : List Resource)
    (distinct : (configurations.map Resource.name).Nodup)
    (named : ∀ configuration ∈ configurations, NamesDependencies configuration) :
    ∃ result, (∀ frames, configurations.length < frames →
        dependencyOrder frames configurations = result) ∧
      ((∃ message, result = .error (.operator "DependencyCycle" message)) ↔ Cyclic configurations) ∧
      (¬ Cyclic configurations → ∃ ordered, result = .ok ordered ∧ ordered.Perm configurations ∧
        ∀ before dependent after, ordered = before ++ dependent :: after →
          ∀ dependency ∈ configurations, DependsOn dependent dependency.name → dependency ∈ before) := by
  have closed : ∀ name ∈ sortedNames configurations, ∀ dependency ∈ requirements configurations name,
      dependency ∈ sortedNames configurations := fun name _ => requirements_known name
  let enough := configurations.length + 1
  have frames : (sortedNames configurations).length < enough := by
    rw [length_sortedNames]
    exact Nat.lt_succ_self _
  have finite := Graph.traverse_frames closed frames
  refine ⟨dependencyOrder enough configurations, fun frames more => ?_, ?_, ?_⟩
  · rw [dependencyOrder_eq distinct named, dependencyOrder_eq distinct named,
      Graph.traverse_mono more finite]
  · rw [← cyclic_iff distinct, ← Graph.traverse_cyclic_iff closed frames, dependencyOrder_eq distinct named]
    constructor
    · intro ⟨message, reported⟩
      cases searched : Graph.traverse (requirements configurations) enough (sortedNames configurations) with
      | ok order =>
          rw [searched] at reported
          cases reported
      | error halt =>
          cases halt with
          | cycle again => exact ⟨again, rfl⟩
          | depth => exact absurd searched finite
    · intro ⟨again, stopped⟩
      exact ⟨"Configuration dependency cycle at " ++ again, by rw [stopped]; rfl⟩
  · intro acyclic
    rw [← cyclic_iff distinct, ← Graph.traverse_cyclic_iff closed frames] at acyclic
    cases searched : Graph.traverse (requirements configurations) enough (sortedNames configurations) with
    | error halt =>
        cases halt with
        | cycle again => exact absurd ⟨again, searched⟩ acyclic
        | depth => exact absurd searched finite
    | ok order =>
        obtain ⟨settled, nodup, listed⟩ := Graph.traverse_ok closed searched
        have names := resolve_names distinct fun name member => (listed name).mp member
        have perm := resolve_perm distinct nodup listed
        refine ⟨resolve configurations order, ?_, perm, ?_⟩
        · rw [dependencyOrder_eq distinct named, searched]
          rfl
        · intro before dependent after split dependency known depends
          rw [split, List.map_append, List.map_cons] at names
          have member : dependent ∈ configurations := by
            rw [← perm.mem_iff, split]
            simp
          have edge : dependency.name ∈ requirements configurations dependent.name :=
            (edge_iff distinct).mpr ⟨⟨dependent, member, rfl, depends⟩, List.mem_map_of_mem known⟩
          have earlier := settled _ _ _ names.symm dependency.name edge
          obtain ⟨placed, inside, same⟩ := List.mem_map.mp earlier
          have listed : placed ∈ configurations := by
            rw [← perm.mem_iff, split]
            simp [inside]
          exact List.inj_on_of_nodup_map distinct listed known same ▸ inside

end

def baseSetup : Resource :=
  { kind := .configuration, metadata := { name := "base", uid := "b", resourceVersion := 1 }, spec := []
    status := [] }

def dependentSetup : Resource :=
  { kind := .configuration, metadata := { name := "dependent", uid := "d", resourceVersion := 1 }
    spec := [("dependsOn", .arr [.obj [("name", .str "base")], .obj [("name", .str "elsewhere")]])]
    status := [] }

theorem dependencies_precede_setups :
    ∃ result, (∀ frames, 2 < frames → dependencyOrder frames [dependentSetup, baseSetup] = result) ∧
      ((∃ message, result = .error (.operator "DependencyCycle" message)) ↔
        Cyclic [dependentSetup, baseSetup]) ∧
      (¬ Cyclic [dependentSetup, baseSetup] → ∃ ordered, result = .ok ordered ∧
        ordered.Perm [dependentSetup, baseSetup] ∧
        ∀ before dependent after, ordered = before ++ dependent :: after →
          ∀ dependency ∈ [dependentSetup, baseSetup], DependsOn dependent dependency.name →
            dependency ∈ before) := by
  refine dependencies_precede [dependentSetup, baseSetup] (by decide) ?_
  intro configuration member declared found
  simp only [List.mem_cons, List.not_mem_nil, or_false] at member
  rcases member with rfl | rfl
  · cases found
    refine ⟨_, rfl, fun reference listed => ?_⟩
    simp only [List.mem_cons, List.not_mem_nil, or_false] at listed
    rcases listed with rfl | rfl
    · exact ⟨_, _, rfl, rfl⟩
    · exact ⟨_, _, rfl, rfl⟩
  · cases found

end Configurations

end Homelab
