import Mathlib.Data.List.Nodup
import Mathlib.Data.List.Infix
import Mathlib.Logic.Relation

namespace Graph

/-! # Depth-first orders

`next` lists the nodes that must be finished before a node.  The search keeps
the path of entered, unfinished nodes and the list of finished ones; it stops at
a node that is entered again, and when it has no call frame left.
-/

variable {α : Type*} [DecidableEq α] {next : α → List α}

inductive Halt (α : Type*) where
  | cycle (node : α)
  | depth
deriving DecidableEq

/-- Finish `node` after everything it needs; `path` lists the newest node first,
the finished nodes are listed oldest first. -/
def finish (next : α → List α) : Nat → List α → List α → α → Except (Halt α) (List α)
  | 0, _, _, _ => .error .depth
  | frames + 1, path, finished, node =>
      if node ∈ path then .error (.cycle node)
      else if node ∈ finished then .ok finished
      else do
        let finished ← (next node).foldlM (finish next frames (node :: path)) finished
        return finished ++ [node]

def traverse (next : α → List α) (frames : Nat) (roots : List α) : Except (Halt α) (List α) :=
  roots.foldlM (finish next frames []) []

/-- `other` must be finished before `node`. -/
def Edge (next : α → List α) (node other : α) : Prop := other ∈ next node

/-- Every node comes after all the nodes it needs. -/
def Settled (next : α → List α) (finished : List α) : Prop :=
  ∀ before node after, finished = before ++ node :: after → ∀ other ∈ next node, other ∈ before

omit [DecidableEq α] in
theorem Settled.nil : Settled next [] := by
  intro before node after empty
  simp at empty

omit [DecidableEq α] in
theorem Settled.snoc {finished : List α} {node : α} (settled : Settled next finished)
    (ready : ∀ other ∈ next node, other ∈ finished) : Settled next (finished ++ [node]) := by
  intro before last after split other needed
  cases after using List.reverseRecOn with
  | nil =>
      obtain ⟨same, equal⟩ := List.append_inj' split rfl
      cases equal
      rw [← same]
      exact ready other needed
  | append_singleton after final _ =>
      have inner : finished ++ [node] = (before ++ last :: after) ++ [final] := by
        simpa using split
      have same := (List.append_inj' inner rfl).1
      exact settled before last after same other needed

theorem Settled.before {finished : List α} {node other : α} (settled : Settled next finished)
    (member : node ∈ finished) (edge : Edge next node other) :
    other ∈ finished ∧ finished.idxOf other < finished.idxOf node := by
  obtain ⟨before, after, split, first⟩ := List.eq_append_cons_of_mem member
  have earlier : other ∈ before := settled before node after split other edge
  refine ⟨by simp [split, earlier], ?_⟩
  rw [split, List.idxOf_append_of_mem earlier, List.idxOf_append_of_notMem first]
  have bound := List.idxOf_lt_length_of_mem earlier
  omega

/-- A settled list contains no node of a cycle. -/
theorem Settled.acyclic {finished : List α} {node : α} (settled : Settled next finished)
    (member : node ∈ finished) : ¬ Relation.TransGen (Edge next) node node := by
  have descends : ∀ other, Relation.TransGen (Edge next) node other →
      other ∈ finished ∧ finished.idxOf other < finished.idxOf node := by
    intro other path
    induction path with
    | single edge => exact settled.before member edge
    | tail _ edge earlier =>
        have step := settled.before earlier.1 edge
        exact ⟨step.1, Nat.lt_trans step.2 earlier.2⟩
  intro cycle
  exact Nat.lt_irrefl _ (descends node cycle).2

/-! ## Folds that may stop -/

variable {σ ε β : Type*} {step : σ → β → Except ε σ}

/-- A fold that completes keeps what each of its steps keeps, and ends with what
each of them has reached. -/
theorem foldlM_ok (Reached : β → σ → Prop) {Good : σ → Prop} {Keeps : σ → σ → Prop}
    (refl : ∀ state, Keeps state state)
    (trans : ∀ first second third, Keeps first second → Keeps second third → Keeps first third)
    (persists : ∀ item state result, Keeps state result → Reached item state → Reached item result)
    {items : List β}
    (keeps : ∀ item ∈ items, ∀ state result, Good state → step state item = .ok result →
      Good result ∧ Keeps state result ∧ Reached item result)
    {start final : σ} (good : Good start) (folded : items.foldlM step start = .ok final) :
    Good final ∧ Keeps start final ∧ ∀ item ∈ items, Reached item final := by
  induction items generalizing start with
  | nil =>
      cases folded
      exact ⟨good, refl _, by simp⟩
  | cons item rest ih =>
      rw [List.foldlM_cons] at folded
      cases moved : step start item with
      | error failure =>
          rw [moved] at folded
          cases folded
      | ok middle =>
          rw [moved] at folded
          have first := keeps item (by simp) start middle good moved
          have later := ih (fun item member => keeps item (by simp [member])) first.1 folded
          refine ⟨later.1, trans _ _ _ first.2.1 later.2.1, fun other member => ?_⟩
          cases List.mem_cons.mp member with
          | inl same =>
              subst same
              exact persists _ _ _ later.2.1 first.2.2
          | inr listed => exact later.2.2 other listed

/-- A fold that stops does so at a step from a state its earlier steps reached. -/
theorem foldlM_error (Good : σ → Prop) {items : List β} {failure : ε}
    (keeps : ∀ item ∈ items, ∀ state result, Good state → step state item = .ok result → Good result)
    {start : σ} (good : Good start) (folded : items.foldlM step start = .error failure) :
    ∃ item ∈ items, ∃ state, Good state ∧ step state item = .error failure := by
  induction items generalizing start with
  | nil => cases folded
  | cons item rest ih =>
      rw [List.foldlM_cons] at folded
      cases moved : step start item with
      | error stopped =>
          rw [moved] at folded
          cases folded
          exact ⟨item, by simp, start, good, moved⟩
      | ok middle =>
          rw [moved] at folded
          have reached := keeps item (by simp) start middle good moved
          obtain ⟨other, member, state, found⟩ :=
            ih (fun item member => keeps item (by simp [member])) reached folded
          exact ⟨other, by simp [member], state, found⟩

/-! ## The search -/

/-- What finishing more nodes adds to the finished ones: none of them is on the path. -/
def Grows (path : List α) (first last : List α) : Prop :=
  (∀ node ∈ first, node ∈ last) ∧ ∀ node ∈ last, node ∈ first ∨ node ∉ path

omit [DecidableEq α] in
theorem Grows.refl (path first : List α) : Grows path first first :=
  ⟨fun _ member => member, fun _ member => .inl member⟩

omit [DecidableEq α] in
theorem Grows.trans {path first second third : List α} (left : Grows path first second)
    (right : Grows path second third) : Grows path first third := by
  refine ⟨fun node member => right.1 node (left.1 node member), fun node member => ?_⟩
  rcases right.2 node member with found | fresh
  · exact left.2 node found
  · exact .inr fresh

/-- The finished nodes list no node twice, follow their needs and are drawn from `nodes`. -/
structure Ordered (next : α → List α) (nodes finished : List α) : Prop where
  settled : Settled next finished
  nodup : finished.Nodup
  drawn : ∀ node ∈ finished, node ∈ nodes

variable {nodes : List α}

omit [DecidableEq α] in
theorem Ordered.snoc {finished : List α} {node : α} (ordered : Ordered next nodes finished)
    (ready : ∀ other ∈ next node, other ∈ finished) (absent : node ∉ finished) (known : node ∈ nodes) :
    Ordered next nodes (finished ++ [node]) where
  settled := ordered.settled.snoc ready
  nodup := by
    rw [List.nodup_append]
    refine ⟨ordered.nodup, by simp, fun left member right last => ?_⟩
    rw [List.mem_singleton.mp last]
    intro same
    exact absent (same ▸ member)
  drawn other member := by
    cases List.mem_append.mp member with
    | inl earlier => exact ordered.drawn other earlier
    | inr last => exact List.mem_singleton.mp last ▸ known

theorem finish_ok (closed : ∀ node ∈ nodes, ∀ other ∈ next node, other ∈ nodes) (frames : Nat)
    {path first last : List α} {node : α} (known : node ∈ nodes) (ordered : Ordered next nodes first)
    (finished : finish next frames path first node = .ok last) :
    Ordered next nodes last ∧ Grows path first last ∧ node ∈ last := by
  induction frames generalizing path first last node with
  | zero => cases finished
  | succ frames ih =>
      rw [finish] at finished
      split at finished
      · cases finished
      · split at finished
        · rename_i _ visited
          cases finished
          exact ⟨ordered, .refl _ _, visited⟩
        · rename_i entered visited
          cases folded : (next node).foldlM (finish next frames (node :: path)) first with
          | error failure =>
              rw [folded] at finished
              cases finished
          | ok middle =>
              rw [folded] at finished
              cases finished
              have walk := foldlM_ok (fun other state => other ∈ state)
                (Grows.refl (node :: path)) (fun _ _ _ => Grows.trans)
                (fun other _ _ grows => grows.1 other)
                (fun other needed _ _ good => ih (closed node known other needed) good) ordered folded
              obtain ⟨settled, grows, ready⟩ := walk
              have absent : node ∉ middle := by
                intro member
                cases grows.2 node member with
                | inl before => exact visited before
                | inr fresh => exact fresh (by simp)
              refine ⟨settled.snoc ready absent known, ⟨fun other member => ?_, fun other member => ?_⟩, ?_⟩
              · exact List.mem_append_left _ (grows.1 other member)
              · cases List.mem_append.mp member with
                | inl earlier =>
                    cases grows.2 other earlier with
                    | inl before => exact .inl before
                    | inr fresh => exact .inr fun onPath => fresh (by simp [onPath])
                | inr last =>
                    rw [List.mem_singleton.mp last]
                    exact .inr entered
              · simp

/-- A node entered again needs itself, when everything on the path needs the node entered. -/
theorem finish_cycle (closed : ∀ node ∈ nodes, ∀ other ∈ next node, other ∈ nodes) (frames : Nat)
    {path first : List α} {node again : α} (known : node ∈ nodes)
    (leads : ∀ above ∈ path, Relation.TransGen (Edge next) above node)
    (stopped : finish next frames path first node = .error (.cycle again)) :
    again ∈ nodes ∧ Relation.TransGen (Edge next) again again := by
  induction frames generalizing path first node with
  | zero => cases stopped
  | succ frames ih =>
      rw [finish] at stopped
      split at stopped
      · rename_i entered
        cases stopped
        exact ⟨known, leads _ entered⟩
      · split at stopped
        · cases stopped
        · cases folded : (next node).foldlM (finish next frames (node :: path)) first with
          | ok middle =>
              rw [folded] at stopped
              cases stopped
          | error failure =>
              rw [folded] at stopped
              cases stopped
              obtain ⟨other, needed, state, _, inner⟩ :=
                foldlM_error (fun _ => True) (fun _ _ _ _ _ _ => trivial) trivial folded
              refine ih (closed node known other needed) (fun above member => ?_) inner
              cases List.mem_cons.mp member with
              | inl same =>
                  subst same
                  exact .single needed
              | inr higher => exact (leads above higher).tail needed

/-- The path lists distinct nodes, so more frames than nodes are never used up. -/
theorem finish_frames (closed : ∀ node ∈ nodes, ∀ other ∈ next node, other ∈ nodes) (frames : Nat)
    {path first : List α} {node : α} (distinct : path.Nodup) (drawn : ∀ above ∈ path, above ∈ nodes)
    (known : node ∈ nodes) (enough : nodes.length < frames + path.length) :
    finish next frames path first node ≠ .error .depth := by
  induction frames generalizing path first node with
  | zero =>
      have bound := distinct.length_le_of_subset drawn
      omega
  | succ frames ih =>
      intro stopped
      rw [finish] at stopped
      split at stopped
      · cases stopped
      · split at stopped
        · cases stopped
        · rename_i entered _
          cases folded : (next node).foldlM (finish next frames (node :: path)) first with
          | ok middle =>
              rw [folded] at stopped
              cases stopped
          | error failure =>
              rw [folded] at stopped
              cases stopped
              obtain ⟨other, needed, state, _, inner⟩ :=
                foldlM_error (fun _ => True) (fun _ _ _ _ _ _ => trivial) trivial folded
              refine ih (List.nodup_cons.mpr ⟨entered, distinct⟩) ?_ (closed node known other needed) ?_
                inner
              · intro above member
                cases List.mem_cons.mp member with
                | inl same => exact same ▸ known
                | inr higher => exact drawn above higher
              · simp only [List.length_cons]
                omega

/-- Steps that agree on a completed or finally stopped fold give the same fold. -/
theorem foldlM_agree (Final : Except ε σ → Prop) {other : σ → β → Except ε σ} {items : List β}
    (agree : ∀ item ∈ items, ∀ state, Final (step state item) → other state item = step state item)
    (moves : ∀ state, Final (.ok state)) {start : σ} (final : Final (items.foldlM step start)) :
    items.foldlM other start = items.foldlM step start := by
  induction items generalizing start with
  | nil => rfl
  | cons item rest ih =>
      rw [List.foldlM_cons] at final ⊢
      rw [List.foldlM_cons]
      cases moved : step start item with
      | error failure =>
          rw [moved] at final
          have same := agree item (by simp) start (by rw [moved]; exact final)
          rw [same, moved]
          rfl
      | ok middle =>
          rw [moved] at final
          have same := agree item (by simp) start (by rw [moved]; exact moves middle)
          rw [same, moved]
          exact ih (fun item member => agree item (by simp [member])) final

/-- More frames do not change the outcome of a search that did not run out of them. -/
theorem finish_mono {frames more : Nat} (le : frames ≤ more) {path first : List α} {node : α}
    (ends : finish next frames path first node ≠ .error .depth) :
    finish next more path first node = finish next frames path first node := by
  induction frames generalizing more path first node with
  | zero => exact absurd rfl ends
  | succ frames ih =>
      obtain ⟨more, rfl⟩ := Nat.exists_eq_succ_of_ne_zero (by omega : more ≠ 0)
      simp only [finish] at ends ⊢
      split
      · rfl
      · split
        · rfl
        · rename_i entered visited
          rw [if_neg entered, if_neg visited] at ends
          have completes : (next node).foldlM (finish next frames (node :: path)) first ≠ .error .depth :=
            fun stopped => ends (by rw [stopped]; rfl)
          have same : (next node).foldlM (finish next more (node :: path)) first =
              (next node).foldlM (finish next frames (node :: path)) first :=
            foldlM_agree (fun outcome => outcome ≠ .error .depth)
              (fun other _ state final => ih (by omega) final) (by simp) completes
          rw [same]

/-! ## From all roots -/

variable {frames : Nat}

/-- Searching from every node lists each of them once, after all it needs. -/
theorem traverse_ok (closed : ∀ node ∈ nodes, ∀ other ∈ next node, other ∈ nodes) {order : List α}
    (traversed : traverse next frames nodes = .ok order) :
    Settled next order ∧ order.Nodup ∧ ∀ node, node ∈ order ↔ node ∈ nodes := by
  have start : Ordered next nodes [] := ⟨.nil, .nil, by simp⟩
  have walk := foldlM_ok (fun node state => node ∈ state)
    (Grows.refl []) (fun _ _ _ => Grows.trans) (fun node _ _ grows => grows.1 node)
    (fun node known _ _ good => finish_ok closed frames known good) start traversed
  exact ⟨walk.1.settled, walk.1.nodup, fun node => ⟨walk.1.drawn node, walk.2.2 node⟩⟩

theorem traverse_cycle (closed : ∀ node ∈ nodes, ∀ other ∈ next node, other ∈ nodes) {again : α}
    (stopped : traverse next frames nodes = .error (.cycle again)) :
    again ∈ nodes ∧ Relation.TransGen (Edge next) again again := by
  obtain ⟨node, known, state, _, inner⟩ :=
    foldlM_error (fun _ => True) (fun _ _ _ _ _ _ => trivial) trivial stopped
  exact finish_cycle closed frames known (by simp) inner

theorem traverse_frames (closed : ∀ node ∈ nodes, ∀ other ∈ next node, other ∈ nodes)
    (enough : nodes.length < frames) : traverse next frames nodes ≠ .error .depth := by
  intro stopped
  obtain ⟨node, known, state, _, inner⟩ :=
    foldlM_error (fun _ => True) (fun _ _ _ _ _ _ => trivial) trivial stopped
  exact finish_frames closed frames .nil (by simp) known (by simpa using enough) inner

theorem traverse_mono {roots : List α} {more : Nat} (le : frames ≤ more)
    (ends : traverse next frames roots ≠ .error .depth) :
    traverse next more roots = traverse next frames roots := by
  apply foldlM_agree (fun outcome => outcome ≠ .error .depth)
  · intro node _ state final
    exact finish_mono le final
  · simp
  · exact ends

/-- The search stops at a node entered again exactly when some node needs itself. -/
theorem traverse_cyclic_iff (closed : ∀ node ∈ nodes, ∀ other ∈ next node, other ∈ nodes)
    (enough : nodes.length < frames) :
    (∃ again, traverse next frames nodes = .error (.cycle again)) ↔
      ∃ node ∈ nodes, Relation.TransGen (Edge next) node node := by
  constructor
  · intro ⟨again, stopped⟩
    exact ⟨again, traverse_cycle closed stopped⟩
  · intro ⟨node, known, cycle⟩
    cases outcome : traverse next frames nodes with
    | ok order =>
        obtain ⟨settled, _, listed⟩ := traverse_ok closed outcome
        exact absurd cycle (settled.acyclic ((listed node).mpr known))
    | error halt =>
        cases halt with
        | cycle again => exact ⟨again, rfl⟩
        | depth => exact absurd outcome (traverse_frames closed enough)

end Graph
