import Mathlib.Data.List.Basic
import Mathlib.Logic.Function.Iterate

namespace Graph

/-! # Recursions that are guarded by their path

A recursive function over a graph is given by one level of it, which takes the
function itself as an argument.  The level refuses a node whose key is on the
path that led to it.  With finitely many keys a bounded depth is never
exceeded, so what lies below that depth does not matter.
-/

variable {α κ β γ : Type*}

/-- A level is observed to depend on its callees only, one key further down the
path, and on nothing at all at a node that is on the path already. -/
structure PathGuarded (level : (α → List κ → β) → α → List κ → β) (observe : β → γ) (key : α → κ)
    (callee : α → α → Prop) : Prop where
  refuses : ∀ {node path}, key node ∈ path → ∀ first second,
    observe (level first node path) = observe (level second node path)
  descends : ∀ {node path first second}, (∀ other, callee node other →
      observe (first other (path ++ [key node])) = observe (second other (path ++ [key node]))) →
    observe (level first node path) = observe (level second node path)

variable [DecidableEq κ]

/-- The keys that may still be entered. -/
def remaining (known path : List κ) : Nat := (known.filter fun key => decide (key ∉ path)).length

theorem remaining_push_lt {known path : List κ} {key : κ} (listed : key ∈ known) (outside : key ∉ path) :
    remaining known (path ++ [key]) < remaining known path := by
  have pushed : (known.filter fun other => decide (other ∉ path ++ [key])) =
      (known.filter fun other => decide (other ∉ path)).filter fun other => decide (other ≠ key) := by
    rw [List.filter_filter]
    refine List.filter_congr fun other _ => ?_
    simp [and_comm]
  rw [remaining, remaining, pushed]
  exact List.length_filter_lt_length_iff_exists.mpr ⟨key, by simp [listed, outside], by simp⟩

variable {level : (α → List κ → β) → α → List κ → β} {observe : β → γ} {key : α → κ} {callee : α → α → Prop}
  {known : List κ}

/-- Below a depth that the remaining keys cannot exceed nothing is looked at. -/
theorem PathGuarded.settles (guarded : PathGuarded level observe key callee)
    (listed : ∀ node other, callee node other → key other ∈ known) {depth : Nat} {node : α} {path : List κ}
    (inside : key node ∈ known) (bounded : remaining known path ≤ depth) {frames others : Nat}
    (enough : depth < frames) (also : depth < others) (first second : α → List κ → β) :
    observe (level^[frames] first node path) = observe (level^[others] second node path) := by
  induction depth generalizing node path frames others with
  | zero =>
      obtain ⟨fewer, rfl⟩ := Nat.exists_eq_add_of_lt enough
      obtain ⟨less, rfl⟩ := Nat.exists_eq_add_of_lt also
      rw [Function.iterate_succ_apply', Function.iterate_succ_apply']
      refine guarded.refuses ?_ _ _
      by_contra outside
      have strict := remaining_push_lt inside outside
      omega
  | succ depth ih =>
      obtain ⟨fewer, rfl⟩ := Nat.exists_eq_add_of_lt enough
      obtain ⟨less, rfl⟩ := Nat.exists_eq_add_of_lt also
      rw [Function.iterate_succ_apply', Function.iterate_succ_apply']
      by_cases entered : key node ∈ path
      · exact guarded.refuses entered _ _
      · refine guarded.descends fun other calls => ih (listed node other calls) ?_ (by omega) (by omega)
        have strict := remaining_push_lt inside entered
        omega

/-- The root need not be one of the known nodes. -/
theorem PathGuarded.settles_root (guarded : PathGuarded level observe key callee)
    (listed : ∀ node other, callee node other → key other ∈ known) (node : α) (path : List κ) {frames others : Nat}
    (enough : known.length + 1 < frames) (also : known.length + 1 < others) (first second : α → List κ → β) :
    observe (level^[frames] first node path) = observe (level^[others] second node path) := by
  obtain ⟨fewer, rfl⟩ := Nat.exists_eq_add_of_lt enough
  obtain ⟨less, rfl⟩ := Nat.exists_eq_add_of_lt also
  rw [Function.iterate_succ_apply', Function.iterate_succ_apply']
  refine guarded.descends fun other calls => ?_
  exact guarded.settles listed (listed node other calls) (List.length_filter_le _ known) (by omega) (by omega) _ _

end Graph
