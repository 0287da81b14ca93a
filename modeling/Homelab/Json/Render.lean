import Homelab.Json.Basic

namespace Json

/-! # A text for every document

Every part of the text says where it ends, so that no two documents have the
same one.
-/

def renderNat : Nat → List Char
  | 0 => [';']
  | number + 1 => '1' :: renderNat number

def renderChars : List Char → List Char
  | [] => ['"']
  | char :: rest => '.' :: char :: renderChars rest

mutual
def render : Json → List Char
  | .null => ['n']
  | .bool value => [if value then 't' else 'f']
  | .int (.ofNat value) => 'i' :: renderNat value
  | .int (.negSucc value) => 'm' :: renderNat value
  | .str value => 's' :: renderChars value.toList
  | .arr items => 'a' :: renderItems items
  | .obj fields => 'o' :: renderFields fields
termination_by structural value => value

def renderItems : List Json → List Char
  | [] => [']']
  | item :: rest => ',' :: (render item ++ renderItems rest)
termination_by structural items => items

def renderFields : Object → List Char
  | [] => ['/']
  | (key, value) :: rest => ',' :: (renderChars key.toList ++ (render value ++ renderFields rest))
termination_by structural fields => fields
end

theorem renderNat_append {left right : Nat} {after other : List Char}
    (same : renderNat left ++ after = renderNat right ++ other) : left = right ∧ after = other := by
  induction left generalizing right with
  | zero =>
      cases right with
      | zero => exact ⟨rfl, List.append_cancel_left same⟩
      | succ right => simp [renderNat] at same
  | succ left ih =>
      cases right with
      | zero => simp [renderNat] at same
      | succ right =>
          obtain ⟨equal, rest⟩ := ih (List.cons.inj same).2
          exact ⟨congrArg Nat.succ equal, rest⟩

theorem renderChars_append {left right : List Char} {after other : List Char}
    (same : renderChars left ++ after = renderChars right ++ other) : left = right ∧ after = other := by
  induction left generalizing right with
  | nil =>
      cases right with
      | nil => exact ⟨rfl, List.append_cancel_left same⟩
      | cons char right => simp [renderChars] at same
  | cons char left ih =>
      cases right with
      | nil => simp [renderChars] at same
      | cons char' right =>
          simp only [renderChars, List.cons_append, List.cons.injEq, true_and] at same
          obtain ⟨equal, rest⟩ := ih same.2
          exact ⟨by rw [same.1, equal], rest⟩

mutual
theorem render_append : ∀ {left right : Json} {after other : List Char},
    render left ++ after = render right ++ other → left = right ∧ after = other
  | .null, right, after, other, same => by
      cases right with
      | null => exact ⟨rfl, List.append_cancel_left same⟩
      | bool value => cases value <;> simp [render] at same
      | int value => cases value <;> simp [render] at same
      | _ => simp [render] at same
  | .bool value, right, after, other, same => by
      cases right with
      | bool value' => cases value <;> cases value' <;> simp_all [render]
      | int value' => cases value <;> cases value' <;> simp [render] at same
      | _ => cases value <;> simp [render] at same
  | .int value, right, after, other, same => by
      cases right with
      | int value' =>
          cases value <;> cases value' <;> simp only [render, List.cons_append, List.cons.injEq, true_and] at same
          · obtain ⟨equal, rest⟩ := renderNat_append same
            exact ⟨by rw [equal], rest⟩
          · exact absurd same.1 (by decide)
          · exact absurd same.1 (by decide)
          · obtain ⟨equal, rest⟩ := renderNat_append same
            exact ⟨by rw [equal], rest⟩
      | bool value' => cases value <;> cases value' <;> simp [render] at same
      | _ => cases value <;> simp [render] at same
  | .str value, right, after, other, same => by
      cases right with
      | str value' =>
          simp only [render, List.cons_append, List.cons.injEq, true_and] at same
          obtain ⟨equal, rest⟩ := renderChars_append same
          exact ⟨by rw [String.toList_inj.mp equal], rest⟩
      | bool value' => cases value' <;> simp [render] at same
      | int value' => cases value' <;> simp [render] at same
      | _ => simp [render] at same
  | .arr items, right, after, other, same => by
      cases right with
      | arr items' =>
          simp only [render, List.cons_append, List.cons.injEq, true_and] at same
          obtain ⟨equal, rest⟩ := renderItems_append same
          exact ⟨by rw [equal], rest⟩
      | bool value' => cases value' <;> simp [render] at same
      | int value' => cases value' <;> simp [render] at same
      | _ => simp [render] at same
  | .obj fields, right, after, other, same => by
      cases right with
      | obj fields' =>
          simp only [render, List.cons_append, List.cons.injEq, true_and] at same
          obtain ⟨equal, rest⟩ := renderFields_append same
          exact ⟨by rw [equal], rest⟩
      | bool value' => cases value' <;> simp [render] at same
      | int value' => cases value' <;> simp [render] at same
      | _ => simp [render] at same

theorem renderItems_append : ∀ {left right : List Json} {after other : List Char},
    renderItems left ++ after = renderItems right ++ other → left = right ∧ after = other
  | [], right, after, other, same => by
      cases right with
      | nil => exact ⟨rfl, List.append_cancel_left same⟩
      | cons item rest => simp [renderItems] at same
  | item :: rest, right, after, other, same => by
      cases right with
      | nil => simp [renderItems] at same
      | cons item' rest' =>
          simp only [renderItems, List.cons_append, List.append_assoc, List.cons.injEq, true_and] at same
          obtain ⟨first, same⟩ := render_append same
          obtain ⟨later, ended⟩ := renderItems_append same
          exact ⟨by rw [first, later], ended⟩

theorem renderFields_append : ∀ {left right : Object} {after other : List Char},
    renderFields left ++ after = renderFields right ++ other → left = right ∧ after = other
  | [], right, after, other, same => by
      cases right with
      | nil => exact ⟨rfl, List.append_cancel_left same⟩
      | cons entry rest => simp [renderFields] at same
  | (key, value) :: rest, right, after, other, same => by
      cases right with
      | nil => simp [renderFields] at same
      | cons entry rest' =>
          obtain ⟨key', value'⟩ := entry
          simp only [renderFields, List.cons_append, List.append_assoc, List.cons.injEq, true_and] at same
          obtain ⟨keys, same⟩ := renderChars_append same
          obtain ⟨first, same⟩ := render_append same
          obtain ⟨later, ended⟩ := renderFields_append same
          exact ⟨by rw [String.toList_inj.mp keys, first, later], ended⟩
end

/-- Documents with the same text are the same, whatever order their keys come in. -/
def identify (document : Json) : String := String.ofList (render document.canonical)

/-- Equal digests belong to equal documents. -/
def Identifies (digest : Json → String) : Prop := ∀ left right, digest left = digest right → Same left right

theorem identifies_identify : Identifies identify := by
  intro left right same
  have texts : render left.canonical ++ [] = render right.canonical ++ [] := by
    rw [String.ofList_injective same]
  exact (render_append texts).1

/-- A digest that gives short texts to some documents. -/
def abbreviate (known : List Json) (document : Json) : String :=
  match known.findIdx? (fun other => decide (Same other document)) with
  | some position => String.ofList (List.replicate position '*')
  | none => identify document

theorem render_head (document : Json) : ∃ char rest, render document = char :: rest ∧ char ≠ '*' := by
  cases document with
  | bool value => cases value <;> exact ⟨_, _, rfl, by decide⟩
  | int value => cases value <;> exact ⟨_, _, rfl, by decide⟩
  | _ => exact ⟨_, _, rfl, by decide⟩

theorem replicate_ne_render (position : Nat) (document : Json) : List.replicate position '*' ≠ render document := by
  obtain ⟨char, rest, isRender, different⟩ := render_head document
  rw [isRender]
  cases position with
  | zero => simp
  | succ position =>
      intro same
      exact different (List.cons.inj same).1.symm

theorem identifies_abbreviate (known : List Json) : Identifies (abbreviate known) := by
  intro left right same
  unfold abbreviate at same
  cases first : known.findIdx? (fun other => decide (Same other left)) with
  | none =>
      cases second : known.findIdx? (fun other => decide (Same other right)) with
      | none =>
          rw [first, second] at same
          exact identifies_identify left right same
      | some position =>
          rw [first, second] at same
          exact (replicate_ne_render position _ (String.ofList_injective same).symm).elim
  | some position =>
      cases second : known.findIdx? (fun other => decide (Same other right)) with
      | none =>
          rw [first, second] at same
          exact (replicate_ne_render position _ (String.ofList_injective same)).elim
      | some other =>
          rw [first, second] at same
          have positions := congrArg List.length (String.ofList_injective same)
          simp only [List.length_replicate] at positions
          subst positions
          obtain ⟨inside, isLeft, _⟩ := List.findIdx?_eq_some_iff_getElem.mp first
          obtain ⟨_, isRight, _⟩ := List.findIdx?_eq_some_iff_getElem.mp second
          exact (of_decide_eq_true isLeft).symm.trans (of_decide_eq_true isRight)

end Json
