import Mathlib.Data.Option.Basic
import Homelab.Json.Basic

/-! # JSON Pointer and JSON Patch

A pointer is a text of reference tokens; a patch is a list of operations that
are applied in order, all of them or none.
-/

namespace Json

/-! ## Pointers -/

namespace Pointer

/-- A token writes `~` as `~0` and `/` as `~1`. -/
def escapeChar (char : Char) : List Char :=
  if char = '~' then ['~', '0'] else if char = '/' then ['~', '1'] else [char]

def escape (token : String) : String := String.ofList (token.toList.flatMap escapeChar)

def unescape : List Char → Option (List Char)
  | [] => some []
  | '~' :: '0' :: rest => (unescape rest).map ('~' :: ·)
  | '~' :: '1' :: rest => (unescape rest).map ('/' :: ·)
  | '~' :: _ => none
  | char :: rest => (unescape rest).map (char :: ·)

def parse (text : String) : Option (List String) :=
  match text.toList with
  | [] => some []
  | '/' :: rest => (rest.splitOn '/').mapM fun part => (unescape part).map String.ofList
  | _ => none

def render (tokens : List String) : String := String.join (tokens.map fun token => "/" ++ escape token)

/-- The index of an array that a token names: digits without leading zeros. -/
def index (token : String) : Option Nat :=
  if token.toList.all Char.isDigit ∧ token ≠ "" ∧ (token = "0" ∨ token.toList.head? ≠ some '0') then
    some (token.toList.foldl (fun number char => 10 * number + (char.toNat - '0'.toNat)) 0)
  else none

theorem unescape_cons {char : Char} (plain : char ≠ '~') (rest : List Char) :
    unescape (char :: rest) = (unescape rest).map (char :: ·) := by
  rw [unescape] <;> simp [plain]

theorem unescape_escape (chars : List Char) : unescape (chars.flatMap escapeChar) = some chars := by
  induction chars with
  | nil => rfl
  | cons char rest ih =>
      rw [List.flatMap_cons]
      by_cases tilde : char = '~'
      · subst tilde
        simp [escapeChar, unescape, ih]
      · by_cases slash : char = '/'
        · subst slash
          simp [escapeChar, unescape, ih]
        · have same : escapeChar char = [char] := by simp [escapeChar, tilde, slash]
          rw [same, List.singleton_append, unescape_cons tilde, ih]
          rfl

theorem slash_notMem_escape (chars : List Char) : '/' ∉ chars.flatMap escapeChar := by
  intro member
  obtain ⟨char, _, written⟩ := List.mem_flatMap.mp member
  unfold escapeChar at written
  split at written
  · simp at written
  · split at written
    · simp at written
    · rename_i slash
      exact slash (List.mem_singleton.mp written).symm

theorem render_toList (tokens : List String) :
    (render tokens).toList = tokens.flatMap fun token => '/' :: token.toList.flatMap escapeChar := by
  simp only [render, escape, String.toList_join, List.flatMap_map]
  simp

theorem splitOn_slashed (first : List Char) (others : List (List Char)) (plain : '/' ∉ first)
    (plains : ∀ other ∈ others, '/' ∉ other) :
    (first ++ others.flatMap ('/' :: ·)).splitOn '/' = first :: others := by
  induction others generalizing first with
  | nil =>
      rw [List.flatMap_nil, List.append_nil]
      exact List.splitOn_eq_singleton plain
  | cons second others ih =>
      rw [List.flatMap_cons, List.cons_append, List.splitOn_append_cons_self_of_not_mem plain]
      rw [ih second (plains second (by simp)) fun other member => plains other (by simp [member])]

theorem mapM_unescape (tokens : List String) :
    (tokens.map fun token => token.toList.flatMap escapeChar).mapM
      (fun part => (unescape part).map String.ofList) = some tokens := by
  induction tokens with
  | nil => rfl
  | cons token rest ih => simp [List.mapM_cons, unescape_escape, ih]

/-- Rendering tokens loses nothing, whatever characters they contain. -/
theorem parse_render (tokens : List String) : parse (render tokens) = some tokens := by
  cases tokens with
  | nil => rfl
  | cons token rest =>
      have written : (render (token :: rest)).toList =
          '/' :: (token.toList.flatMap escapeChar ++
            (rest.map fun other => other.toList.flatMap escapeChar).flatMap ('/' :: ·)) := by
        rw [render_toList, List.flatMap_cons, List.flatMap_map, List.cons_append]
      have parts := splitOn_slashed (token.toList.flatMap escapeChar)
        (rest.map fun other => other.toList.flatMap escapeChar) (slash_notMem_escape _) (by
          intro part member
          obtain ⟨other, _, same⟩ := List.mem_map.mp member
          rw [← same]
          exact slash_notMem_escape _)
      unfold parse
      simp only [written, parts]
      exact mapM_unescape (token :: rest)

end Pointer

/-! ## Documents at a pointer -/

/-- The member or the element that a token names. -/
def child? : Json → String → Option Json
  | .obj fields, token => Object.get? fields token
  | .arr items, token => do items[← Pointer.index token]?
  | _, _ => none

def at? : Json → List String → Option Json
  | document, [] => some document
  | document, token :: rest => do (← document.child? token).at? rest

def putChild : Json → String → Json → Option Json
  | .obj fields, token, replaced => some (.obj (Object.set fields token replaced))
  | .arr items, token, replaced => do some (.arr (items.set (← Pointer.index token) replaced))
  | _, _, _ => none

/-- Change the value at a pointer, which must exist. -/
def modify (change : Json → Option Json) : Json → List String → Option Json
  | document, [] => change document
  | document, token :: rest => do
      let inner ← document.child? token
      document.putChild token (← modify change inner rest)

def addChild (token : String) (added : Json) : Json → Option Json
  | .obj fields => some (.obj (Object.set fields token added))
  | .arr items => do
      let position ← if token = "-" then some items.length else Pointer.index token
      guard (position ≤ items.length)
      return .arr (items.insertIdx position added)
  | _ => none

def removeChild (token : String) : Json → Option Json
  | .obj fields => do
      guard (Object.get? fields token).isSome
      return .obj (Object.erase fields token)
  | .arr items => do
      let position ← Pointer.index token
      guard (position < items.length)
      return .arr (items.eraseIdx position)
  | _ => none

/-! ## Operations -/

def add (document : Json) (path : List String) (added : Json) : Option Json :=
  match path.getLast? with
  | some token => document.modify (addChild token added) path.dropLast
  | none => some added

def remove (document : Json) (path : List String) : Option Json :=
  match path.getLast? with
  | some token => document.modify (removeChild token) path.dropLast
  | none => none

/-- Whether a document has a value at a pointer, equal to the expected one. -/
def Reads (document : Json) (path : List String) (expected : Json) : Prop :=
  ∃ found, document.at? path = some found ∧ Same found expected

instance (document : Json) (path : List String) (expected : Json) : Decidable (document.Reads path expected) :=
  decidable_of_iff ((document.at? path).any fun found => decide (Same found expected))
    (by simp [Reads, Option.any_eq_true])

def pointer (operation : Object) (key : String) : Option (List String) :=
  match Object.get? operation key with
  | some (.str text) => Pointer.parse text
  | _ => none

/-- Apply one operation: `test`, `add`, `remove`, `replace`, `move` or `copy`. -/
def applyOperation (document : Json) : Json → Option Json
  | .obj operation => do
      let path ← pointer operation "path"
      match Object.get? operation "op" with
      | some (.str "test") => do
          let expected ← Object.get? operation "value"
          guard (document.Reads path expected)
          return document
      | some (.str "add") => document.add path (← Object.get? operation "value")
      | some (.str "remove") => document.remove path
      | some (.str "replace") => do
          let replaced ← Object.get? operation "value"
          document.modify (fun _ => some replaced) path
      | some (.str "move") => do
          let source ← pointer operation "from"
          guard (!(source.isPrefixOf path && source ≠ path))
          (← document.remove source).add path (← document.at? source)
      | some (.str "copy") => do document.add path (← document.at? (← pointer operation "from"))
      | _ => none
  | _ => none

/-- Apply a patch as a whole: an operation that fails leaves no document. -/
def applyPatch (document : Json) (patch : List Json) : Option Json := patch.foldlM applyOperation document

theorem applyPatch_cons (document operation : Json) (patch : List Json) :
    document.applyPatch (operation :: patch) =
      (document.applyOperation operation).bind fun changed => changed.applyPatch patch :=
  List.foldlM_cons

theorem applyPatch_append (document : Json) (first second : List Json) :
    document.applyPatch (first ++ second) =
      (document.applyPatch first).bind fun changed => changed.applyPatch second :=
  List.foldlM_append

variable {document : Json} {text : String} {path : List String}

theorem apply_test (parsed : Pointer.parse text = some path) (expected : Json) :
    document.applyOperation (.obj [("op", .str "test"), ("path", .str text), ("value", expected)]) =
      if document.Reads path expected then some document else none := by
  by_cases equal : document.Reads path expected <;> simp [applyOperation, pointer, parsed, equal]

theorem apply_add (parsed : Pointer.parse text = some path) (added : Json) :
    document.applyOperation (.obj [("op", .str "add"), ("path", .str text), ("value", added)]) =
      document.add path added := by
  simp [applyOperation, pointer, parsed]

theorem apply_remove (parsed : Pointer.parse text = some path) :
    document.applyOperation (.obj [("op", .str "remove"), ("path", .str text)]) = document.remove path := by
  simp [applyOperation, pointer, parsed]

/-! ## Members of objects -/

theorem add_cons {token next : String} {rest : List String} {added : Json} :
    document.add (token :: next :: rest) added =
      (document.child? token).bind fun inner =>
        (inner.add (next :: rest) added).bind (document.putChild token) := by
  simp only [add, List.getLast?_cons_cons, List.dropLast_cons_cons]
  cases last : (next :: rest).getLast? with
  | none => simp at last
  | some final => rfl

theorem remove_cons {token next : String} {rest : List String} :
    document.remove (token :: next :: rest) =
      (document.child? token).bind fun inner =>
        (inner.remove (next :: rest)).bind (document.putChild token) := by
  simp only [remove, List.getLast?_cons_cons, List.dropLast_cons_cons]
  cases last : (next :: rest).getLast? with
  | none => simp at last
  | some final => rfl

@[simp] theorem add_member (fields : Object) (token : String) (added : Json) :
    (Json.obj fields).add [token] added = some (.obj (Object.set fields token added)) := rfl

@[simp] theorem remove_member {fields : Object} {token : String} (present : (Object.get? fields token).isSome) :
    (Json.obj fields).remove [token] = some (.obj (Object.erase fields token)) := by
  simp [remove, modify, removeChild, present]

@[simp] theorem child?_obj (fields : Object) (token : String) :
    (Json.obj fields).child? token = Object.get? fields token := rfl

@[simp] theorem putChild_obj (fields : Object) (token : String) (replaced : Json) :
    (Json.obj fields).putChild token replaced = some (.obj (Object.set fields token replaced)) := rfl

theorem at?_cons {token : String} {rest : List String} :
    document.at? (token :: rest) = (document.child? token).bind fun inner => inner.at? rest := rfl

end Json
