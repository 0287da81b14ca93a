import Mathlib.Data.Finset.Insert
import Mathlib.Data.Finset.Dedup
import Mathlib.Data.List.TakeWhile
import Mathlib.Tactic.IntervalCases
import Homelab.Operators.Common

namespace Homelab.Probe

/-! # Active swap space -/

/-- Where `text.splitlines()` ends a line; a carriage return takes a line feed with it. -/
def isLineBoundary (char : Char) : Bool :=
  let code := char.toNat
  (10 ≤ code && code ≤ 13) || (28 ≤ code && code ≤ 30) || code == 133 || code == 8232 || code == 8233

/-- The lines of a text; `line` is the present one in reverse, and `none` between lines. -/
def splitlinesFrom : Option (List Char) → List Char → List (List Char)
  | none, [] => []
  | some line, [] => [line.reverse]
  | line, '\r' :: '\n' :: rest => (line.getD []).reverse :: splitlinesFrom none rest
  | line, char :: rest =>
      if isLineBoundary char then (line.getD []).reverse :: splitlinesFrom none rest
      else splitlinesFrom (some (char :: line.getD [])) rest

/-- `text.splitlines()` -/
def splitlines (text : List Char) : List (List Char) := splitlinesFrom none text

def isOctal (char : Char) : Bool := '0' ≤ char && char ≤ '7'

/-- `chr(int(digits, 8))` of three octal digits. -/
def octalChar (first second third : Char) : Char :=
  Char.ofNat (64 * (first.toNat - 48) + 8 * (second.toNat - 48) + (third.toNat - 48))

/-- Replace `\\([0-7]{3})` from left to right. -/
def decodeOctal : List Char → List Char
  | '\\' :: first :: second :: third :: rest =>
      if isOctal first && isOctal second && isOctal third then
        octalChar first second third :: decodeOctal rest
      else '\\' :: decodeOctal (first :: second :: third :: rest)
  | char :: rest => char :: decodeOctal rest
  | [] => []

/-- Read kernel swap state, the text of `/proc/swaps`. -/
def activeSwapPaths (realpath : String → String) (text : String) : Finset String :=
  let lines := ((splitlines text.toList).drop 1).filter fun line => strip (String.ofList line) ≠ ""
  (lines.map fun line =>
    realpath (String.ofList (decodeOctal ((splitFields (String.ofList line)).headD "").toList))).toFinset

/-! ## What the kernel prints -/

def octalDigit (value : Nat) : Char := Char.ofNat (48 + value % 8)

/-- The kernel escapes blanks and the backslash itself. -/
def escapes : List Char := [' ', '\t', '\n', '\\']

def escapeChar (char : Char) : List Char :=
  if char ∈ escapes then
    ['\\', octalDigit (char.toNat / 64), octalDigit (char.toNat / 8), octalDigit char.toNat]
  else [char]

def escape (name : List Char) : List Char := name.flatMap escapeChar

/-- An active swap file or device, with the columns that follow its name. -/
structure SwapArea where
  name : List Char
  columns : List Char
  named : name ≠ []
  blanks : ∀ char ∈ name, isWhitespace char = true → char ∈ escapes
  apart : ∃ blank rest, columns = blank :: rest ∧ isWhitespace blank = true
  oneLine : ∀ char ∈ columns, isLineBoundary char = false

def SwapArea.line (area : SwapArea) : List Char := escape area.name ++ area.columns

/-- The text of `/proc/swaps`: one header line, and one line for each area. -/
def procSwaps (header : List Char) (areas : List SwapArea) : String :=
  String.ofList (header ++ '\n' :: areas.flatMap fun area => area.line ++ ['\n'])

/-! ## Decoding -/

theorem decodeOctal_plain {char : Char} (plain : char ≠ '\\') (rest : List Char) :
    decodeOctal (char :: rest) = char :: decodeOctal rest := by
  rw [decodeOctal]
  intro first second third later same _
  exact plain same

theorem decodeOctal_escapeChar (char : Char) (rest : List Char) :
    decodeOctal (escapeChar char ++ rest) = char :: decodeOctal rest := by
  unfold escapeChar
  split
  · rename_i special
    simp only [escapes, List.mem_cons, List.not_mem_nil, or_false] at special
    obtain rfl | rfl | rfl | rfl := special <;> rfl
  · rename_i plain
    have other : char ≠ '\\' := by
      intro same
      exact plain (by simp [same, escapes])
    exact decodeOctal_plain other rest

/-- Decoding undoes the escapes, also where a name has backslashes and digits. -/
theorem decodeOctal_escape (name : List Char) : decodeOctal (escape name) = name := by
  induction name with
  | nil => rfl
  | cons char name ih =>
      have step := decodeOctal_escapeChar char (escape name)
      rw [ih] at step
      exact step

/-! ## Lines and fields -/

theorem splitlinesFrom_plain {char : Char} (plain : isLineBoundary char = false) (line : Option (List Char))
    (rest : List Char) : splitlinesFrom line (char :: rest) = splitlinesFrom (some (char :: line.getD [])) rest := by
  rw [splitlinesFrom, plain]
  · rfl
  · intro later same
    subst same
    cases plain

theorem splitlinesFrom_newline (line : Option (List Char)) (rest : List Char) :
    splitlinesFrom line ('\n' :: rest) = (line.getD []).reverse :: splitlinesFrom none rest := by
  rw [splitlinesFrom]
  · rfl
  · intro later same
    cases same

theorem splitlinesFrom_line {text rest : List Char} (plain : ∀ char ∈ text, isLineBoundary char = false)
    (line : Option (List Char)) : splitlinesFrom line (text ++ '\n' :: rest) =
      ((line.getD []).reverse ++ text) :: splitlinesFrom none rest := by
  induction text generalizing line with
  | nil => rw [List.nil_append, splitlinesFrom_newline, List.append_nil]
  | cons char text ih =>
      obtain ⟨first, others⟩ := List.forall_mem_cons.mp plain
      rw [List.cons_append, splitlinesFrom_plain first, ih others]
      simp

theorem splitlines_line {text rest : List Char} (plain : ∀ char ∈ text, isLineBoundary char = false) :
    splitlines (text ++ '\n' :: rest) = text :: splitlines rest :=
  splitlinesFrom_line plain none

theorem strip_ne_empty {char : Char} (plain : isWhitespace char = false) (rest : List Char) :
    strip (String.ofList (char :: rest)) ≠ "" := by
  have kept : (char :: rest).dropWhile isWhitespace = char :: rest := by
    rw [List.dropWhile_cons, if_neg (by simp [plain])]
  intro empty
  have nothing := congrArg String.toList empty
  simp only [strip, String.toList_ofList, kept, String.toList_empty, List.reverse_eq_nil_iff] at nothing
  have blank := List.dropWhile_eq_nil_iff.mp nothing char (by simp)
  rw [plain] at blank
  cases blank

/-! ## The text of the kernel -/

theorem boundary_blank {char : Char} (plain : isWhitespace char = false) : isLineBoundary char = false := by
  simp only [isWhitespace, isLineBoundary, Bool.or_eq_false_iff, Bool.and_eq_false_iff, decide_eq_false_iff_not,
    beq_eq_false_iff_ne] at plain ⊢
  omega

theorem octalDigit_plain (value : Nat) : isWhitespace (octalDigit value) = false := by
  have bound := Nat.mod_lt value (show 0 < 8 by decide)
  unfold octalDigit
  generalize value % 8 = digit at bound
  interval_cases digit <;> rfl

theorem escapeChar_plain {char : Char} (blanks : isWhitespace char = true → char ∈ escapes) :
    ∀ shown ∈ escapeChar char, isWhitespace shown = false := by
  intro shown listed
  unfold escapeChar at listed
  split at listed
  · simp only [List.mem_cons, List.not_mem_nil, or_false] at listed
    obtain rfl | rfl | rfl | rfl := listed
    · rfl
    · exact octalDigit_plain _
    · exact octalDigit_plain _
    · exact octalDigit_plain _
  · rename_i plain
    rw [List.mem_singleton.mp listed]
    cases blank : isWhitespace char with
    | false => rfl
    | true => exact (plain (blanks blank)).elim

namespace SwapArea

variable (area : SwapArea)

theorem escaped_plain : ∀ char ∈ escape area.name, isWhitespace char = false := by
  intro shown listed
  obtain ⟨char, member, shows⟩ := List.mem_flatMap.mp listed
  exact escapeChar_plain (area.blanks char member) shown shows

theorem escaped_cons : ∃ first rest, escape area.name = first :: rest := by
  cases name : area.name with
  | nil => exact (area.named name).elim
  | cons char rest =>
      unfold escape escapeChar
      rw [List.flatMap_cons]
      split
      · exact ⟨_, _, rfl⟩
      · exact ⟨_, _, rfl⟩

theorem line_oneLine : ∀ char ∈ area.line, isLineBoundary char = false := by
  intro char listed
  cases List.mem_append.mp listed with
  | inl escaped => exact boundary_blank (area.escaped_plain char escaped)
  | inr column => exact area.oneLine char column

theorem strip_line : strip (String.ofList area.line) ≠ "" := by
  obtain ⟨first, rest, escaped⟩ := area.escaped_cons
  have plain := area.escaped_plain first (by simp [escaped])
  rw [line, escaped, List.cons_append]
  exact strip_ne_empty plain _

/-- The first field of the line is the escaped name. -/
theorem splitFields_line : (splitFields (String.ofList area.line)).headD "" = String.ofList (escape area.name) := by
  obtain ⟨blank, rest, columns, isBlank⟩ := area.apart
  obtain ⟨first, later, escaped⟩ := area.escaped_cons
  rw [splitFields, String.toList_ofList, line, columns, fieldsOf_word area.escaped_plain isBlank [] (.inr (by
    rw [escaped]
    exact List.cons_ne_nil _ _))]
  rfl

end SwapArea

theorem splitlines_procSwaps {header : List Char} (oneLine : ∀ char ∈ header, isLineBoundary char = false)
    (areas : List SwapArea) :
    splitlines (procSwaps header areas).toList = header :: areas.map SwapArea.line := by
  rw [procSwaps, String.toList_ofList, splitlines_line oneLine]
  congr 1
  induction areas with
  | nil => rfl
  | cons area rest ih =>
      rw [List.flatMap_cons, List.append_assoc, List.singleton_append, splitlines_line area.line_oneLine, ih]
      rfl

/-- No line but the header is left out. -/
theorem used_lines {header : List Char} (oneLine : ∀ char ∈ header, isLineBoundary char = false)
    (areas : List SwapArea) : ((splitlines (procSwaps header areas).toList).drop 1).filter
      (fun line => strip (String.ofList line) ≠ "") = areas.map SwapArea.line := by
  rw [splitlines_procSwaps oneLine, List.drop_succ_cons, List.drop_zero, List.filter_eq_self]
  intro line listed
  obtain ⟨area, _, same⟩ := List.mem_map.mp listed
  rw [← same]
  exact decide_eq_true area.strip_line

theorem decoded_line (area : SwapArea) :
    String.ofList (decodeOctal ((splitFields (String.ofList area.line)).headD "").toList) = String.ofList area.name := by
  rw [area.splitFields_line, String.toList_ofList, decodeOctal_escape]

/-- The active paths are exactly the names that the kernel has printed. -/
theorem active_swap_paths {header : List Char} (oneLine : ∀ char ∈ header, isLineBoundary char = false)
    (areas : List SwapArea) : activeSwapPaths id (procSwaps header areas) =
      (areas.map fun area => String.ofList area.name).toFinset := by
  unfold activeSwapPaths
  simp only [used_lines oneLine, List.map_map]
  have names := List.map_congr_left fun area (_ : area ∈ areas) => decoded_line area
  exact congrArg List.toFinset names

/-- A name with a backslash and digits of its own, on a partition and a file. -/
theorem rehearsed_swap_paths : activeSwapPaths id (procSwaps "Filename Type".toList [
      { name := "/swap\\040 file".toList, columns := " file 1024 0 -2".toList, named := by decide,
        blanks := by decide, apart := ⟨' ', _, rfl, rfl⟩, oneLine := by decide },
      { name := "/dev/sda1".toList, columns := " partition 1024 0 -3".toList, named := by decide,
        blanks := by decide, apart := ⟨' ', _, rfl, rfl⟩, oneLine := by decide }]) =
    {"/swap\\040 file", "/dev/sda1"} :=
  active_swap_paths  (by decide) _

end Homelab.Probe
