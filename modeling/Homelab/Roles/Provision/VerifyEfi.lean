import Mathlib.Data.List.Infix
import Mathlib.Data.List.Sort
import Homelab.Operators.Provisioning.Storage

namespace Homelab.VerifyEfi

open Json (Object)
open Provisioning

/-! # Plan and verify firmware entries -/

def isHex (char : Char) : Bool := char.isDigit || ('a' ≤ char && char ≤ 'f') || ('A' ≤ char && char ≤ 'F')

def isBrace (char : Char) : Bool := char == '\x7b' || char == '\x7d'

/-- The digits of a UUID, without its prefixes, braces and hyphens. -/
def uuidDigits (text : String) : List Char :=
  let text := replaceFrom "uuid:".toList [] 0 (replaceFrom "urn:".toList [] 0 text.toList)
  let text := ((text.dropWhile isBrace).reverse.dropWhile isBrace).reverse
  (text.filter (· ≠ '-')).map Char.toLower

def hyphenated (digits : List Char) : List Char :=
  digits.take 8 ++ '-' :: (digits.drop 8).take 4 ++ '-' :: (digits.drop 12).take 4 ++
    '-' :: (digits.drop 16).take 4 ++ '-' :: digits.drop 20

/-- `str(UUID(text))` -/
def canonicalUuid (text : String) : Option (List Char) :=
  if (uuidDigits text).length = 32 ∧ (uuidDigits text).all isHex = true then some (hyphenated (uuidDigits text))
  else none

/-! ## The expressions that search a listing -/

/-- What follows a beginning in any case. -/
def dropStart : List Char → List Char → Option (List Char)
  | [], text => some text
  | _ :: _, [] => none
  | first :: start, char :: text => if first.toLower = char.toLower then dropStart start text else none

/-- What follows at least one whitespace character. -/
def dropSpaces : List Char → Option (List Char)
  | [] => none
  | char :: text => if isWhitespace char then some (text.dropWhile isWhitespace) else none

/-- `^BootOrder:\s*([0-9a-f,]+)`, at the beginning of a line. -/
def orderAt (text : List Char) : Option (List Char) := do
  let rest ← dropStart "BootOrder:".toList text
  let order := (rest.dropWhile isWhitespace).takeWhile fun char => isHex char || char == ','
  guard (!order.isEmpty)
  return order

/-- `^Boot([0-9a-f]{4})\*\s+Homelab\s+(.*)$`, at the beginning of a line: the groups and what follows. -/
def entryAt (text : List Char) : Option (List Char × List Char × List Char) := do
  let rest ← dropStart "Boot".toList text
  let number := rest.take 4
  guard (number.length = 4 && number.all isHex)
  let rest ← dropStart ['*'] (rest.drop 4)
  let rest ← dropSpaces rest
  let rest ← dropStart "Homelab".toList rest
  let rest ← dropSpaces rest
  return (number, rest.takeWhile (· ≠ '\n'), rest.dropWhile (· ≠ '\n'))

/-- The first match, from a position that begins a line or does not. -/
def searchOrder : Bool → List Char → Option (List Char)
  | _, [] => none
  | lineStart, char :: rest =>
      match if lineStart then orderAt (char :: rest) else none with
      | some order => some order
      | none => searchOrder (char == '\n') rest

/-- All matches from left to right, after `skip` more characters. -/
def findEntries : Nat → Bool → List Char → List (List Char × List Char)
  | _, _, [] => []
  | skip + 1, _, char :: rest => findEntries skip (char == '\n') rest
  | 0, lineStart, char :: rest =>
      match if lineStart then entryAt (char :: rest) else none with
      | some (number, path, later) =>
          (number, path) :: findEntries (rest.length - later.length) (char == '\n') rest
      | none => findEntries 0 (char == '\n') rest

/-! ## The plan -/

structure BootPlan where
  selectedEntry : Option String
  bootOrder : String
  needsCreate : Bool
  needsOrder : Bool
deriving DecidableEq

def loader : List Char := "\\efi\\homelab\\grubx64.efi".toList

/-- The device path, in lower case, is on the first GPT partition if that has this UUID. -/
def onPartition (uuid path : List Char) : Bool := decide ("hd(1,gpt,".toList ++ uuid ++ [','] <:+: path)

def isMatch (uuid path : List Char) : Bool :=
  onPartition uuid (path.map Char.toLower) && decide (loader <:+: path.map Char.toLower)

theorem onPartition_iff {uuid path : List Char} : onPartition uuid path = true ↔
    "hd(1,gpt,".toList ++ uuid ++ [','] <:+: path := decide_eq_true_iff

theorem isMatch_iff {uuid path : List Char} : isMatch uuid path = true ↔
    "hd(1,gpt,".toList ++ uuid ++ [','] <:+: path.map Char.toLower ∧ loader <:+: path.map Char.toLower := by
  rw [isMatch, Bool.and_eq_true, onPartition_iff, decide_eq_true_eq]

/-- Select an active Homelab loader on this exact EFI partition. -/
def bootPlan (entries partitionUuid : String) : Except Exn BootPlan := do
  let uuid ← match canonicalUuid partitionUuid with
    | some uuid => pure uuid
    | none => throw (.error "ValueError" "badly formed hexadecimal UUID string")
  let digits ← match searchOrder true entries.toList with
    | some digits => pure digits
    | none => throw (.error "RuntimeError" "No persistent firmware boot order")
  let order : List String := IpAddress.split ',' (String.ofList (digits.map Char.toUpper))
  let found := (findEntries 0 true entries.toList).filter fun entry => isMatch uuid entry.2
  let matching := found.map fun entry => String.ofList (entry.1.map Char.toUpper)
  let selected := (order.find? fun entry => matching.contains entry).or
    (matching.insertionSort (· ≤ ·)).head?
  let desired : List String := match selected with
    | some entry => entry :: order.filter (· ≠ entry)
    | none => order
  return { selectedEntry := selected, bootOrder := ",".intercalate desired,
           needsCreate := selected.isNone, needsOrder := decide (desired ≠ order) }

/-! ## Listings as the firmware tool prints them -/

/-- The four hexadecimal digits of a boot variable. -/
structure BootNumber where
  digits : List Char
  four : digits.length = 4
  hex : digits.all isHex = true

/-- A boot variable: its device path begins with a node, not with a blank or the label. -/
structure BootEntry where
  number : BootNumber
  active : Bool
  label : List Char
  path : List Char
  labelLine : '\n' ∉ label
  pathLine : '\n' ∉ path
  node : ∃ first rest, path = first :: rest ∧ isWhitespace first = false
  unlabelled : dropStart "Homelab".toList path = none

def BootEntry.line (entry : BootEntry) : List Char :=
  "Boot".toList ++ (entry.number.digits ++ (if entry.active then '*' else ' ') :: ' ' ::
    (entry.label ++ '\t' :: entry.path))

structure Listing where
  next : Option BootNumber
  current : Option BootNumber
  timeout : Option Nat
  order : Option (BootNumber × List BootNumber)
  entries : List BootEntry

def orderLine (order : BootNumber × List BootNumber) : List Char :=
  "BootOrder: ".toList ++ (order.1.digits ++ order.2.flatMap fun number => ',' :: number.digits)

namespace Listing

variable (listing : Listing)

/-- The lines before the boot order. -/
def preamble : List (List Char) :=
  (listing.next.map fun number => "BootNext: ".toList ++ number.digits).toList ++
    (listing.current.map fun number => "BootCurrent: ".toList ++ number.digits).toList ++
    (listing.timeout.map fun seconds => "Timeout: ".toList ++ (Nat.toDigits 10 seconds ++ " seconds".toList)).toList

def lines : List (List Char) :=
  listing.preamble ++ (listing.order.map orderLine).toList ++ listing.entries.map BootEntry.line

def text : List Char := listing.lines.flatMap fun line => line ++ ['\n']

def render : String := String.ofList listing.text

end Listing

/-! ## Searching line by line -/

section Search

variable {line rest : List Char}

theorem searchOrder_skip (oneLine : '\n' ∉ line) : searchOrder false (line ++ '\n' :: rest) = searchOrder true rest := by
  induction line with
  | nil => rfl
  | cons char line ih =>
      rw [List.mem_cons, not_or] at oneLine
      have inside : (char == '\n') = false := beq_false_of_ne (Ne.symm oneLine.1)
      rw [List.cons_append, searchOrder, if_neg (by decide), inside]
      exact ih oneLine.2

theorem searchOrder_line (oneLine : '\n' ∉ line) :
    searchOrder true (line ++ '\n' :: rest) = (orderAt (line ++ '\n' :: rest)).or (searchOrder true rest) := by
  cases line with
  | nil =>
      rw [List.nil_append, searchOrder, if_pos rfl]
      cases orderAt ('\n' :: rest) <;> rfl
  | cons char line =>
      rw [List.mem_cons, not_or] at oneLine
      have inside : (char == '\n') = false := beq_false_of_ne (Ne.symm oneLine.1)
      rw [List.cons_append, searchOrder, if_pos rfl, inside]
      cases orderAt (char :: (line ++ '\n' :: rest)) with
      | some order => rfl
      | none => exact searchOrder_skip oneLine.2

theorem findEntries_skip (oneLine : '\n' ∉ line) :
    findEntries line.length false (line ++ '\n' :: rest) = findEntries 0 true rest ∧
      findEntries 0 false (line ++ '\n' :: rest) = findEntries 0 true rest := by
  induction line with
  | nil => exact ⟨rfl, rfl⟩
  | cons char line ih =>
      rw [List.mem_cons, not_or] at oneLine
      have inside : (char == '\n') = false := beq_false_of_ne (Ne.symm oneLine.1)
      obtain ⟨counted, plain⟩ := ih oneLine.2
      constructor
      · rw [List.cons_append, List.length_cons, findEntries, inside]
        exact counted
      · rw [List.cons_append, findEntries, if_neg (by decide), inside]
        exact plain

theorem findEntries_none (oneLine : '\n' ∉ line) (none : entryAt (line ++ '\n' :: rest) = none) :
    findEntries 0 true (line ++ '\n' :: rest) = findEntries 0 true rest := by
  cases line with
  | nil =>
      rw [List.nil_append] at none ⊢
      rw [findEntries, if_pos rfl, none]
      rfl
  | cons char line =>
      rw [List.mem_cons, not_or] at oneLine
      have inside : (char == '\n') = false := beq_false_of_ne (Ne.symm oneLine.1)
      rw [List.cons_append] at none ⊢
      rw [findEntries, if_pos rfl, none, inside]
      exact (findEntries_skip oneLine.2).2

theorem findEntries_some {number path : List Char} (oneLine : '\n' ∉ line) (nonempty : line ≠ [])
    (found : entryAt (line ++ '\n' :: rest) = some (number, path, '\n' :: rest)) :
    findEntries 0 true (line ++ '\n' :: rest) = (number, path) :: findEntries 0 true rest := by
  cases line with
  | nil => exact absurd rfl nonempty
  | cons char line =>
      rw [List.mem_cons, not_or] at oneLine
      have inside : (char == '\n') = false := beq_false_of_ne (Ne.symm oneLine.1)
      have consumed : (line ++ '\n' :: rest).length - ('\n' :: rest).length = line.length := by
        rw [List.length_append]
        omega
      rw [List.cons_append] at found ⊢
      rw [findEntries, if_pos rfl, found, inside]
      simp only [consumed]
      rw [(findEntries_skip oneLine.2).1]

end Search

/-! ## What a line shows -/

/-- The path that the expression takes from a label and a device path. -/
def shown (label path : List Char) : Option (List Char) := do
  let rest ← dropStart "Homelab".toList (label.dropWhile isWhitespace)
  match rest with
  | [] => some path
  | char :: _ => if isWhitespace char then some ((rest ++ '\t' :: path).dropWhile isWhitespace) else none

section Shown

variable {start body label path rest : List Char} {separator : Char}

theorem dropStart_suffix (found : dropStart start body = some rest) : rest <:+ body := by
  induction start generalizing body with
  | nil =>
      cases found
      exact List.suffix_refl _
  | cons first start ih =>
      cases body with
      | nil => cases found
      | cons char body =>
          rw [dropStart] at found
          split at found
          · exact (ih found).trans (List.suffix_cons _ _)
          · cases found

theorem dropStart_append (apart : ∀ char ∈ start, char.toLower ≠ separator.toLower) :
    dropStart start (body ++ separator :: rest) = (dropStart start body).map (· ++ separator :: rest) := by
  induction start generalizing body with
  | nil => rfl
  | cons first start ih =>
      cases body with
      | nil =>
          have differs : dropStart (first :: start) (separator :: rest) = none := by
            rw [dropStart, if_neg (apart first (by simp))]
          rw [List.nil_append, differs]
          rfl
      | cons char body =>
          rw [List.cons_append, dropStart, dropStart]
          split
          · exact ih fun char listed => apart char (by simp [listed])
          · rfl

theorem dropWhile_node (node : ∃ first tail, path = first :: tail ∧ isWhitespace first = false) :
    (path ++ rest).dropWhile isWhitespace = path ++ rest := by
  obtain ⟨first, tail, same, plain⟩ := node
  rw [same, List.cons_append, List.dropWhile_cons, if_neg (by simp [plain])]

theorem dropWhile_label (blank : isWhitespace separator = true)
    (node : ∃ first tail, path = first :: tail ∧ isWhitespace first = false) :
    (label ++ separator :: (path ++ rest)).dropWhile isWhitespace =
      match label.dropWhile isWhitespace with
      | [] => path ++ rest
      | char :: body => char :: body ++ separator :: (path ++ rest) := by
  induction label with
  | nil =>
      rw [List.nil_append, List.dropWhile_cons, if_pos blank, dropWhile_node node]
      rfl
  | cons char label ih =>
      rw [List.cons_append, List.dropWhile_cons, List.dropWhile_cons]
      split
      · exact ih
      · rfl

theorem dropWhile_shown (node : ∃ first tail, path = first :: tail ∧ isWhitespace first = false) :
    (label ++ '\t' :: (path ++ rest)).dropWhile isWhitespace =
      (label ++ '\t' :: path).dropWhile isWhitespace ++ rest := by
  have tab : isWhitespace '\t' = true := by decide
  have alone := @dropWhile_label label path [] _ tab node
  rw [List.append_nil] at alone
  rw [dropWhile_label tab node, alone]
  cases label.dropWhile isWhitespace with
  | nil => rfl
  | cons char body => simp

theorem dropWhile_mem {char : Char} (listed : char ∈ path.dropWhile isWhitespace) : char ∈ path :=
  (List.dropWhile_sublist _).subset listed

theorem shown_oneLine (labelLine : '\n' ∉ label) (pathLine : '\n' ∉ path) {visible : List Char}
    (found : shown label path = some visible) : '\n' ∉ visible := by
  obtain ⟨remaining, dropped, found⟩ := Option.bind_eq_some_iff.mp found
  have inside := (dropStart_suffix dropped).subset
  cases remaining with
  | nil =>
      cases found
      exact pathLine
  | cons char remaining =>
      simp only at found
      split at found
      · cases found
        intro listed
        cases List.mem_append.mp (dropWhile_mem listed) with
        | inl inLabel => exact labelLine (dropWhile_mem (inside inLabel))
        | inr inPath =>
            cases List.mem_cons.mp inPath with
            | inl same => cases same
            | inr later => exact pathLine later
      · cases found

end Shown

theorem dropStart_self (start rest : List Char) : dropStart start (start ++ rest) = some rest := by
  induction start with
  | nil => rfl
  | cons first start ih =>
      rw [List.cons_append, dropStart, if_pos rfl]
      exact ih

section Lines

variable (entry : BootEntry) (rest : List Char)

theorem takeWhile_line {visible : List Char} (oneLine : '\n' ∉ visible) :
    (visible ++ '\n' :: rest).takeWhile (· ≠ '\n') = visible ∧
      (visible ++ '\n' :: rest).dropWhile (· ≠ '\n') = '\n' :: rest := by
  induction visible with
  | nil => exact ⟨rfl, rfl⟩
  | cons char visible ih =>
      rw [List.mem_cons, not_or] at oneLine
      have plain : decide (char ≠ '\n') = true := decide_eq_true (Ne.symm oneLine.1)
      rw [List.cons_append, List.takeWhile_cons, List.dropWhile_cons, if_pos plain, if_pos plain, (ih oneLine.2).1,
        (ih oneLine.2).2]
      exact ⟨rfl, rfl⟩

theorem BootEntry.oneLine : '\n' ∉ entry.line := by
  have digits : '\n' ∉ entry.number.digits := by
    intro listed
    exact absurd (List.all_eq_true.mp entry.number.hex _ listed) (by decide)
  have mark : '\n' ≠ if entry.active then '*' else ' ' := by
    split <;> decide
  simp [BootEntry.line, digits, mark, entry.labelLine, entry.pathLine]

theorem apart_tab : ∀ char ∈ "Homelab".toList, char.toLower ≠ '\t'.toLower := by decide

theorem apart_newline : ∀ char ∈ "Homelab".toList, char.toLower ≠ '\n'.toLower := by decide

/-- What the expression finds after the mark of an active entry. -/
theorem labelled_line {α : Type} (next : List Char → Option α) :
    ((dropSpaces (' ' :: (entry.label ++ '\t' :: (entry.path ++ '\n' :: rest)))).bind fun text =>
      (dropStart "Homelab".toList text).bind fun text => (dropSpaces text).bind next) =
      (shown entry.label entry.path).bind fun visible => next (visible ++ '\n' :: rest) := by
  have node := entry.node
  rw [dropSpaces, if_pos (by decide), Option.bind_some, dropWhile_label (by decide) node, shown]
  cases entry.label.dropWhile isWhitespace with
  | nil =>
      simp only [dropStart_append apart_newline, entry.unlabelled]
      rfl
  | cons char body =>
      simp only [dropStart_append apart_tab]
      cases dropStart "Homelab".toList (char :: body) with
      | none => rfl
      | some remaining =>
          simp only [Option.map_some, Option.bind_some, Option.bind_eq_bind]
          cases remaining with
          | nil =>
              rw [List.nil_append, dropSpaces, if_pos (by decide), dropWhile_node node]
              rfl
          | cons first remaining =>
              rw [List.cons_append, dropSpaces]
              split
              · rename_i blank
                rw [dropWhile_shown node, List.cons_append, List.dropWhile_cons, if_pos blank]
                simp [blank]
              · rename_i visible
                simp [visible]

/-- An entry is found when it is active and its label and path show something. -/
theorem entryAt_line : entryAt (entry.line ++ '\n' :: rest) =
    if entry.active then
      (shown entry.label entry.path).map fun visible => (entry.number.digits, visible, '\n' :: rest)
    else none := by
  have four := entry.number.four
  have hex := entry.number.hex
  have shape : entry.line ++ '\n' :: rest = "Boot".toList ++ (entry.number.digits ++
      (if entry.active then '*' else ' ') :: ' ' :: (entry.label ++ '\t' :: (entry.path ++ '\n' :: rest))) := by
    simp [BootEntry.line]
  have taken {tail : List Char} : (entry.number.digits ++ tail).take 4 = entry.number.digits := by
    rw [← four, List.take_left]
  have dropped {tail : List Char} : (entry.number.digits ++ tail).drop 4 = tail := by
    rw [← four, List.drop_left]
  rw [shape, entryAt, dropStart_self, Option.bind_eq_bind, Option.bind_some]
  simp only [taken, dropped, four, hex, decide_true, Bool.and_self, guard_true]
  cases active : entry.active with
  | false => rfl
  | true =>
      have start : dropStart ['*'] ('*' :: ' ' :: (entry.label ++ '\t' :: (entry.path ++ '\n' :: rest))) =
          some (' ' :: (entry.label ++ '\t' :: (entry.path ++ '\n' :: rest))) := rfl
      simp only [if_true, start, Option.bind_some, pure_bind]
      rw [labelled_line entry rest]
      cases same : shown entry.label entry.path with
      | none => rfl
      | some visible =>
          obtain ⟨taken, dropped⟩ := takeWhile_line rest (shown_oneLine entry.labelLine entry.pathLine same)
          rw [Option.bind_some, taken, dropped]
          rfl

end Lines

/-! ## The whole listing -/

def textOf (lines : List (List Char)) : List Char := lines.flatMap fun line => line ++ ['\n']

/-- A line that is neither an entry nor the boot order. -/
def Quiet (line : List Char) : Prop :=
  '\n' ∉ line ∧ ∀ rest, entryAt (line ++ '\n' :: rest) = none ∧ orderAt (line ++ '\n' :: rest) = none

section Whole

variable {lines : List (List Char)} {rest : List Char}

theorem textOf_cons (line : List Char) : textOf (line :: lines) ++ rest = line ++ '\n' :: (textOf lines ++ rest) := by
  simp [textOf]

theorem findEntries_quiet (quiet : ∀ line ∈ lines, Quiet line) :
    findEntries 0 true (textOf lines ++ rest) = findEntries 0 true rest := by
  induction lines with
  | nil => rfl
  | cons line lines ih =>
      obtain ⟨oneLine, silent⟩ := quiet line (by simp)
      rw [textOf_cons, findEntries_none oneLine (silent _).1]
      exact ih fun other listed => quiet other (by simp [listed])

theorem searchOrder_quiet (quiet : ∀ line ∈ lines, '\n' ∉ line ∧ ∀ rest, orderAt (line ++ '\n' :: rest) = none) :
    searchOrder true (textOf lines ++ rest) = searchOrder true rest := by
  induction lines with
  | nil => rfl
  | cons line lines ih =>
      obtain ⟨oneLine, silent⟩ := quiet line (by simp)
      rw [textOf_cons, searchOrder_line oneLine, silent, Option.none_or]
      exact ih fun other listed => quiet other (by simp [listed])

/-- What the expression finds in the line of an entry. -/
def visibleEntry (entry : BootEntry) : Option (List Char × List Char) :=
  if entry.active then (shown entry.label entry.path).map fun visible => (entry.number.digits, visible) else none

theorem findEntries_entries (entries : List BootEntry) :
    findEntries 0 true (textOf (entries.map BootEntry.line)) = entries.filterMap visibleEntry := by
  induction entries with
  | nil => rfl
  | cons entry entries ih =>
      have found := entryAt_line entry (textOf (entries.map BootEntry.line) ++ [])
      have nonempty : entry.line ≠ [] := by
        rw [BootEntry.line]
        exact List.cons_ne_nil _ _
      rw [← List.append_nil (textOf _), List.map_cons, textOf_cons]
      rw [List.append_nil] at found ⊢
      cases seen : visibleEntry entry with
      | none =>
          have silent : entryAt (entry.line ++ '\n' :: textOf (entries.map BootEntry.line)) = none := by
            rw [found]
            unfold visibleEntry at seen
            split at seen
            · rename_i active
              rw [if_pos active, Option.map_eq_none_iff.mp seen]
              rfl
            · rename_i inactive
              rw [if_neg inactive]
          rw [findEntries_none entry.oneLine silent, ih, List.filterMap_cons, seen]
      | some groups =>
          have matched : entryAt (entry.line ++ '\n' :: textOf (entries.map BootEntry.line)) =
              some (groups.1, groups.2, '\n' :: textOf (entries.map BootEntry.line)) := by
            rw [found]
            unfold visibleEntry at seen
            split at seen
            · rename_i active
              obtain ⟨visible, same, rfl⟩ := Option.map_eq_some_iff.mp seen
              rw [if_pos active, same]
              rfl
            · cases seen
          rw [findEntries_some entry.oneLine nonempty matched, ih, List.filterMap_cons, seen]

theorem toNat_toLower (char : Char) :
    char.toLower.toNat = if 65 ≤ char.toNat ∧ char.toNat ≤ 90 then char.toNat + 32 else char.toNat := by
  have range : (char.val ≥ 'A'.val ∧ char.val ≤ 'Z'.val) ↔ 65 ≤ char.toNat ∧ char.toNat ≤ 90 := by
    rw [ge_iff_le, UInt32.le_iff_toNat_le, UInt32.le_iff_toNat_le]
    exact Iff.rfl
  unfold Char.toLower
  by_cases upper : 65 ≤ char.toNat ∧ char.toNat ≤ 90
  · rw [dif_pos (range.mpr upper), if_pos upper]
    have sum : (char.val + ('a'.val - 'A'.val)).toNat = (char.toNat + 32) % 2 ^ 32 := UInt32.toNat_add _ _
    have small : (char.toNat + 32) % 2 ^ 32 = char.toNat + 32 := Nat.mod_eq_of_lt (by omega)
    exact sum.trans small
  · rw [dif_neg fun inside => upper (range.mp inside), if_neg upper]

theorem toLower_toLower (char : Char) : char.toLower.toLower = char.toLower := by
  have once := toNat_toLower char
  have twice := toNat_toLower char.toLower
  apply Char.toNat_inj.mp
  by_cases upper : 65 ≤ char.toNat ∧ char.toNat ≤ 90
  · rw [if_pos upper] at once
    rw [twice, if_neg (by omega)]
  · rw [if_neg upper] at once
    rw [twice, if_neg (by omega)]

theorem digit_bounds {char : Char} (digit : char.isDigit = true) : 48 ≤ char.toNat ∧ char.toNat ≤ 57 := by
  have bounds : '0'.toNat ≤ char.toNat ∧ char.toNat ≤ '9'.toNat := by
    rw [Char.isDigit, Bool.and_eq_true, decide_eq_true_eq, decide_eq_true_eq] at digit
    exact digit
  exact bounds

theorem hex_bounds {char : Char} (hex : isHex char = true) :
    48 ≤ char.toNat ∧ char.toNat ≤ 57 ∨ 97 ≤ char.toNat ∧ char.toNat ≤ 102 ∨ 65 ≤ char.toNat ∧ char.toNat ≤ 70 := by
  have lower {low high : Char} (between : (decide (low ≤ char) && decide (char ≤ high)) = true) :
      low.toNat ≤ char.toNat ∧ char.toNat ≤ high.toNat := by
    rw [Bool.and_eq_true, decide_eq_true_eq, decide_eq_true_eq] at between
    exact between
  rw [isHex, Bool.or_eq_true, Bool.or_eq_true] at hex
  obtain (digit | small) | large := hex
  · have bounds := digit_bounds digit
    omega
  · have bounds := lower small
    have first : 'a'.toNat = 97 := rfl
    have last : 'f'.toNat = 102 := rfl
    omega
  · have bounds := lower large
    have first : 'A'.toNat = 65 := rfl
    have last : 'F'.toNat = 70 := rfl
    omega

theorem blank_bounds {char : Char} (blank : isWhitespace char = true) : char.toNat ≤ 32 ∨ 133 ≤ char.toNat := by
  simp only [isWhitespace, Bool.or_eq_true, Bool.and_eq_true, beq_iff_eq, decide_eq_true_eq] at blank
  omega

theorem hex_blank {char : Char} (hex : isHex char = true) : isWhitespace char = false := by
  cases blank : isWhitespace char with
  | false => rfl
  | true =>
      have bounds := hex_bounds hex
      have blanks := blank_bounds blank
      omega

theorem digits_oneLine (number : BootNumber) : '\n' ∉ number.digits := by
  intro listed
  exact absurd (List.all_eq_true.mp number.hex _ listed) (by decide)

theorem digits_cons (number : BootNumber) :
    ∃ first tail, number.digits = first :: tail ∧ isHex first = true := by
  have four := number.four
  have hex := number.hex
  cases digits : number.digits with
  | nil =>
      rw [digits] at four
      cases four
  | cons first tail =>
      rw [digits, List.all_cons, Bool.and_eq_true] at hex
      exact ⟨first, tail, rfl, hex.1⟩

theorem hex_other {char : Char} (hex : isHex char = true) : 'O'.toLower ≠ char.toLower := by
  intro same
  have bounds := hex_bounds hex
  have lower : char.toLower.toNat = 111 := by
    rw [← same]
    rfl
  rw [toNat_toLower] at lower
  split at lower <;> omega

theorem BootEntry.quietOrder (entry : BootEntry) (rest : List Char) : orderAt (entry.line ++ rest) = none := by
  obtain ⟨first, digits, shape, hex⟩ := digits_cons entry.number
  have skip (tail : List Char) :
      dropStart "BootOrder:".toList ("Boot".toList ++ first :: tail) = none := if_neg (hex_other hex)
  rw [orderAt, BootEntry.line, shape, List.append_assoc, List.cons_append, List.cons_append, skip]
  rfl

section OrderLine

variable (order : BootNumber × List BootNumber) (rest : List Char)

theorem orderLine_oneLine : '\n' ∉ orderLine order := by
  have others : '\n' ∉ order.2.flatMap fun number => ',' :: number.digits := by
    simp [digits_oneLine]
  unfold orderLine
  rw [List.mem_append, List.mem_append, not_or, not_or]
  exact ⟨by decide, digits_oneLine _, others⟩

theorem orderLine_quiet : entryAt (orderLine order ++ rest) = none := by
  have skip (tail : List Char) :
      dropStart "Boot".toList ("BootOrder: ".toList ++ tail) = some ("Order: ".toList ++ tail) := rfl
  unfold orderLine
  rw [List.append_assoc, entryAt, skip]
  rfl

theorem orderLine_found : (orderAt (orderLine order ++ rest)).isSome = true := by
  obtain ⟨first, digits, shape, hex⟩ := digits_cons order.1
  have skip (tail : List Char) :
      dropStart "BootOrder:".toList ("BootOrder: ".toList ++ tail) = some (' ' :: tail) := rfl
  have stop (tail : List Char) : (' ' :: first :: tail).dropWhile isWhitespace = first :: tail := by
    rw [List.dropWhile_cons, if_pos (by decide), List.dropWhile_cons, if_neg (by simp [hex_blank hex])]
  unfold orderLine
  rw [shape, List.append_assoc, List.cons_append, List.cons_append, orderAt, skip, Option.bind_eq_bind,
    Option.bind_some]
  simp only [stop, List.takeWhile_cons, hex, Bool.true_or, if_true]
  rfl

end OrderLine

theorem preamble_quiet (listing : Listing) : ∀ line ∈ listing.preamble, Quiet line := by
  intro line listed
  simp only [Listing.preamble, List.mem_append, Option.mem_toList, Option.map_eq_some_iff] at listed
  obtain (⟨number, _, rfl⟩ | ⟨number, _, rfl⟩) | ⟨seconds, _, rfl⟩ := listed
  · refine ⟨?_, fun rest => ⟨rfl, rfl⟩⟩
    simp [digits_oneLine]
  · refine ⟨?_, fun rest => ⟨rfl, rfl⟩⟩
    simp [digits_oneLine]
  · refine ⟨?_, fun rest => ⟨rfl, rfl⟩⟩
    have digits : '\n' ∉ Nat.toDigits 10 seconds := by
      intro inside
      exact absurd (Nat.isDigit_of_mem_toDigits (by decide) (by decide) inside) (by decide)
    simp [digits]

end Whole

/-! ## Which listings select an entry -/

/-- An active entry labelled Homelab, on the GPT partition with this UUID, with the loader. -/
structure Registered (uuid : List Char) (entry : BootEntry) : Prop where
  active : entry.active = true
  label : entry.label = "Homelab".toList
  partition : ∃ number : Nat,
    "hd(".toList ++ Nat.toDigits 10 number ++ ",gpt,".toList ++ uuid ++ [','] <:+: entry.path.map Char.toLower
  loader : loader <:+: entry.path.map Char.toLower

/-- An active entry whose line the expression takes for a registration on the first partition. -/
def Seen (uuid : List Char) (entry : BootEntry) : Prop :=
  entry.active = true ∧ ∃ visible, shown entry.label entry.path = some visible ∧ isMatch uuid visible = true

def Selects (listing : Listing) (partitionUuid : String) : Prop :=
  ∃ plan, bootPlan listing.render partitionUuid = .ok plan ∧ plan.selectedEntry ≠ none

section Selection

variable {listing : Listing} {partitionUuid : String} {uuid : List Char}

theorem render_toList : listing.render.toList = textOf listing.preamble ++
    (textOf (listing.order.map orderLine).toList ++ textOf (listing.entries.map BootEntry.line)) := by
  simp [Listing.render, Listing.text, Listing.lines, textOf]

theorem searchOrder_render :
    (searchOrder true listing.render.toList).isSome = listing.order.isSome := by
  have entries : ∀ entries : List BootEntry, searchOrder true (textOf (entries.map BootEntry.line)) = none := by
    intro entries
    induction entries with
    | nil => rfl
    | cons entry entries ih =>
        rw [← List.append_nil (textOf _), List.map_cons, textOf_cons, searchOrder_line entry.oneLine,
          entry.quietOrder, List.append_nil, ih]
        rfl
  have unordered : ∀ line ∈ listing.preamble, '\n' ∉ line ∧ ∀ rest, orderAt (line ++ '\n' :: rest) = none := by
    intro line listed
    obtain ⟨oneLine, silent⟩ := preamble_quiet listing line listed
    exact ⟨oneLine, fun rest => (silent rest).2⟩
  rw [render_toList, searchOrder_quiet unordered]
  cases listing.order with
  | none => exact congrArg Option.isSome (entries listing.entries)
  | some order =>
      have found := orderLine_found order ('\n' :: (textOf [] ++ textOf (listing.entries.map BootEntry.line)))
      rw [Option.map_some, Option.toList_some, textOf_cons, searchOrder_line (orderLine_oneLine order)]
      obtain ⟨digits, same⟩ := Option.isSome_iff_exists.mp found
      rw [same]
      rfl

theorem findEntries_render : findEntries 0 true listing.render.toList = listing.entries.filterMap visibleEntry := by
  rw [render_toList, findEntries_quiet (preamble_quiet listing), ← findEntries_entries]
  cases listing.order with
  | none => rfl
  | some order =>
      rw [Option.map_some, Option.toList_some, textOf_cons,
        findEntries_none (orderLine_oneLine order) (orderLine_quiet order _)]
      rfl

theorem seen_iff : (listing.entries.filterMap visibleEntry).filter (fun entry => isMatch uuid entry.2) = [] ↔
    ¬ ∃ entry ∈ listing.entries, Seen uuid entry := by
  rw [List.filter_eq_nil_iff]
  constructor
  · intro none ⟨entry, listed, active, visible, same, matching⟩
    refine none (entry.number.digits, visible) ?_ matching
    refine List.mem_filterMap.mpr ⟨entry, listed, ?_⟩
    rw [visibleEntry, if_pos active, same]
    rfl
  · intro none groups found matching
    obtain ⟨entry, listed, seen⟩ := List.mem_filterMap.mp found
    unfold visibleEntry at seen
    split at seen
    · rename_i active
      obtain ⟨visible, same, rfl⟩ := Option.map_eq_some_iff.mp seen
      exact none ⟨entry, listed, active, visible, same, matching⟩
    · cases seen

/-- The plan of a listing with a boot order selects an entry exactly when one is seen. -/
theorem bootPlan_render (canonical : canonicalUuid partitionUuid = some uuid) (ordered : listing.order.isSome = true) :
    ∃ plan, bootPlan listing.render partitionUuid = .ok plan ∧ plan.needsCreate = plan.selectedEntry.isNone ∧
      (plan.selectedEntry = none ↔ ¬ ∃ entry ∈ listing.entries, Seen uuid entry) := by
  have order := @searchOrder_render listing
  rw [ordered] at order
  obtain ⟨digits, found⟩ := Option.isSome_iff_exists.mp order
  rw [bootPlan, canonical, found, findEntries_render]
  refine ⟨_, rfl, rfl, ?_⟩
  rw [← @seen_iff _ uuid]
  simp only [Option.or_eq_none_iff]
  constructor
  · intro ⟨_, unsorted⟩
    rw [List.head?_eq_none_iff] at unsorted
    have empty := (List.perm_insertionSort (· ≤ ·) _).symm.trans (List.Perm.of_eq unsorted)
    exact List.map_eq_nil_iff.mp empty.eq_nil
  · intro none
    rw [none]
    simp

theorem ordered_of_planned {plan : BootPlan} (canonical : canonicalUuid partitionUuid = some uuid)
    (planned : bootPlan listing.render partitionUuid = .ok plan) : listing.order.isSome = true := by
  rw [← searchOrder_render]
  cases found : searchOrder true listing.render.toList with
  | some digits => rfl
  | none =>
      rw [bootPlan, canonical, found] at planned
      cases planned

theorem selects_iff (canonical : canonicalUuid partitionUuid = some uuid) :
    Selects listing partitionUuid ↔ listing.order.isSome = true ∧ ∃ entry ∈ listing.entries, Seen uuid entry := by
  constructor
  · intro ⟨plan, planned, selected⟩
    have ordered := ordered_of_planned canonical planned
    obtain ⟨plan', planned', _, decides⟩ := bootPlan_render canonical ordered
    cases planned.symm.trans planned'
    refine ⟨ordered, ?_⟩
    by_contra none
    exact selected (decides.mpr none)
  · intro ⟨ordered, seen⟩
    obtain ⟨plan, planned, _, decides⟩ := bootPlan_render canonical ordered
    exact ⟨plan, planned, fun none => decides.mp none seen⟩

end Selection

/-! ## The registration that reconciliation creates -/

/-- The number of the EFI partition of an approved layout. -/
def efiNumber (storage : Json) : Option Json := do
  let .arr partitions := value storage.fields "partitions" | none
  let efi ← partitions.find? fun partition => value partition.fields "role" = .str "efi"
  efi.fields.get? "number"

/-- The entry that the firmware tool creates for a partition, as it prints it. -/
def Created (uuid : List Char) (number : Nat) (entry : BootEntry) : Prop :=
  entry.active = true ∧ entry.label = "Homelab".toList ∧ ∃ start size : List Char,
    start.all isHex = true ∧ size.all isHex = true ∧ entry.path =
      ['H', 'D'] ++ '(' :: (Nat.toDigits 10 number ++ ',' :: (['G', 'P', 'T', ','] ++ uuid ++ ',' ::
        (['0', 'x'] ++ start ++ [',', '0', 'x'] ++ size ++ ")/\\EFI\\Homelab\\grubx64.efi".toList)))

/-- The listing after the creation of an entry. -/
structure Registers (before : Listing) (created : BootEntry) (after : Listing) : Prop where
  ordered : after.order.isSome = true
  entries : ∀ entry, entry ∈ after.entries ↔ entry = created ∨ entry ∈ before.entries

section Created

variable {partitionUuid : String} {uuid : List Char}

theorem canonicalUuid_chars (canonical : canonicalUuid partitionUuid = some uuid) :
    ∀ char ∈ uuid, char.toLower = char ∧ (isHex char = true ∨ char = '-') := by
  unfold canonicalUuid at canonical
  split at canonical
  · rename_i shaped
    obtain rfl := Option.some.inj canonical
    have digits : ∀ char ∈ uuidDigits partitionUuid, char.toLower = char ∧ (isHex char = true ∨ char = '-') := by
      intro char listed
      refine ⟨?_, .inl (List.all_eq_true.mp shaped.2 _ listed)⟩
      obtain ⟨written, _, rfl⟩ := List.mem_map.mp listed
      exact toLower_toLower written
    have hyphen : '-'.toLower = '-' ∧ (isHex '-' = true ∨ '-' = '-') := ⟨rfl, .inr rfl⟩
    intro char listed
    simp only [hyphenated, List.mem_append, List.mem_cons] at listed
    obtain (((first | rfl | second) | rfl | third) | rfl | fourth) | rfl | last := listed
    · exact digits char (List.mem_of_mem_take first)
    · exact hyphen
    · exact digits char (List.mem_of_mem_drop (List.mem_of_mem_take second))
    · exact hyphen
    · exact digits char (List.mem_of_mem_drop (List.mem_of_mem_take third))
    · exact hyphen
    · exact digits char (List.mem_of_mem_drop (List.mem_of_mem_take fourth))
    · exact hyphen
    · exact digits char (List.mem_of_mem_drop last)
  · cases canonical

theorem toLower_below {char low : Char} (lower : char.toLower = low) (below : low.toNat < 65) : char = low := by
  have code := toNat_toLower char
  rw [lower] at code
  apply Char.toNat_inj.mp
  split at code <;> omega

theorem plain_chars {chars : List Char} (plain : ∀ char ∈ chars, isHex char = true ∨ char = '-') :
    '(' ∉ chars.map Char.toLower := by
  intro listed
  obtain ⟨char, member, lower⟩ := List.mem_map.mp listed
  rw [toLower_below lower (by decide)] at member
  exact absurd (plain _ member) (by decide)

theorem digits_plain (number : Nat) : ∀ char ∈ Nat.toDigits 10 number, isHex char = true ∧ char.toLower = char := by
  intro char listed
  have digit := Nat.isDigit_of_mem_toDigits (by decide) (by decide) listed
  refine ⟨by rw [isHex, digit, Bool.true_or, Bool.true_or], ?_⟩
  have code := toNat_toLower char
  have bounds := digit_bounds digit
  rw [if_neg (by omega)] at code
  exact Char.toNat_inj.mp code

/-- A created entry, in lower case. -/
theorem created_lower (canonical : canonicalUuid partitionUuid = some uuid) {number : Nat} {entry : BootEntry}
    (created : Created uuid number entry) : ∃ rest, '(' ∉ rest ∧ loader <:+ rest ∧
      entry.path.map Char.toLower = ['h', 'd'] ++ '(' :: (Nat.toDigits 10 number ++ ',' ::
        (['g', 'p', 't', ','] ++ uuid ++ ',' :: rest)) := by
  obtain ⟨_, _, start, size, startHex, sizeHex, path⟩ := created
  have kept {chars : List Char} (same : ∀ char ∈ chars, char.toLower = char) : chars.map Char.toLower = chars := by
    rw [List.map_congr_left same, List.map_id']
  have numberKept := kept fun char listed => (digits_plain number char listed).2
  have uuidKept := kept fun char listed => (canonicalUuid_chars canonical char listed).1
  have ending : ")/\\EFI\\Homelab\\grubx64.efi".toList.map Char.toLower = [')', '/'] ++ loader := by decide
  refine ⟨['0', 'x'] ++ start.map Char.toLower ++ [',', '0', 'x'] ++ size.map Char.toLower ++ ([')', '/'] ++ loader),
    ?_, ⟨_, List.append_assoc _ _ _⟩, ?_⟩
  · have plainStart := plain_chars fun char listed => .inl (List.all_eq_true.mp startHex char listed)
    have plainSize := plain_chars fun char listed => .inl (List.all_eq_true.mp sizeHex char listed)
    have plainLoader : '(' ∉ loader := by decide
    simp only [List.mem_append, plainStart, plainSize, plainLoader, or_false]
    decide
  · rw [path]
    simp only [List.map_append, List.map_cons, numberKept, uuidKept, ending]
    rfl

theorem created_seen_iff (canonical : canonicalUuid partitionUuid = some uuid) {number : Nat} {entry : BootEntry}
    (created : Created uuid number entry) : Seen uuid entry ↔ number = 1 := by
  obtain ⟨rest, plain, loaded, lower⟩ := created_lower canonical created
  obtain ⟨active, label, _⟩ := created
  have visible : shown entry.label entry.path = some entry.path := by
    rw [label]
    rfl
  constructor
  · intro ⟨_, path, same, matching⟩
    cases visible.symm.trans same
    rw [isMatch_iff, lower] at matching
    obtain ⟨before, after, shape⟩ := matching.1
    have plainRest : '(' ∉ Nat.toDigits 10 number ++ ',' :: (['g', 'p', 't', ','] ++ uuid ++ ',' :: rest) := by
      have plainNumber : '(' ∉ Nat.toDigits 10 number := fun listed =>
        absurd (digits_plain number _ listed).1 (by decide)
      have plainUuid : '(' ∉ uuid := fun listed =>
        absurd (canonicalUuid_chars canonical _ listed).2 (by decide)
      simp [plainNumber, plainUuid, plain]
    have opened : ['h', 'd'] ++ '(' :: (Nat.toDigits 10 number ++ ',' :: (['g', 'p', 't', ','] ++ uuid ++ ',' :: rest)) =
        (before ++ ['h', 'd']) ++ '(' :: ('1' :: ',' :: (['g', 'p', 't', ','] ++ uuid ++ [','] ++ after)) := by
      rw [← shape]
      simp
    obtain ⟨_, _, inside⟩ := (List.append_cons_inj_of_notMem (by decide) plainRest).mp opened
    have comma : ∀ char ∈ Nat.toDigits 10 number, (char != ',') = true := by
      intro char listed
      rw [bne_iff_ne]
      intro same
      rw [same] at listed
      exact absurd (digits_plain number _ listed).1 (by decide)
    have digits : Nat.toDigits 10 number = ['1'] := by
      have taken := congrArg (List.takeWhile (· != ',')) inside
      rw [List.takeWhile_append_of_pos comma, List.takeWhile_cons_of_neg (by decide), List.append_nil] at taken
      exact taken
    have value := Nat.ofDigitChars_toDigits (b := 10) (n := number) (by decide) (by decide)
    rw [digits] at value
    exact value.symm
  · intro first
    subst first
    refine ⟨active, entry.path, visible, ?_⟩
    rw [isMatch_iff, lower]
    constructor
    · have one : Nat.toDigits 10 1 = ['1'] := rfl
      exact ⟨[], rest, by simp [one]⟩
    · obtain ⟨before, rfl⟩ := loaded
      exact ⟨['h', 'd'] ++ '(' :: (Nat.toDigits 10 1 ++ ',' :: (['g', 'p', 't', ','] ++ uuid ++ ',' :: before)), [],
        by simp⟩

end Created

/-- Selection is missed: a registered entry is there, but no boot order or none that the expression sees. -/
def Missed (uuid : List Char) (listing : Listing) : Prop :=
  (∃ entry ∈ listing.entries, Registered uuid entry) ∧
    (listing.order = none ∨ ∀ entry ∈ listing.entries, ¬ Seen uuid entry)

/-- Selection is misled: what the expression sees is no registered entry. -/
def Misled (uuid : List Char) (listing : Listing) : Prop :=
  listing.order ≠ none ∧ (∃ entry ∈ listing.entries, Seen uuid entry) ∧
    ∀ entry ∈ listing.entries, ¬ Registered uuid entry

/-- Whether the reinspection after the creation of an entry is satisfied. -/
def Reinspected (after : Listing) (partitionUuid : String) : Prop :=
  ∃ plan, bootPlan after.render partitionUuid = .ok plan ∧ plan.needsCreate = false

def efiUuid : String := "befa5286-7266-4e06-b301-32a5ab2eb20f"

def bootNumber : BootNumber := { digits := ['0', '0', '0', '5'], four := rfl, hex := by decide }

def secondPath : List Char := "HD(2,GPT,befa5286-7266-4e06-b301-32a5ab2eb20f,0x800,0x100000)/\\EFI\\Homelab\\grubx64.efi".toList

/-- The entry of a partition with one digit. -/
def homelabEntry : BootEntry where
  number := bootNumber
  active := true
  label := "Homelab".toList
  path := secondPath
  labelLine := by decide
  pathLine := by decide +kernel
  node := ⟨'H', _, rfl, by decide⟩
  unlabelled := by decide +kernel

def listed (entries : List BootEntry) : Listing :=
  { next := none, current := some bootNumber, timeout := some 1, order := some (bootNumber, []), entries }

theorem homelabEntry_created : Created efiUuid.toList 2 homelabEntry :=
  ⟨rfl, rfl, "800".toList, "100000".toList, by decide, by decide, by decide +kernel⟩

theorem homelabEntry_registered : Registered efiUuid.toList homelabEntry where
  active := rfl
  label := rfl
  partition := ⟨2, by decide +kernel⟩
  loader := by decide +kernel

end Homelab.VerifyEfi
