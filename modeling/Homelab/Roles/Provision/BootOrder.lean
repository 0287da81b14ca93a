import Homelab.Roles.Provision.VerifyEfi

namespace Homelab.VerifyEfi

open Json (Object)
open Provisioning

/-! # The boot order that reconciliation applies -/

/-- What the final verification does with its plan. -/
def verify (plan : BootPlan) : Except Exn Unit :=
  if plan.needsCreate || plan.needsOrder then
    .error (.error "RuntimeError" "Normal firmware boot does not select the new Homelab GRUB")
  else .ok ()

/-! ## What a match leaves -/

section Suffix

variable {start text rest number path later : List Char} {char : Char}

theorem dropStart_more (found : dropStart start text = some rest) (more : List Char) :
    dropStart start (text ++ more) = some (rest ++ more) := by
  induction start generalizing text with
  | nil =>
      cases found
      rfl
  | cons first start ih =>
      cases text with
      | nil => cases found
      | cons char text =>
          rw [dropStart] at found
          rw [List.cons_append, dropStart]
          split at found
          · rename_i same
            rw [if_pos same]
            exact ih found
          · cases found

theorem dropSpaces_suffix (found : dropSpaces text = some rest) : rest <:+ text := by
  cases text with
  | nil => cases found
  | cons char text =>
      rw [dropSpaces] at found
      split at found
      · cases found
        exact (List.dropWhile_suffix _).trans (List.suffix_cons _ _)
      · cases found

theorem entryAt_suffix (found : entryAt (char :: text) = some (number, path, later)) : later <:+ text := by
  simp only [entryAt, Option.bind_eq_bind, Option.bind_eq_some_iff, Option.pure_def, Option.some.injEq,
    Prod.mk.injEq] at found
  obtain ⟨afterBoot, boot, _, _, afterMark, mark, afterSpaces, spaces, afterLabel, label, shown, more, _, _, rfl⟩ := found
  have begun : afterBoot <:+ text := by
    rw [show "Boot".toList = 'B' :: ['o', 'o', 't'] from rfl, dropStart] at boot
    split at boot
    · exact dropStart_suffix boot
    · cases boot
  have marked := (dropStart_suffix mark).trans ((List.drop_suffix 4 afterBoot).trans begun)
  have labelled := (dropStart_suffix label).trans ((dropSpaces_suffix spaces).trans marked)
  exact (List.dropWhile_suffix _).trans ((dropSpaces_suffix more).trans labelled)

theorem entryAt_shorter (found : entryAt text = some (number, path, later)) : later.length < text.length := by
  cases text with
  | nil => cases found
  | cons char text => exact Nat.lt_succ_of_le (entryAt_suffix found).length_le

theorem entryAt_later (found : entryAt text = some (number, path, later)) :
    later = [] ∨ ∃ rest, later = '\n' :: rest := by
  simp only [entryAt, Option.bind_eq_bind, Option.bind_eq_some_iff, Option.pure_def, Option.some.injEq,
    Prod.mk.injEq] at found
  obtain ⟨_, _, _, _, _, _, _, _, _, _, shown, _, _, _, rfl⟩ := found
  cases left : shown.dropWhile (· ≠ '\n') with
  | nil => exact .inl rfl
  | cons char rest =>
      have stopped := List.head?_dropWhile_not (· ≠ '\n') shown
      rw [left] at stopped
      have newline : char = '\n' := by simpa using stopped
      exact .inr ⟨rest, by rw [newline]⟩

theorem findEntries_newline (lineStart : Bool) (rest : List Char) :
    findEntries 0 lineStart ('\n' :: rest) = findEntries 0 true rest := by
  have silent : entryAt ('\n' :: rest) = none := rfl
  rw [findEntries, silent, ite_self]
  rfl

theorem findEntries_drop (skip : Nat) (lineStart : Bool) {text : List Char}
    (later : text.drop skip = [] ∨ ∃ rest, text.drop skip = '\n' :: rest) :
    findEntries skip lineStart text = findEntries 0 true (text.drop skip) := by
  induction text generalizing skip lineStart with
  | nil =>
      rw [List.drop_nil]
      cases skip <;> rfl
  | cons char text ih =>
      cases skip with
      | zero =>
          obtain empty | ⟨rest, same⟩ := later
          · cases empty
          · rw [List.drop_zero] at same ⊢
            rw [same, findEntries_newline, findEntries_newline]
      | succ skip => exact ih skip _ later

/-- The search goes on after what a match takes. -/
theorem findEntries_match (found : entryAt text = some (number, path, later)) :
    findEntries 0 true text = (number, path) :: findEntries 0 true later := by
  cases text with
  | nil => cases found
  | cons char text =>
      have left := List.suffix_iff_eq_drop.mp (entryAt_suffix found)
      have stopped := entryAt_later found
      rw [left] at stopped
      rw [findEntries, if_pos rfl, found]
      simp only
      rw [findEntries_drop _ _ stopped, ← left]

theorem findEntries_inside (text : List Char) :
    findEntries 0 false text = findEntries 0 true (text.dropWhile (· ≠ '\n')) := by
  induction text with
  | nil => rfl
  | cons char text ih =>
      by_cases newline : char = '\n'
      · rw [newline, List.dropWhile_cons, if_neg (by decide), findEntries_newline, findEntries_newline]
      · rw [List.dropWhile_cons, if_pos (decide_eq_true newline), findEntries, if_neg (by decide),
          beq_false_of_ne newline]
        exact ih

theorem findEntries_line (silent : entryAt text = none) :
    findEntries 0 true text = findEntries 0 true (text.dropWhile (· ≠ '\n')) := by
  cases text with
  | nil => rfl
  | cons char text =>
      by_cases newline : char = '\n'
      · rw [newline, List.dropWhile_cons, if_neg (by decide)]
      · rw [List.dropWhile_cons, if_pos (decide_eq_true newline), findEntries, if_pos rfl, silent,
          beq_false_of_ne newline]
        exact findEntries_inside text

end Suffix

/-! ## Entries around a line that is none -/

/-- A text without a match at its beginning, that no match goes through to the next line. -/
structure Headed (text : List Char) : Prop where
  visible : ∃ first rest, text = first :: rest ∧ isWhitespace first = false
  unlabelled : dropStart "Homelab".toList text = none
  silent : entryAt text = none

/-- Whole lines. -/
def Closed (text : List Char) : Prop := text = [] ∨ ∃ lines, text = lines ++ ['\n']

section Around

variable {text rest : List Char} {start lines : List Char}

theorem dropSpaces_above (lines : List Char) :
    (∀ text, Headed text → dropSpaces (lines ++ '\n' :: text) = none) ∨
      ∃ left, Closed left ∧ ∀ text, Headed text → dropSpaces (lines ++ '\n' :: text) = some (left ++ text) := by
  have newline : isWhitespace '\n' = true := by decide
  have dropped (body : List Char) : ∃ left, Closed left ∧ ∀ text, Headed text →
      (body ++ '\n' :: text).dropWhile isWhitespace = left ++ text := by
    cases shape : body.dropWhile isWhitespace with
    | nil =>
        refine ⟨[], .inl rfl, fun text headed => ?_⟩
        have through := @dropWhile_label body text [] _ newline headed.visible
        rw [List.append_nil, shape] at through
        exact through
    | cons char left =>
        refine ⟨char :: left ++ ['\n'], .inr ⟨_, rfl⟩, fun text headed => ?_⟩
        have through := @dropWhile_label body text [] _ newline headed.visible
        rw [List.append_nil, shape] at through
        rw [through]
        simp
  cases lines with
  | nil =>
      refine .inr ⟨[], .inl rfl, fun text headed => ?_⟩
      have stays := @dropWhile_node _ [] headed.visible
      rw [List.append_nil] at stays
      rw [List.nil_append, dropSpaces, if_pos newline, stays]
      rfl
  | cons char lines =>
      cases blank : isWhitespace char with
      | true =>
          obtain ⟨left, closed, same⟩ := dropped lines
          refine .inr ⟨left, closed, fun text headed => ?_⟩
          rw [List.cons_append, dropSpaces, if_pos blank, same text headed]
      | false =>
          refine .inl fun text headed => ?_
          rw [List.cons_append, dropSpaces, if_neg (by simp [blank])]

theorem takeWhile_above (lines : List Char) : ∃ path left, Closed left ∧ ∀ text,
    (lines ++ '\n' :: text).takeWhile (· ≠ '\n') = path ∧
      (lines ++ '\n' :: text).dropWhile (· ≠ '\n') = '\n' :: (left ++ text) := by
  induction lines with
  | nil => exact ⟨[], [], .inl rfl, fun text => ⟨rfl, rfl⟩⟩
  | cons char lines ih =>
      by_cases newline : char = '\n'
      · subst newline
        refine ⟨[], lines ++ ['\n'], .inr ⟨lines, rfl⟩, fun text => ⟨rfl, ?_⟩⟩
        rw [List.append_assoc]
        rfl
      · obtain ⟨path, left, closed, same⟩ := ih
        have plain : decide (char ≠ '\n') = true := decide_eq_true newline
        refine ⟨char :: path, left, closed, fun text => ?_⟩
        rw [List.cons_append, List.takeWhile_cons, List.dropWhile_cons, if_pos plain, if_pos plain, (same text).1]
        exact ⟨rfl, (same text).2⟩

/-- The number of a boot variable is in the line of its beginning. -/
theorem digits_above (lines : List Char) :
    (∀ text, (decide (((lines ++ '\n' :: text).take 4).length = 4) && ((lines ++ '\n' :: text).take 4).all isHex) = false) ∨
      ∃ number left, ∀ text, (lines ++ '\n' :: text).take 4 = number ∧
        (lines ++ '\n' :: text).drop 4 = left ++ '\n' :: text ∧ number.length = 4 ∧ number.all isHex = true := by
  by_cases short : lines.length < 4
  · refine .inl fun text => ?_
    have listed : '\n' ∈ (lines ++ '\n' :: text).take 4 := by
      rw [List.take_append, List.mem_append]
      obtain ⟨more, same⟩ : ∃ more, 4 - lines.length = more + 1 := ⟨3 - lines.length, by omega⟩
      rw [same, List.take_succ_cons]
      exact .inr (List.mem_cons_self ..)
    rw [Bool.and_eq_false_iff, List.all_eq_false]
    exact .inr ⟨'\n', listed, by decide⟩
  · have long : 4 ≤ lines.length := by omega
    have taken (text : List Char) : (lines ++ '\n' :: text).take 4 = lines.take 4 :=
      List.take_append_of_le_length long
    have dropped (text : List Char) : (lines ++ '\n' :: text).drop 4 = lines.drop 4 ++ '\n' :: text :=
      List.drop_append_of_le_length long
    cases hex : (lines.take 4).all isHex with
    | false =>
        refine .inl fun text => ?_
        rw [taken, hex, Bool.and_false]
    | true =>
        refine .inr ⟨lines.take 4, lines.drop 4, fun text => ⟨taken text, dropped text, ?_, hex⟩⟩
        rw [List.length_take]
        omega

/-- What follows the number of an entry. -/
def afterNumber (number rest : List Char) : Option (List Char × List Char × List Char) :=
  (dropStart ['*'] rest).bind fun rest => (dropSpaces rest).bind fun rest =>
    (dropStart "Homelab".toList rest).bind fun rest => (dropSpaces rest).bind fun rest =>
      some (number, rest.takeWhile (· ≠ '\n'), rest.dropWhile (· ≠ '\n'))

theorem entryAt_number {number : List Char} (begun : dropStart "Boot".toList text = some rest)
    (taken : rest.take 4 = number) (four : number.length = 4) (hex : number.all isHex = true) :
    entryAt text = afterNumber number (rest.drop 4) := by
  rw [entryAt, begun]
  simp only [Option.bind_eq_bind, Option.bind_some, taken, four, hex, decide_true, Bool.and_self, guard_true]
  rfl

/-- What a match that begins above a headed line takes does not depend on that line, unless it is its path. -/
theorem afterNumber_above (number lines : List Char) :
    (∀ text, Headed text → afterNumber number (lines ++ '\n' :: text) = none) ∨
      (∃ path left, Closed left ∧ ∀ text, Headed text →
        afterNumber number (lines ++ '\n' :: text) = some (number, path, '\n' :: (left ++ text))) ∨
      ∀ text, Headed text → afterNumber number (lines ++ '\n' :: text) =
        some (number, text.takeWhile (· ≠ '\n'), text.dropWhile (· ≠ '\n')) := by
  have mark : ∀ char ∈ ['*'], char.toLower ≠ '\n'.toLower := by decide
  cases marked : dropStart ['*'] lines with
  | none =>
      refine .inl fun text headed => ?_
      rw [afterNumber, dropStart_append mark, marked]
      rfl
  | some afterMark =>
    have begin (text : List Char) : dropStart ['*'] (lines ++ '\n' :: text) = some (afterMark ++ '\n' :: text) := by
      rw [dropStart_append mark, marked]
      rfl
    obtain unspaced | ⟨label, closed, spaced⟩ := dropSpaces_above afterMark
    · refine .inl fun text headed => ?_
      rw [afterNumber, begin, Option.bind_some, unspaced text headed]
      rfl
    · obtain rfl | ⟨label, rfl⟩ := closed
      · refine .inl fun text headed => ?_
        rw [afterNumber, begin, Option.bind_some, spaced text headed, Option.bind_some, List.nil_append,
          headed.unlabelled]
        rfl
      · have whole (text : List Char) : label ++ ['\n'] ++ text = label ++ '\n' :: text := by simp
        cases labelled : dropStart "Homelab".toList label with
        | none =>
            refine .inl fun text headed => ?_
            rw [afterNumber, begin, Option.bind_some, spaced text headed, Option.bind_some, whole,
              dropStart_append apart_newline, labelled]
            rfl
        | some afterLabel =>
          have named (text : List Char) (headed : Headed text) : afterNumber number (lines ++ '\n' :: text) =
              (dropSpaces (afterLabel ++ '\n' :: text)).bind fun rest =>
                some (number, rest.takeWhile (· ≠ '\n'), rest.dropWhile (· ≠ '\n')) := by
            rw [afterNumber, begin, Option.bind_some, spaced text headed, Option.bind_some, whole,
              dropStart_append apart_newline, labelled]
            rfl
          obtain unspaced | ⟨shown, closed, spaced⟩ := dropSpaces_above afterLabel
          · refine .inl fun text headed => ?_
            rw [named text headed, unspaced text headed]
            rfl
          · obtain rfl | ⟨shown, rfl⟩ := closed
            · refine .inr (.inr fun text headed => ?_)
              rw [named text headed, spaced text headed]
              rfl
            · obtain ⟨path, left, closed, line⟩ := takeWhile_above shown
              refine .inr (.inl ⟨path, left, closed, fun text headed => ?_⟩)
              rw [named text headed, spaced text headed, List.append_assoc, Option.bind_some, List.singleton_append,
                (line text).1, (line text).2]

theorem entryAt_above (lines : List Char) :
    (∀ text, Headed text → entryAt (lines ++ '\n' :: text) = none) ∨
      (∃ number path left, Closed left ∧
        ∀ text, Headed text → entryAt (lines ++ '\n' :: text) = some (number, path, '\n' :: (left ++ text))) ∨
      ∃ number, ∀ text, Headed text →
        entryAt (lines ++ '\n' :: text) = some (number, text.takeWhile (· ≠ '\n'), text.dropWhile (· ≠ '\n')) := by
  have boot : ∀ char ∈ "Boot".toList, char.toLower ≠ '\n'.toLower := by decide
  cases begun : dropStart "Boot".toList lines with
  | none =>
      refine .inl fun text headed => ?_
      rw [entryAt, dropStart_append boot, begun]
      rfl
  | some afterBoot =>
    have begin (text : List Char) : dropStart "Boot".toList (lines ++ '\n' :: text) = some (afterBoot ++ '\n' :: text) := by
      rw [dropStart_append boot, begun]
      rfl
    obtain wrong | ⟨number, left, digits⟩ := digits_above afterBoot
    · refine .inl fun text headed => ?_
      rw [entryAt, begin]
      simp only [Option.bind_eq_bind, Option.bind_some, wrong text]
      rfl
    · have found (text : List Char) : entryAt (lines ++ '\n' :: text) = afterNumber number (left ++ '\n' :: text) := by
        obtain ⟨taken, dropped, four, hex⟩ := digits text
        rw [entryAt_number (begin text) taken four hex, dropped]
      simp only [found]
      obtain silent | ⟨path, later, closed, inside⟩ | line := afterNumber_above number left
      · exact .inl silent
      · exact .inr (.inl ⟨number, path, later, closed, inside⟩)
      · exact .inr (.inr ⟨number, line⟩)

/-- Replacing a headed line that is no path keeps the entries with a path of interest. -/
theorem findEntries_around {before after : List Char} (interest : List Char × List Char → Bool)
    (headed : Headed before) (headed' : Headed after)
    (plain : ∀ number, interest (number, before.takeWhile (· ≠ '\n')) = false)
    (plain' : ∀ number, interest (number, after.takeWhile (· ≠ '\n')) = false)
    (same : before.dropWhile (· ≠ '\n') = after.dropWhile (· ≠ '\n')) {lines : List Char} (closed : Closed lines) :
    (findEntries 0 true (lines ++ before)).filter interest = (findEntries 0 true (lines ++ after)).filter interest := by
  induction size : lines.length using Nat.strong_induction_on generalizing lines with
  | _ bound ih =>
  obtain rfl | ⟨lines, rfl⟩ := closed
  · rw [List.nil_append, List.nil_append, findEntries_line headed.silent, findEntries_line headed'.silent, same]
  · rw [List.append_assoc, List.append_assoc, List.singleton_append, List.singleton_append]
    rw [List.length_append, List.length_singleton] at size
    obtain silent | ⟨number, path, left, closed, inside⟩ | ⟨number, line⟩ := entryAt_above lines
    · obtain ⟨_, left, closed, line⟩ := takeWhile_above lines
      rw [findEntries_line (silent _ headed), findEntries_line (silent _ headed'), (line before).2, (line after).2,
        findEntries_newline, findEntries_newline]
      have shorter := (List.dropWhile_suffix (l := lines ++ '\n' :: before) (· ≠ '\n')).length_le
      rw [(line before).2, List.length_cons, List.length_append, List.length_append, List.length_cons] at shorter
      exact ih left.length (by omega) closed rfl
    · have shorter : left.length < bound := by
        have taken := entryAt_shorter (inside before headed)
        rw [List.length_cons, List.length_append, List.length_append, List.length_cons] at taken
        omega
      rw [findEntries_match (inside _ headed), findEntries_match (inside _ headed'), findEntries_newline,
        findEntries_newline, List.filter_cons, List.filter_cons, ih left.length shorter closed rfl]
    · rw [findEntries_match (line _ headed), findEntries_match (line _ headed'), List.filter_cons, List.filter_cons,
        plain, plain', same, if_neg Bool.false_ne_true, if_neg Bool.false_ne_true]

end Around

/-! ## Boot orders as text -/

section Orders

variable {part rest : List Char} {parts : List (List Char)}

theorem splitAt_part {separator : Char} (inside : separator ∉ part) (seen : List Char) :
    IpAddress.splitAt separator part seen = [String.ofList (seen.reverse ++ part)] ∧
      IpAddress.splitAt separator (part ++ separator :: rest) seen =
        String.ofList (seen.reverse ++ part) :: IpAddress.splitAt separator rest [] := by
  induction part generalizing seen with
  | nil =>
      rw [List.append_nil, List.nil_append, IpAddress.splitAt, IpAddress.splitAt, if_pos rfl]
      exact ⟨rfl, rfl⟩
  | cons char part ih =>
      rw [List.mem_cons, not_or] at inside
      have next := ih inside.2 (char :: seen)
      rw [List.reverse_cons, List.append_assoc, List.singleton_append] at next
      rw [List.cons_append, IpAddress.splitAt, IpAddress.splitAt, if_neg (Ne.symm inside.1),
        if_neg (Ne.symm inside.1)]
      exact next

theorem splitAt_intercalate (first : List Char) (others : List (List Char)) {separator : Char}
    (inside : ∀ part ∈ first :: others, separator ∉ part) :
    IpAddress.splitAt separator ([separator].intercalate (first :: others)) [] =
      (first :: others).map String.ofList := by
  induction others generalizing first with
  | nil =>
      rw [List.intercalate_singleton, (@splitAt_part _ [] _ (inside first (by simp)) []).1]
      rfl
  | cons second others ih =>
      rw [List.intercalate_cons_cons, List.append_assoc, List.singleton_append,
        (splitAt_part (inside first (by simp)) []).2, ih second fun part listed => inside part (by simp_all)]
      rfl

theorem map_intercalate (change : Char → Char) (separator : List Char) (parts : List (List Char)) :
    (separator.intercalate parts).map change = (separator.map change).intercalate (parts.map (List.map change)) := by
  induction parts with
  | nil => rfl
  | cons first others ih =>
      cases others with
      | nil => simp
      | cons second others =>
          rw [List.map_cons, List.map_cons, List.intercalate_cons_cons, List.intercalate_cons_cons, List.map_append,
            List.map_append, ih]
          rfl

theorem mem_intercalate {separator : List Char} {char : Char} (listed : char ∈ separator.intercalate parts) :
    char ∈ separator ∨ ∃ part ∈ parts, char ∈ part := by
  induction parts with
  | nil => cases listed
  | cons first others ih =>
      cases others with
      | nil =>
          rw [List.intercalate_singleton] at listed
          exact .inr ⟨first, by simp, listed⟩
      | cons second others =>
          rw [List.intercalate_cons_cons, List.mem_append, List.mem_append] at listed
          obtain (inFirst | inSeparator) | later := listed
          · exact .inr ⟨first, by simp, inFirst⟩
          · exact .inl inSeparator
          · cases ih later with
            | inl inSeparator => exact .inl inSeparator
            | inr inside =>
                obtain ⟨part, member, inside⟩ := inside
                exact .inr ⟨part, List.mem_cons_of_mem _ member, inside⟩

end Orders

/-! ## A listing around its boot order -/

/-- Blanks of one line. -/
def Blank (text : List Char) : Prop := ∀ char ∈ text, isWhitespace char = true ∧ char ≠ '\n'

instance (text : List Char) : Decidable (Blank text) :=
  inferInstanceAs (Decidable (∀ char ∈ text, isWhitespace char = true ∧ char ≠ '\n'))

/-- A listing without the numbers of its boot order. -/
structure Surroundings where
  earlier : List (List Char)
  heading : List Char
  trailing : List Char
  rest : List Char
  earlierLines : ∀ line ∈ earlier, '\n' ∉ line ∧ dropStart "BootOrder:".toList line = none
  headed : ∃ blanks, dropStart "BootOrder:".toList heading = some blanks ∧ Blank blanks
  trailingBlank : Blank trailing
  ended : rest = [] ∨ ∃ later, rest = '\n' :: later

namespace Surroundings

variable (around : Surroundings)

def orderLine (order : List Char) : List Char := around.heading ++ (order ++ around.trailing)

def text (order : List Char) : List Char := textOf around.earlier ++ (around.orderLine order ++ around.rest)

end Surroundings

/-- Numbers separated by commas. -/
def Numbers (order : List Char) : Prop :=
  (∃ first rest, order = first :: rest ∧ isHex first = true) ∧ ∀ char ∈ order, isHex char = true ∨ char = ','

section Around

variable {around : Surroundings} {order start text rest : List Char}

theorem dropStart_lower (found : dropStart start text = some rest) :
    text.map Char.toLower = start.map Char.toLower ++ rest.map Char.toLower := by
  induction start generalizing text with
  | nil =>
      cases found
      rfl
  | cons first start ih =>
      cases text with
      | nil => cases found
      | cons char text =>
          rw [dropStart] at found
          split at found
          · rename_i same
            rw [List.map_cons, List.map_cons, List.cons_append, same, ih found]
          · cases found

theorem closed_lines (lines : List (List Char)) : Closed (textOf lines) := by
  induction lines with
  | nil => exact .inl rfl
  | cons line lines ih =>
      have shape := @textOf_cons lines [] line
      rw [List.append_nil, List.append_nil] at shape
      rw [shape]
      obtain empty | ⟨text, same⟩ := ih
      · exact .inr ⟨line, by rw [empty]⟩
      · exact .inr ⟨line ++ '\n' :: text, by simp [same]⟩

theorem dropStart_split {more : List Char} (found : dropStart (start ++ more) text = some rest) :
    ∃ between, dropStart start text = some between ∧ dropStart more between = some rest := by
  induction start generalizing text with
  | nil => exact ⟨text, rfl, found⟩
  | cons first start ih =>
      cases text with
      | nil => cases found
      | cons char text =>
          rw [List.cons_append, dropStart] at found
          rw [dropStart]
          split at found
          · rename_i same
            rw [if_pos same]
            exact ih found
          · cases found

theorem dropStart_cons {first : Char} (found : dropStart (first :: start) text = some rest) :
    ∃ char tail, text = char :: tail ∧ first.toLower = char.toLower := by
  cases text with
  | nil => cases found
  | cons char tail =>
      rw [dropStart] at found
      split at found
      · exact ⟨char, tail, rfl, by assumption⟩
      · cases found

theorem boot_letter {char : Char} (lower : 'B'.toLower = char.toLower) :
    isWhitespace char = false ∧ 'H'.toLower ≠ char.toLower := by
  constructor
  · cases blank : isWhitespace char with
    | false => rfl
    | true =>
        have blanks := blank_bounds blank
        have code := toNat_toLower char
        have letter : char.toLower.toNat = 98 := by
          rw [← lower]
          rfl
        rw [letter] at code
        split at code <;> omega
  · rw [← lower]
    decide

/-- The line of the boot order begins no match. -/
theorem headed_orderLine : Headed (around.orderLine order ++ around.rest) := by
  obtain ⟨blanks, found, _⟩ := around.headed
  obtain ⟨afterBoot, boot, label⟩ := @dropStart_split "Boot".toList _ _ "Order:".toList found
  obtain ⟨first, tail, shape, letter⟩ := @dropStart_cons ['o', 'o', 't'] _ _ _ boot
  obtain ⟨second, later, shape', letter'⟩ := @dropStart_cons "rder:".toList _ _ _ label
  have line : around.orderLine order ++ around.rest = around.heading ++ (order ++ around.trailing ++ around.rest) := by
    simp [Surroundings.orderLine]
  obtain ⟨visible, other⟩ := boot_letter letter
  rw [line]
  refine ⟨⟨first, tail ++ (order ++ around.trailing ++ around.rest), by rw [shape]; rfl, visible⟩, ?_, ?_⟩
  · rw [shape]
    exact if_neg other
  · have unhex : isHex second = false := by
      cases hex : isHex second with
      | false => rfl
      | true => exact absurd letter' (hex_other hex)
    rw [entryAt, dropStart_more boot, shape', Option.bind_eq_bind, Option.bind_some]
    simp only [List.cons_append, List.take_succ_cons, List.all_cons, unhex, Bool.false_and, Bool.and_false]
    rfl

theorem Numbers.oneLine (numbers : Numbers order) : '\n' ∉ order ∧ '(' ∉ order := by
  constructor
  · intro listed
    exact absurd (numbers.2 _ listed) (by decide)
  · intro listed
    exact absurd (numbers.2 _ listed) (by decide)

theorem orderLine_plain (numbers : Numbers order) :
    ∀ char ∈ around.orderLine order, char ≠ '\n' ∧ char.toLower ≠ '(' := by
  have blank {text : List Char} (blank : Blank text) : ∀ char ∈ text, char.toLower ≠ '\n' ∧ char.toLower ≠ '(' := by
    intro char listed
    obtain ⟨spaced, inside⟩ := blank char listed
    constructor
    · exact fun lower => inside (toLower_below lower (by decide))
    · intro lower
      rw [toLower_below lower (by decide)] at spaced
      exact absurd spaced (by decide)
  obtain ⟨blanks, found, blanksBlank⟩ := around.headed
  intro char listed
  have lowered : char.toLower ≠ '\n' ∧ char.toLower ≠ '(' := by
    rw [Surroundings.orderLine, List.mem_append, List.mem_append] at listed
    obtain inHeading | inOrder | inTrailing := listed
    · have lower := List.mem_map_of_mem (f := Char.toLower) inHeading
      rw [dropStart_lower found, List.mem_append] at lower
      cases lower with
      | inl label =>
          have letters : ∀ letter ∈ "BootOrder:".toList.map Char.toLower, letter ≠ '\n' ∧ letter ≠ '(' := by decide
          exact letters _ label
      | inr inBlanks =>
          obtain ⟨other, member, same⟩ := List.mem_map.mp inBlanks
          rw [← same]
          exact blank blanksBlank other member
    · have allowed := numbers.2 char inOrder
      constructor
      · intro lower
        rw [toLower_below lower (by decide)] at allowed
        exact absurd allowed (by decide)
      · intro lower
        rw [toLower_below lower (by decide)] at allowed
        exact absurd allowed (by decide)
    · exact blank around.trailingBlank char inTrailing
  refine ⟨fun newline => ?_, lowered.2⟩
  rw [newline] at lowered
  exact lowered.1 rfl

theorem orderLine_lines (numbers : Numbers order) :
    (around.orderLine order ++ around.rest).takeWhile (· ≠ '\n') = around.orderLine order ∧
      (around.orderLine order ++ around.rest).dropWhile (· ≠ '\n') = around.rest := by
  have plain : ∀ char ∈ around.orderLine order, decide (char ≠ '\n') = true := fun char listed =>
    decide_eq_true (orderLine_plain numbers char listed).1
  rw [List.takeWhile_append_of_pos plain, List.dropWhile_append_of_pos plain]
  obtain same | ⟨later, same⟩ := around.ended
  · rw [same]
    exact ⟨List.append_nil _, rfl⟩
  · rw [same]
    exact ⟨List.append_nil _, rfl⟩

theorem orderLine_path (numbers : Numbers order) (uuid : List Char) : isMatch uuid (around.orderLine order) = false := by
  rw [Bool.eq_false_iff, ne_eq, isMatch_iff]
  intro ⟨inside, _⟩
  have listed : '(' ∈ (around.orderLine order).map Char.toLower := inside.subset (by simp)
  obtain ⟨char, member, lower⟩ := List.mem_map.mp listed
  exact (orderLine_plain numbers char member).2 lower

theorem orderAt_around (numbers : Numbers order) : orderAt (around.orderLine order ++ around.rest) = some order := by
  obtain ⟨blanks, found, blanksBlank⟩ := around.headed
  obtain ⟨⟨first, tail, shape, hex⟩, allowed⟩ := numbers
  have line : around.orderLine order ++ around.rest = around.heading ++ (order ++ (around.trailing ++ around.rest)) := by
    simp [Surroundings.orderLine]
  have skipped : (blanks ++ (order ++ (around.trailing ++ around.rest))).dropWhile isWhitespace =
      order ++ (around.trailing ++ around.rest) := by
    rw [List.dropWhile_append_of_pos fun char listed => (blanksBlank char listed).1, shape, List.cons_append,
      List.dropWhile_cons, if_neg (by simp [hex_blank hex])]
  have stop : (around.trailing ++ around.rest).takeWhile (fun char => isHex char || char == ',') = [] := by
    have closes {char : Char} (spaced : isWhitespace char = true) : (isHex char || char == ',') = false := by
      cases test : (isHex char || char == ',') with
      | false => rfl
      | true =>
          cases (Bool.or_eq_true _ _).mp test with
          | inl hex =>
              rw [hex_blank hex] at spaced
              cases spaced
          | inr comma =>
              rw [eq_of_beq comma] at spaced
              exact absurd spaced (by decide)
    cases trailing : around.trailing with
    | nil =>
        obtain same | ⟨later, same⟩ := around.ended
        · rw [same]
          rfl
        · rw [same, List.nil_append, List.takeWhile_cons, if_neg (by decide)]
    | cons char tail =>
        have spaced := (around.trailingBlank char (by rw [trailing]; simp)).1
        rw [List.cons_append, List.takeWhile_cons, if_neg (by simp [closes spaced])]
  have taken : (order ++ (around.trailing ++ around.rest)).takeWhile (fun char => isHex char || char == ',') = order := by
    rw [List.takeWhile_append_of_pos, stop, List.append_nil]
    intro char listed
    cases allowed char listed with
    | inl hex => rw [hex, Bool.true_or]
    | inr comma => rw [comma, beq_self_eq_true, Bool.or_true]
  rw [line, orderAt, dropStart_more found, Option.bind_eq_bind, Option.bind_some]
  simp only [skipped, taken]
  rw [shape]
  rfl

theorem searchOrder_around (numbers : Numbers order) : searchOrder true (around.text order) = some order := by
  have found : searchOrder true (around.orderLine order ++ around.rest) = some order := by
    have start := @orderAt_around around _ numbers
    cases line : around.orderLine order ++ around.rest with
    | nil =>
        rw [line] at start
        cases start
    | cons char text =>
        rw [line] at start
        rw [searchOrder, if_pos rfl, start]
  have newline : ∀ char ∈ "BootOrder:".toList, char.toLower ≠ '\n'.toLower := by decide
  have unordered : ∀ line ∈ around.earlier, '\n' ∉ line ∧ ∀ rest, orderAt (line ++ '\n' :: rest) = none := by
    intro line listed
    obtain ⟨oneLine, other⟩ := around.earlierLines line listed
    refine ⟨oneLine, fun rest => ?_⟩
    rw [orderAt, dropStart_append newline, other]
    rfl
  rw [Surroundings.text, searchOrder_quiet unordered, found]

/-- The entries that a listing matches do not depend on its boot order. -/
theorem matches_around {order' : List Char} (numbers : Numbers order) (numbers' : Numbers order') (uuid : List Char) :
    (findEntries 0 true (around.text order)).filter (fun entry => isMatch uuid entry.2) =
      (findEntries 0 true (around.text order')).filter (fun entry => isMatch uuid entry.2) := by
  apply findEntries_around _ headed_orderLine headed_orderLine _ _ _ (closed_lines _)
  · intro number
    rw [(orderLine_lines numbers).1]
    exact orderLine_path numbers uuid
  · intro number
    rw [(orderLine_lines numbers').1]
    exact orderLine_path numbers' uuid
  · rw [(orderLine_lines numbers).2, (orderLine_lines numbers').2]

end Around

/-! ## The choice among the matching entries -/

/-- What a plan decides from the matching entries and the boot order. -/
def choose (matching order : List String) : BootPlan :=
  let selected := (order.find? fun entry => matching.contains entry).or
    (matching.insertionSort (· ≤ ·)).head?
  let desired : List String := match selected with
    | some entry => entry :: order.filter (· ≠ entry)
    | none => order
  { selectedEntry := selected, bootOrder := ",".intercalate desired,
    needsCreate := selected.isNone, needsOrder := decide (desired ≠ order) }

section Choice

variable {matching order : List String} {selected : String}

theorem selected_matching (selects : (choose matching order).selectedEntry = some selected) : selected ∈ matching := by
  cases Option.or_eq_some_iff.mp selects with
  | inl found =>
      have chosen := List.find?_some found
      rw [List.contains_eq_mem, decide_eq_true_eq] at chosen
      exact chosen
  | inr sorted => exact (List.mem_insertionSort _).mp (List.mem_of_head? sorted.2)

theorem bootOrder_selected (selects : (choose matching order).selectedEntry = some selected) :
    (choose matching order).bootOrder = ",".intercalate (selected :: order.filter (· ≠ selected)) := by
  have found : (order.find? fun entry => matching.contains entry).or (matching.insertionSort (· ≤ ·)).head? =
    some selected := selects
  rw [choose, found]

/-- The desired order selects the same entry and stays. -/
theorem choose_again (listed : selected ∈ matching) :
    choose matching (selected :: order.filter (· ≠ selected)) =
      { selectedEntry := some selected, bootOrder := ",".intercalate (selected :: order.filter (· ≠ selected)),
        needsCreate := false, needsOrder := false } := by
  have first : ((selected :: order.filter (· ≠ selected)).find? fun entry => matching.contains entry) = some selected := by
    rw [List.find?_cons, List.contains_eq_mem, decide_eq_true listed]
  have kept : (selected :: order.filter (· ≠ selected)).filter (· ≠ selected) = order.filter (· ≠ selected) := by
    rw [List.filter_cons, if_neg (by simp), List.filter_filter]
    simp
  rw [choose, first]
  simp only [Option.some_or, kept]
  simp

end Choice

/-! ## The order that is applied -/

def upper (digits : List Char) : String := String.ofList (digits.map Char.toUpper)

/-- An entry as a plan writes it. -/
def Written (entry : String) : Prop := ∃ digits, digits ≠ [] ∧ digits.all isHex = true ∧ entry = upper digits

section Applied

variable {entry : String} {numbers : List BootNumber} {around : Surroundings} {partitionUuid : String}

theorem toUpper_hex {char : Char} (hex : isHex char = true) :
    isHex char.toUpper = true ∧ char.toUpper.toUpper = char.toUpper := by
  have every : ∀ code < 103, isHex (Char.ofNat code) = true →
      isHex (Char.ofNat code).toUpper = true ∧ (Char.ofNat code).toUpper.toUpper = (Char.ofNat code).toUpper := by decide
  have bounds := hex_bounds hex
  have same := every char.toNat (by omega)
  rw [Char.ofNat_toNat] at same
  exact same hex

theorem Written.kept (written : Written entry) :
    entry.toList ≠ [] ∧ entry.toList.all isHex = true ∧ upper entry.toList = entry := by
  obtain ⟨digits, nonempty, hex, rfl⟩ := written
  have each := List.all_eq_true.mp hex
  refine ⟨?_, ?_, ?_⟩
  · rw [upper, String.toList_ofList]
    exact fun empty => nonempty (List.map_eq_nil_iff.mp empty)
  · rw [upper, String.toList_ofList, List.all_map, List.all_eq_true]
    exact fun char listed => (toUpper_hex (each char listed)).1
  · rw [upper, upper, String.toList_ofList, List.map_map]
    apply congrArg
    exact List.map_congr_left fun char listed => (toUpper_hex (each char listed)).2

/-- The numbers of a boot order as the plan compares them. -/
def entryOf (number : BootNumber) : String := upper number.digits

theorem entryOf_written (number : BootNumber) : Written (entryOf number) := by
  refine ⟨number.digits, ?_, number.hex, rfl⟩
  intro empty
  have four := number.four
  rw [empty] at four
  cases four

theorem numbers_intercalate {first : List Char} {others : List (List Char)}
    (hex : ∀ part ∈ first :: others, part ≠ [] ∧ part.all isHex = true) :
    Numbers ([','].intercalate (first :: others)) := by
  constructor
  · obtain ⟨nonempty, firstHex⟩ := hex first (by simp)
    cases first with
    | nil => exact absurd rfl nonempty
    | cons char tail =>
        rw [List.all_cons, Bool.and_eq_true] at firstHex
        cases others with
        | nil => exact ⟨char, tail, List.intercalate_singleton, firstHex.1⟩
        | cons second others =>
            rw [List.intercalate_cons_cons]
            exact ⟨char, tail ++ [','] ++ [','].intercalate (second :: others), rfl, firstHex.1⟩
  · intro char listed
    cases mem_intercalate listed with
    | inl comma => exact .inr (List.mem_singleton.mp comma)
    | inr inside =>
        obtain ⟨part, member, inside⟩ := inside
        exact .inl (List.all_eq_true.mp (hex part member).2 char inside)

theorem split_upper {first : List Char} {others : List (List Char)}
    (hex : ∀ part ∈ first :: others, part ≠ [] ∧ part.all isHex = true) :
    IpAddress.split ',' (String.ofList (([','].intercalate (first :: others)).map Char.toUpper)) =
      (first :: others).map upper := by
  have commas : [','].map Char.toUpper = [','] := rfl
  rw [IpAddress.split, String.toList_ofList, map_intercalate, commas, List.map_cons, splitAt_intercalate]
  · rw [← List.map_cons, List.map_map]
    rfl
  · intro part listed inside
    obtain ⟨part, member, rfl⟩ := List.mem_map.mp (List.map_cons ▸ listed)
    obtain ⟨char, member', comma⟩ := List.mem_map.mp inside
    have hex := (toUpper_hex (List.all_eq_true.mp (hex part member).2 char member')).1
    rw [comma] at hex
    exact absurd hex (by decide)

/-- The matching entries of a text, as the plan compares them. -/
def matchingAt (uuid text : List Char) : List String :=
  ((findEntries 0 true text).filter fun entry => isMatch uuid entry.2).map fun entry => upper entry.1

theorem bootPlan_text {uuid digits text : List Char} (canonical : canonicalUuid partitionUuid = some uuid)
    (found : searchOrder true text = some digits) : bootPlan (String.ofList text) partitionUuid =
      .ok (choose (matchingAt uuid text) (IpAddress.split ',' (String.ofList (digits.map Char.toUpper)))) := by
  rw [bootPlan, canonical, String.toList_ofList, found]
  rfl

theorem entryAt_digits {text number path later : List Char} (found : entryAt text = some (number, path, later)) :
    number.length = 4 ∧ number.all isHex = true := by
  simp only [entryAt, Option.bind_eq_bind, Option.bind_eq_some_iff, Option.pure_def, Option.some.injEq,
    Prod.mk.injEq] at found
  obtain ⟨_, _, _, guarded, _, _, _, _, _, _, _, _, rfl, _, _⟩ := found
  rw [guard] at guarded
  split at guarded
  · rename_i shaped
    rw [Bool.and_eq_true, decide_eq_true_eq] at shaped
    exact shaped
  · cases guarded

theorem findEntries_digits {text : List Char} (skip : Nat) (lineStart : Bool) {found : List Char × List Char}
    (listed : found ∈ findEntries skip lineStart text) : found.1.length = 4 ∧ found.1.all isHex = true := by
  induction text generalizing skip lineStart with
  | nil => cases skip <;> cases listed
  | cons char text ih =>
      cases skip with
      | succ skip => exact ih _ _ listed
      | zero =>
          rw [findEntries] at listed
          split at listed
          · rename_i number path later matched
            cases lineStart with
            | false => cases matched
            | true =>
                cases List.mem_cons.mp listed with
                | inl same =>
                    rw [same]
                    exact entryAt_digits matched
                | inr inside => exact ih _ _ inside
          · exact ih _ _ listed

theorem matchingAt_written {uuid text : List Char} (listed : entry ∈ matchingAt uuid text) : Written entry := by
  obtain ⟨found, inside, rfl⟩ := List.mem_map.mp listed
  obtain ⟨four, hex⟩ := findEntries_digits 0 true (List.mem_filter.mp inside).1
  refine ⟨found.1, ?_, hex, rfl⟩
  intro empty
  rw [empty] at four
  cases four

/-- Entries written with commas are found again as the order of the listing. -/
theorem bootPlan_written {uuid : List Char} (canonical : canonicalUuid partitionUuid = some uuid)
    {first : List Char} {others : List (List Char)} (hex : ∀ part ∈ first :: others, part ≠ [] ∧ part.all isHex = true) :
    bootPlan (String.ofList (around.text ([','].intercalate (first :: others)))) partitionUuid =
      .ok (choose (matchingAt uuid (around.text ([','].intercalate (first :: others)))) ((first :: others).map upper)) := by
  rw [bootPlan_text canonical (searchOrder_around (numbers_intercalate hex)), split_upper hex]

/-- The listing with a boot order. -/
def Surroundings.render (around : Surroundings) (order : String) : String := String.ofList (around.text order.toList)

/-- A boot order as the firmware tool prints it. -/
def orderText (numbers : List BootNumber) : String := String.ofList ([','].intercalate (numbers.map BootNumber.digits))

theorem bootPlan_orderText {uuid : List Char} (canonical : canonicalUuid partitionUuid = some uuid)
    (nonempty : numbers ≠ []) : Numbers (orderText numbers).toList ∧
      bootPlan (around.render (orderText numbers)) partitionUuid =
        .ok (choose (matchingAt uuid (around.text (orderText numbers).toList)) (numbers.map entryOf)) := by
  cases numbers with
  | nil => exact absurd rfl nonempty
  | cons first others =>
      have parts : (first :: others).map BootNumber.digits = first.digits :: others.map BootNumber.digits := rfl
      have hex : ∀ part ∈ first.digits :: others.map BootNumber.digits, part ≠ [] ∧ part.all isHex = true := by
        intro part listed
        obtain ⟨number, _, rfl⟩ := List.mem_map.mp (parts ▸ listed)
        obtain ⟨char, tail, shape, _⟩ := digits_cons number
        exact ⟨by simp [shape], number.hex⟩
      have entries : (first.digits :: others.map BootNumber.digits).map upper = (first :: others).map entryOf := by
        rw [← parts, List.map_map]
        rfl
      have planned := @bootPlan_written around _ _ canonical _ _ hex
      rw [entries] at planned
      rw [Surroundings.render, orderText, String.toList_ofList, parts]
      exact ⟨numbers_intercalate hex, planned⟩

theorem bootPlan_entries {uuid : List Char} (canonical : canonicalUuid partitionUuid = some uuid)
    {others : List String} (written : ∀ other ∈ entry :: others, Written other) :
    Numbers (",".intercalate (entry :: others)).toList ∧
      bootPlan (around.render (",".intercalate (entry :: others))) partitionUuid =
        .ok (choose (matchingAt uuid (around.text (",".intercalate (entry :: others)).toList)) (entry :: others)) := by
  have hex : ∀ part ∈ entry.toList :: others.map String.toList, part ≠ [] ∧ part.all isHex = true := by
    intro part listed
    rw [← List.map_cons] at listed
    obtain ⟨other, member, rfl⟩ := List.mem_map.mp listed
    obtain ⟨nonempty, hex, _⟩ := (written other member).kept
    exact ⟨nonempty, hex⟩
  have kept : (entry.toList :: others.map String.toList).map upper = entry :: others := by
    rw [← List.map_cons, List.map_map]
    exact (List.map_congr_left fun other listed => (written other listed).kept.2.2).trans (List.map_id _)
  have comma : ",".toList = [','] := rfl
  have planned := @bootPlan_written around _ _ canonical _ _ hex
  rw [kept] at planned
  rw [Surroundings.render, String.toList_intercalate, comma, List.map_cons]
  exact ⟨numbers_intercalate hex, planned⟩

end Applied

/-- The applied order keeps every other entry in its place, and the same plan on it has nothing left to do. -/
theorem boot_order_verified (around : Surroundings) (numbers : List BootNumber) (nonempty : numbers ≠ [])
    (partitionUuid : String) (plan : BootPlan) (selected : String)
    (planned : bootPlan (around.render (orderText numbers)) partitionUuid = .ok plan)
    (selects : plan.selectedEntry = some selected) :
    plan.bootOrder = ",".intercalate (selected :: (numbers.map entryOf).filter (· ≠ selected)) ∧
      ∃ again, bootPlan (around.render plan.bootOrder) partitionUuid = .ok again ∧ again.selectedEntry = some selected ∧
        again.bootOrder = plan.bootOrder ∧ again.needsCreate = false ∧ again.needsOrder = false ∧
        verify again = .ok () := by
  cases canonical : canonicalUuid partitionUuid with
  | none =>
      rw [bootPlan, canonical] at planned
      cases planned
  | some uuid =>
      obtain ⟨before, planned'⟩ := @bootPlan_orderText _ around _ _ canonical nonempty
      obtain rfl := Except.ok.inj (planned'.symm.trans planned)
      have matching := selected_matching selects
      have written : ∀ entry ∈ selected :: (numbers.map entryOf).filter (· ≠ selected), Written entry := by
        intro entry listed
        cases List.mem_cons.mp listed with
        | inl same => exact same ▸ matchingAt_written matching
        | inr other =>
            obtain ⟨number, _, rfl⟩ := List.mem_map.mp (List.mem_filter.mp other).1
            exact entryOf_written number
      obtain ⟨after, again⟩ := @bootPlan_entries _ around _ _ canonical _ written
      have same : matchingAt uuid (around.text
          (",".intercalate (selected :: (numbers.map entryOf).filter (· ≠ selected))).toList) =
          matchingAt uuid (around.text (orderText numbers).toList) :=
        congrArg (List.map fun entry : List Char × List Char => upper entry.1) (matches_around after before uuid)
      rw [same, choose_again matching] at again
      have applied := bootOrder_selected selects
      refine ⟨applied, ?_⟩
      rw [applied]
      exact ⟨_, again, rfl, rfl, rfl, rfl, rfl⟩

def loaderLine (number : String) : List Char :=
  "Boot".toList ++ number.toList ++ "* Homelab\tHD(1,GPT,".toList ++ efiUuid.toList ++ ",0x800,0x100000)/".toList ++
    "\\EFI\\Homelab\\grubx64.efi\n".toList

/-- A listing with two loaders on the partition, of which the second is in the order. -/
def twoLoaders : Surroundings where
  earlier := ["BootCurrent: 0002".toList]
  heading := "BootOrder: ".toList
  trailing := []
  rest := '\n' :: (loaderLine "0001" ++ loaderLine "000A")
  earlierLines := by decide +kernel
  headed := ⟨[' '], by decide +kernel, by decide⟩
  trailingBlank := by decide
  ended := .inr ⟨_, rfl⟩

def zero : BootNumber := { digits := ['0', '0', '0', '0'], four := rfl, hex := by decide }

def ten : BootNumber := { digits := ['0', '0', '0', 'a'], four := rfl, hex := by decide }

theorem two_loaders_verified : ∃ plan, bootPlan (twoLoaders.render (orderText [zero, ten, zero])) efiUuid = .ok plan ∧
    plan.bootOrder = "000A,0000,0000" ∧ ∃ again, bootPlan (twoLoaders.render "000A,0000,0000") efiUuid = .ok again ∧
      verify again = .ok () := by
  have canonical : canonicalUuid efiUuid = some efiUuid.toList := by decide +kernel
  have planned := (@bootPlan_orderText [zero, ten, zero] twoLoaders _ _ canonical (by simp)).2
  have matching : matchingAt efiUuid.toList (twoLoaders.text (orderText [zero, ten, zero]).toList) = ["0001", "000A"] := by
    decide +kernel
  have selects : (choose ["0001", "000A"] ([zero, ten, zero].map entryOf)).selectedEntry = some "000A" := by
    decide +kernel
  have order : "000A,0000,0000" = ",".intercalate ("000A" :: ([zero, ten, zero].map entryOf).filter (· ≠ "000A")) := by
    decide +kernel
  rw [matching] at planned
  obtain ⟨applied, again, replanned, _, _, _, _, accepted⟩ :=
    boot_order_verified twoLoaders [zero, ten, zero] (by simp) efiUuid _ "000A" planned selects
  rw [applied, ← order] at replanned
  exact ⟨_, planned, by rw [applied, ← order], again, replanned, accepted⟩

end Homelab.VerifyEfi
