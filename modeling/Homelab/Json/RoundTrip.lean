import Mathlib.Data.Option.Basic
import Homelab.Json.Text

namespace Json

/-! # Reading and writing fit together -/

/-! ## Reading what was written -/

theorem hexValue_digitChar : ∀ digit < 16, hexValue digit.digitChar = some digit := by decide

theorem readUnit_hexDigits {unit : Nat} (small : unit < 65536) (rest : List Char) :
    readUnit (hexDigits unit ++ rest) = some (unit, rest) := by
  have digits : ((unit / 4096 % 16 * 16 + unit / 256 % 16) * 16 + unit / 16 % 16) * 16 + unit % 16 = unit := by
    omega
  simp only [hexDigits, List.map_cons, List.map_nil, List.cons_append, List.nil_append, readUnit,
    hexValue_digitChar _ (Nat.mod_lt _ (by decide : 0 < 16)), Option.bind_eq_bind, Option.bind_some,
    Option.pure_def, digits]

theorem readChar_plain {char : Char} (notEscape : char ≠ '\\') (printable : ¬char < ' ') (rest : List Char) :
    readChar (char :: rest) = some (char, rest) := by
  cases rest with
  | nil => simp [readChar, notEscape, printable]
  | cons next rest => simp [readChar, notEscape, printable]

theorem escaped_of_find {char : Char} {escape : Char × Char}
    (found : shortEscapes.find? (fun escape => escape.2 == char) = some escape) (rest : List Char) :
    readChar ('\\' :: escape.1 :: rest) = some (char, rest) := by
  have isChar : escape.2 = char := by simpa using List.find?_some found
  have listed : escape ∈ shortEscapes := List.mem_of_find?_eq_some found
  subst isChar
  simp only [shortEscapes, List.mem_cons, List.not_mem_nil, or_false] at listed
  obtain rfl | rfl | rfl | rfl | rfl | rfl | rfl := listed <;> rfl

/-- Surrogates are no characters. -/
theorem char_bounds (char : Char) : char.toNat < 55296 ∨ 57344 ≤ char.toNat ∧ char.toNat < 1114112 := by
  have toNat : char.toNat = char.val.toNat := rfl
  obtain small | ⟨large, bounded⟩ := char.valid <;> omega

theorem readEscaped_unit {char : Char} (small : char.toNat < 65536) (rest : List Char) :
    readEscaped (hexDigits char.toNat ++ rest) = some (char, rest) := by
  have bounds := char_bounds char
  have notHigh : ¬(55296 ≤ char.toNat ∧ char.toNat < 56320) := by omega
  have scalar : char.toNat < 55296 ∨ 57344 ≤ char.toNat := by omega
  rw [readEscaped, readUnit_hexDigits small]
  simp only [Option.bind_eq_bind, Option.bind_some]
  rw [if_neg notHigh]
  rw [guard, if_pos scalar, Char.ofNat_toNat]
  rfl

theorem readEscaped_pair {high low : Nat} (isHigh : 55296 ≤ high ∧ high < 56320)
    (isLow : 56320 ≤ low ∧ low < 57344) (rest : List Char) :
    readEscaped (hexDigits high ++ (escapeUnit low ++ rest)) =
      some (Char.ofNat (65536 + (high - 55296) * 1024 + (low - 56320)), rest) := by
  rw [readEscaped, readUnit_hexDigits (by omega)]
  simp only [Option.bind_eq_bind, Option.bind_some]
  rw [if_pos isHigh]
  simp only [escapeUnit, List.cons_append]
  rw [readUnit_hexDigits (by omega)]
  rw [Option.bind_some, guard, if_pos isLow]
  rfl

theorem readEscaped_large {char : Char} (large : 65536 ≤ char.toNat) (rest : List Char) :
    readEscaped (hexDigits (55296 + (char.toNat - 65536) / 1024) ++
      (escapeUnit (56320 + (char.toNat - 65536) % 1024) ++ rest)) = some (char, rest) := by
  have bounds := char_bounds char
  have joined : 65536 + (55296 + (char.toNat - 65536) / 1024 - 55296) * 1024 +
      (56320 + (char.toNat - 65536) % 1024 - 56320) = char.toNat := by omega
  rw [readEscaped_pair (by omega) (by omega), joined, Char.ofNat_toNat]

theorem readChar_escapeChar (char : Char) (rest : List Char) :
    readChar (escapeChar char ++ rest) = some (char, rest) := by
  unfold escapeChar
  split
  · rename_i found
    exact escaped_of_find found rest
  · rename_i missing
    have notEscape : char ≠ '\\' := by
      intro same
      subst same
      cases missing
    split
    · rename_i printable
      exact readChar_plain notEscape (by simpa using printable.1) rest
    · split
      · rename_i small
        exact readEscaped_unit small rest
      · rename_i large
        rw [List.append_assoc]
        exact readEscaped_large (Nat.le_of_not_lt large) rest

theorem escapeChar_head (char : Char) : ∃ first more, escapeChar char = first :: more ∧ first ≠ '"' := by
  unfold escapeChar
  split
  · exact ⟨_, _, rfl, by decide⟩
  · rename_i missing
    split
    · refine ⟨_, _, rfl, ?_⟩
      intro same
      subst same
      cases missing
    · split
      · exact ⟨_, _, rfl, by decide⟩
      · exact ⟨_, _, rfl, by decide⟩

theorem readChars_next {fuel : Nat} {first : Char} (inside : first ≠ '"') (more : List Char) :
    readChars (fuel + 1) (first :: more) = do
      let (char, rest) ← readChar (first :: more)
      let (chars, rest) ← readChars fuel rest
      return (char :: chars, rest) := by
  rw [readChars]
  intro rest same
  exact inside (List.cons.inj same).1

theorem readChars_flatMap (rest : List Char) {chars : List Char} {fuel : Nat} (enough : chars.length < fuel) :
    readChars fuel (chars.flatMap escapeChar ++ '"' :: rest) = some (chars, rest) := by
  induction chars generalizing fuel with
  | nil =>
      cases fuel with
      | zero => cases enough
      | succ fuel => rfl
  | cons char chars ih =>
      cases fuel with
      | zero => cases enough
      | succ fuel =>
          obtain ⟨first, more, head, inside⟩ := escapeChar_head char
          have step := @readChars_next fuel first inside (more ++ (chars.flatMap escapeChar ++ '"' :: rest))
          rw [← List.cons_append, ← head, readChar_escapeChar] at step
          rw [List.flatMap_cons, List.append_assoc, step]
          simp only [Option.bind_eq_bind, Option.bind_some]
          rw [ih (Nat.lt_of_succ_lt_succ enough)]
          rfl

/-! ## Numbers -/

/-- Nothing that a number could go on with. -/
def Ended (rest : List Char) : Prop := ∀ char ∈ rest.head?, char.isDigit = false

theorem ended_cons {char : Char} {rest : List Char} (other : char.isDigit = false) : Ended (char :: rest) := by
  intro first head
  cases head
  exact other

theorem toDigits_head {value : Nat} (positive : 0 < value) : (Nat.toDigits 10 value).head? ≠ some '0' := by
  induction value using Nat.strong_induction_on with
  | _ value ih =>
      by_cases small : value < 10
      · rw [Nat.toDigits_of_lt_base small]
        simp only [List.head?_cons, ne_eq, Option.some.injEq, Nat.digitChar_eq_zero]
        omega
      · rw [Nat.toDigits_of_base_le (by decide) (Nat.le_of_not_lt small)]
        rw [List.head?_append_of_ne_nil _ Nat.toDigits_ne_nil]
        exact ih (value / 10) (by omega) (by omega)

theorem takeWhile_digits {digits rest : List Char} (all : ∀ char ∈ digits, char.isDigit = true) (ended : Ended rest) :
    (digits ++ rest).takeWhile Char.isDigit = digits ∧ (digits ++ rest).dropWhile Char.isDigit = rest := by
  rw [List.takeWhile_append_of_pos all, List.dropWhile_append_of_pos all]
  cases rest with
  | nil => simp
  | cons char rest => simp [ended char rfl]

theorem readNat_toDigits (value : Nat) {rest : List Char} (ended : Ended rest) :
    readNat (Nat.toDigits 10 value ++ rest) = some (value, rest) := by
  cases value with
  | zero => rfl
  | succ value =>
      have digits : ∀ char ∈ Nat.toDigits 10 (value + 1), char.isDigit = true :=
        fun char listed => Nat.isDigit_of_mem_toDigits (by decide) (by decide) listed
      obtain ⟨taken, dropped⟩ := takeWhile_digits digits ended
      have notZero := toDigits_head (Nat.succ_pos value)
      rw [readNat, taken, dropped, if_neg Nat.toDigits_ne_nil, Nat.ofDigitChars_ten_toDigits]
      intro more same
      rw [← @List.head?_append_of_ne_nil _ _ rest Nat.toDigits_ne_nil, same] at notZero
      exact notZero rfl

theorem readInt_writeInt (value : Int) {rest : List Char} (ended : Ended rest) :
    readInt (writeInt value ++ rest) = some (.int value, rest) := by
  cases value with
  | ofNat value =>
      rw [writeInt, readInt, readNat_toDigits value ended]
      · rfl
      · intro more same
        have first : '-' ∈ Nat.toDigits 10 value := by
          cases digits : Nat.toDigits 10 value with
          | nil => exact absurd digits Nat.toDigits_ne_nil
          | cons digit digits' =>
              rw [digits] at same
              rw [(List.cons.inj same).1]
              exact List.mem_cons_self
        exact absurd (Nat.isDigit_of_mem_toDigits (by decide) (by decide) first) (by decide)
  | negSucc value =>
      rw [writeInt, List.cons_append, readInt, readNat_toDigits (value + 1) ended]
      rfl

/-! ## Documents -/

theorem skipSpace_cons {char : Char} (solid : isSpace char = false) (rest : List Char) :
    skipSpace (char :: rest) = char :: rest := by
  simp [skipSpace, solid]

theorem digit_solid {char : Char} (digit : char.isDigit = true) :
    isSpace char = false ∧ char ∉ [']', '"', '[', '{', 'n', 't', 'f'] := by
  constructor
  · rw [isSpace]
    by_contra space
    simp only [Bool.not_eq_false, Bool.or_eq_true, beq_iff_eq] at space
    obtain ((rfl | rfl) | rfl) | rfl := space <;> cases digit
  · intro listed
    simp only [List.mem_cons, List.not_mem_nil, or_false] at listed
    obtain rfl | rfl | rfl | rfl | rfl | rfl | rfl := listed <;> cases digit

theorem writeInt_head (value : Int) : ∃ first more, writeInt value = first :: more ∧
    isSpace first = false ∧ first ∉ [']', '"', '[', '{', 'n', 't', 'f'] := by
  cases value with
  | ofNat value =>
      rw [writeInt]
      cases digits : Nat.toDigits 10 value with
      | nil => exact absurd digits Nat.toDigits_ne_nil
      | cons digit more =>
          have listed : digit ∈ Nat.toDigits 10 value := by
            rw [digits]
            exact List.mem_cons_self
          exact ⟨digit, more, rfl, digit_solid (Nat.isDigit_of_mem_toDigits (by decide) (by decide) listed)⟩
  | negSucc value => exact ⟨_, _, rfl, rfl, by decide⟩

/-- The text of a document starts with neither a space nor the end of an array. -/
theorem write_head (value : Json) : ∃ first more, write value = first :: more ∧
    isSpace first = false ∧ first ≠ ']' := by
  cases value with
  | null => exact ⟨_, _, rfl, rfl, by decide⟩
  | bool value => cases value <;> exact ⟨_, _, rfl, rfl, by decide⟩
  | int value =>
      obtain ⟨first, more, text, solid, other⟩ := writeInt_head value
      exact ⟨first, more, by rw [write, text], solid, fun same => other (by simp [same])⟩
  | str value => exact ⟨_, _, rfl, rfl, by decide⟩
  | arr items => cases items <;> exact ⟨_, _, rfl, rfl, by decide⟩
  | obj fields =>
      cases fields with
      | nil => exact ⟨_, _, rfl, rfl, by decide⟩
      | cons entry rest => exact ⟨_, _, rfl, rfl, by decide⟩

theorem skipSpace_write (value : Json) (rest : List Char) : skipSpace (write value ++ rest) = write value ++ rest := by
  obtain ⟨first, more, text, solid, -⟩ := write_head value
  rw [text, List.cons_append, skipSpace_cons solid]


theorem readValue_int {fuel : Nat} {first : Char} {more : List Char}
    (other : first ∉ [']', '"', '[', '{', 'n', 't', 'f']) :
    readValue (fuel + 1) (first :: more) = readInt (first :: more) := by
  simp only [List.mem_cons, List.not_mem_nil, or_false, not_or] at other
  obtain ⟨-, notText, notArray, notObject, notNull, notTrue, notFalse⟩ := other
  rw [readValue]
  · intro rest same
    exact notText (List.cons.inj same).1
  · intro rest same
    exact notArray (List.cons.inj same).1
  · intro rest same
    exact notObject (List.cons.inj same).1
  · intro rest same
    exact notNull (List.cons.inj same).1
  · intro rest same
    exact notTrue (List.cons.inj same).1
  · intro rest same
    exact notFalse (List.cons.inj same).1

/-- With two units of fuel for each character, the reader returns what was written. -/
def ReadsBack (value : Json) : Prop := ∀ (fuel : Nat) (rest : List Char), Ended rest →
  2 * (write value).length ≤ fuel → readValue fuel (write value ++ rest) = some (value, rest)

theorem reads_int (value : Int) : ReadsBack (.int value) := by
  intro fuel rest ended enough
  obtain ⟨first, more, text, -, other⟩ := writeInt_head value
  rw [write, text, List.length_cons] at enough
  cases fuel with
  | zero => omega
  | succ fuel =>
      rw [write, text, List.cons_append, readValue_int other, ← List.cons_append, ← text]
      exact readInt_writeInt value ended

theorem readChars_quote (key : String) (fuel : Nat) (rest : List Char) (enough : (quote key).length ≤ fuel) :
    readChars fuel (key.toList.flatMap escapeChar ++ '"' :: rest) = some (key.toList, rest) := by
  apply readChars_flatMap
  have longer : key.toList.length ≤ (key.toList.flatMap escapeChar).length := by
    induction key.toList with
    | nil => exact Nat.le_refl _
    | cons char rest ih =>
        obtain ⟨first, more, text, -⟩ := escapeChar_head char
        simp only [List.flatMap_cons, text, List.length_append, List.length_cons]
        omega
  simp only [quote, List.length_cons, List.length_append] at enough
  omega

theorem reads_str (value : String) : ReadsBack (.str value) := by
  intro fuel rest ended enough
  rw [write] at enough
  have opened : 0 < (quote value).length := by simp [quote]
  cases fuel with
  | zero => omega
  | succ fuel =>
      have inside := readChars_quote value fuel rest (by omega)
      simp only [write, quote, List.cons_append, List.append_assoc, List.nil_append, readValue, inside]
      simp

theorem readItems_writeItems {items : List Json} (each : ∀ item ∈ items, ReadsBack item) (fuel : Nat)
    (rest : List Char) : ∀ {item : Json}, ReadsBack item →
      2 * ((write item).length + (writeItems items).length) + 1 ≤ fuel →
      readItems fuel (write item ++ (writeItems items ++ rest)) = some (item :: items, rest) := by
  induction items generalizing fuel with
  | nil =>
      intro item reads enough
      cases fuel with
      | zero => omega
      | succ fuel =>
          have first := reads fuel (']' :: rest) (ended_cons rfl) (by omega)
          simp only [writeItems, List.cons_append, List.nil_append, readItems, first]
          rfl
  | cons next items ih =>
      intro item reads enough
      cases fuel with
      | zero => omega
      | succ fuel =>
          simp only [writeItems, List.length_cons, List.length_append] at enough
          have first := reads fuel (',' :: ' ' :: (write next ++ (writeItems items ++ rest)))
            (ended_cons rfl) (by omega)
          have others := ih (fun item listed => each item (List.mem_cons_of_mem _ listed)) fuel
            (each next List.mem_cons_self) (by omega)
          have spaced : skipSpace (' ' :: (write next ++ (writeItems items ++ rest))) =
              write next ++ (writeItems items ++ rest) := skipSpace_write next _
          simp only [writeItems, List.cons_append, List.append_assoc, readItems, first, Option.bind_eq_bind,
            Option.bind_some, skipSpace_cons (by decide : isSpace ',' = false), spaced, others]
          rfl

theorem reads_arr {items : List Json} (each : ∀ item ∈ items, ReadsBack item) : ReadsBack (.arr items) := by
  intro fuel rest ended enough
  cases items with
  | nil =>
      cases fuel with
      | zero => simp [write] at enough
      | succ fuel => rfl
  | cons item items =>
      simp only [write, List.length_cons, List.length_append] at enough
      cases fuel with
      | zero => omega
      | succ fuel =>
          have inside := readItems_writeItems (fun item listed => each item (List.mem_cons_of_mem _ listed))
            fuel rest (each item List.mem_cons_self) (by omega)
          obtain ⟨first, more, text, -, notEnd⟩ := write_head item
          have spaced := skipSpace_write item (writeItems items ++ rest)
          rw [text, List.cons_append] at inside spaced
          simp only [write, text, List.cons_append, List.append_assoc, readValue, spaced]
          split
          · rename_i same
            exact absurd (List.cons.inj same).1 notEnd
          · rw [inside]
            rfl


theorem Object.set_absent {fields : Object} {key : String} (absent : key ∉ fields.map Prod.fst) (value : Json) :
    fields.set key value = fields ++ [(key, value)] := by
  induction fields with
  | nil => rfl
  | cons entry rest ih =>
      obtain ⟨name, old⟩ := entry
      simp only [List.map_cons, List.mem_cons, not_or] at absent
      rw [Object.set, if_neg (Ne.symm absent.1), ih absent.2, List.cons_append]

theorem readFields_writeFields {fields : Object} (each : ∀ entry ∈ fields, ReadsBack entry.2) (fuel : Nat)
    (rest : List Char) : ∀ (known : Object) (key : String) {value : Json}, ReadsBack value →
      ((known ++ (key, value) :: fields).map Prod.fst).Nodup →
      2 * ((quote key).length + (write value).length + (writeFields fields).length) + 1 ≤ fuel →
      readFields fuel known (quote key ++ ':' :: ' ' :: (write value ++ (writeFields fields ++ rest))) =
        some (known ++ (key, value) :: fields, rest) := by
  induction fields generalizing fuel with
  | nil =>
      intro known key value reads distinct enough
      cases fuel with
      | zero => omega
      | succ fuel =>
          have named := readChars_quote key fuel (':' :: ' ' :: (write value ++ '}' :: rest)) (by omega)
          have spaced : skipSpace (' ' :: (write value ++ '}' :: rest)) = write value ++ '}' :: rest :=
            skipSpace_write value _
          have first := reads fuel ('}' :: rest) (ended_cons rfl) (by omega)
          have absent : key ∉ known.map Prod.fst := by
            simp only [List.map_append, List.map_cons, List.map_nil] at distinct
            exact fun listed => List.disjoint_of_nodup_append distinct listed List.mem_cons_self
          simp only [writeFields, quote, List.cons_append, List.append_assoc, List.nil_append, readFields, named,
            Option.bind_eq_bind, Option.bind_some, skipSpace_cons (by decide : isSpace ':' = false), spaced, first,
            skipSpace_cons (by decide : isSpace '}' = false), String.ofList_toList, Object.set_absent absent]
          rfl
  | cons entry fields ih =>
      obtain ⟨next, following⟩ := entry
      intro known key value reads distinct enough
      cases fuel with
      | zero => omega
      | succ fuel =>
          simp only [writeFields, List.length_cons, List.length_append] at enough
          have absent : key ∉ known.map Prod.fst := by
            simp only [List.map_append, List.map_cons] at distinct
            exact fun listed => List.disjoint_of_nodup_append distinct listed List.mem_cons_self
          have moved : known ++ (key, value) :: (next, following) :: fields =
              (known ++ [(key, value)]) ++ (next, following) :: fields := by simp
          rw [moved] at distinct
          have others := ih (fun entry listed => each entry (List.mem_cons_of_mem _ listed)) fuel
            (known ++ [(key, value)]) next (each (next, following) List.mem_cons_self) distinct
            (by show 2 * (_ + (write following).length + _) + 1 ≤ fuel; omega)
          generalize text : quote next ++ ':' :: ' ' :: (write following ++ (writeFields fields ++ rest)) = later at others
          have laterSolid : skipSpace (' ' :: later) = later := by
            rw [← text]
            rfl
          have named := readChars_quote key fuel (':' :: ' ' :: (write value ++ ',' :: ' ' :: later)) (by omega)
          have spaced : skipSpace (' ' :: (write value ++ ',' :: ' ' :: later)) = write value ++ ',' :: ' ' :: later :=
            skipSpace_write value _
          have first := reads fuel (',' :: ' ' :: later) (ended_cons rfl) (by omega)
          have shape : writeFields ((next, following) :: fields) ++ rest = ',' :: ' ' :: later := by
            rw [← text]
            simp only [writeFields, List.cons_append, List.append_assoc]
          rw [shape, moved, ← others]
          simp only [quote, List.cons_append, List.append_assoc, List.nil_append, readFields, named,
            Option.bind_eq_bind, Option.bind_some, skipSpace_cons (by decide : isSpace ':' = false), spaced, first,
            skipSpace_cons (by decide : isSpace ',' = false), laterSolid, String.ofList_toList,
            Object.set_absent absent]

theorem reads_obj {fields : Object} (distinct : (fields.map Prod.fst).Nodup)
    (each : ∀ entry ∈ fields, ReadsBack entry.2) : ReadsBack (.obj fields) := by
  intro fuel rest ended enough
  cases fields with
  | nil =>
      cases fuel with
      | zero => simp [write] at enough
      | succ fuel => rfl
  | cons entry fields =>
      obtain ⟨key, value⟩ := entry
      simp only [write, List.length_cons, List.length_append] at enough
      cases fuel with
      | zero => omega
      | succ fuel =>
          have inside := readFields_writeFields (fun entry listed => each entry (List.mem_cons_of_mem _ listed))
            fuel rest [] key (each (key, value) List.mem_cons_self) distinct
            (by show 2 * (_ + (write value).length + _) + 1 ≤ fuel; omega)
          simp only [quote, List.cons_append, List.append_assoc, List.nil_append] at inside
          simp only [write, quote, List.cons_append, List.append_assoc, List.nil_append, readValue,
            skipSpace_cons (by decide : isSpace '"' = false)]
          split
          · rename_i same
            exact absurd (List.cons.inj same).1 (by decide)
          · rw [inside]
            rfl

mutual
theorem reads_distinct : ∀ value : Json, Distinct value → ReadsBack value
  | .null, _ => by
      intro fuel rest _ enough
      cases fuel with
      | zero => simp [write] at enough
      | succ fuel => rfl
  | .bool value, _ => by
      intro fuel rest _ enough
      cases fuel with
      | zero => cases value <;> simp [write] at enough
      | succ fuel => cases value <;> rfl
  | .int value, _ => reads_int value
  | .str value, _ => reads_str value
  | .arr items, distinct => reads_arr (items_reads items distinct)
  | .obj fields, distinct => reads_obj distinct.1 (fields_reads fields distinct.2)

theorem items_reads : ∀ items : List Json, DistinctItems items → ∀ item ∈ items, ReadsBack item
  | [], _ => fun _ listed => nomatch listed
  | first :: rest, distinct => fun item listed => by
      cases List.mem_cons.mp listed with
      | inl same =>
          rw [same]
          exact reads_distinct first distinct.1
      | inr later => exact items_reads rest distinct.2 item later

theorem fields_reads : ∀ fields : Object, DistinctFields fields → ∀ entry ∈ fields, ReadsBack entry.2
  | [], _ => fun _ listed => nomatch listed
  | (key, value) :: rest, distinct => fun entry listed => by
      cases List.mem_cons.mp listed with
      | inl same =>
          rw [same]
          exact reads_distinct value distinct.1
      | inr later => exact fields_reads rest distinct.2 entry later
end

theorem loads_dumps (document : Json) : loads (dumps document) = some document.canonical := by
  have enough : 2 * (write document.canonical).length ≤ 2 * (write document.canonical).length + 2 := by omega
  have ended : Ended [] := by
    intro char head
    cases head
  have reads := reads_distinct _ (canonical_distinct document) _ [] ended enough
  rw [loads, dumps, String.toList_ofList]
  have spaced := skipSpace_write document.canonical []
  rw [List.append_nil] at reads spaced
  rw [spaced, reads]
  rfl

/-- Documents are written alike when they are equal, and only then. -/
theorem dumps_eq_iff {left right : Json} : dumps left = dumps right ↔ Same left right := by
  constructor
  · intro same
    have read := congrArg loads same
    rw [loads_dumps, loads_dumps] at read
    exact Option.some.inj read
  · intro same
    rw [dumps, dumps, same]

theorem dumps_ne_empty (document : Json) : dumps document ≠ "" := by
  obtain ⟨first, more, text, -⟩ := write_head document.canonical
  intro empty
  have characters := congrArg String.toList empty
  rw [dumps, String.toList_ofList, text] at characters
  cases characters


/-! ## Enough fuel -/

theorem readUnit_shorter {text rest : List Char} {unit : Nat} (read : readUnit text = some (unit, rest)) :
    rest.length < text.length := by
  match text with
  | [] | [_] | [_, _] | [_, _, _] => cases read
  | first :: second :: third :: fourth :: more =>
      simp only [readUnit, Option.bind_eq_bind, Option.bind_eq_some_iff, Option.pure_def, Option.some.injEq,
        Prod.mk.injEq] at read
      obtain ⟨_, _, _, _, _, _, _, _, _, rfl⟩ := read
      simp only [List.length_cons]
      omega

theorem readEscaped_shorter {text rest : List Char} {char : Char} (read : readEscaped text = some (char, rest)) :
    rest.length < text.length := by
  simp only [readEscaped, Option.bind_eq_bind, Option.bind_eq_some_iff] at read
  obtain ⟨⟨unit, after⟩, first, read⟩ := read
  have shorter := readUnit_shorter first
  split at read
  · split at read
    · rename_i followed
      obtain ⟨⟨second, last⟩, later, read⟩ := Option.bind_eq_some_iff.mp read
      obtain ⟨_, _, read⟩ := Option.bind_eq_some_iff.mp read
      have ended := (Prod.mk.inj (Option.some.inj read)).2
      rw [← ended]
      have fewer := readUnit_shorter later
      have opened := congrArg List.length followed
      simp only [List.length_cons] at opened
      show last.length < text.length
      omega
    · cases read
  · obtain ⟨_, _, read⟩ := Option.bind_eq_some_iff.mp read
    cases read
    exact shorter

theorem readChar_shorter {text rest : List Char} {char : Char} (read : readChar text = some (char, rest)) :
    rest.length < text.length := by
  unfold readChar at read
  split at read
  · split at read
    · have shorter := readEscaped_shorter read
      simp only [List.length_cons]
      omega
    · split at read
      · cases read
        simp only [List.length_cons]
        omega
      · obtain ⟨escape, _, same⟩ := Option.map_eq_some_iff.mp read
        cases same
        simp only [List.length_cons]
        omega
  · split at read
    · cases read
    · cases read
      simp
  · cases read

theorem readChars_shorter {fuel : Nat} {text rest chars : List Char}
    (read : readChars fuel text = some (chars, rest)) : rest.length < text.length := by
  induction fuel generalizing text chars with
  | zero => cases read
  | succ fuel ih =>
      unfold readChars at read
      split at read
      · rename_i same
        cases same
      · cases read
        simp
      · rename_i same _
        cases same
        simp only [Option.bind_eq_bind, Option.bind_eq_some_iff, Option.pure_def, Option.some.injEq,
          Prod.mk.injEq] at read
        obtain ⟨⟨char, after⟩, first, ⟨others, last⟩, later, _, rfl⟩ := read
        exact Nat.lt_trans (ih later) (readChar_shorter first)

theorem readNat_shorter {text rest : List Char} {value : Nat} (read : readNat text = some (value, rest)) :
    rest.length < text.length := by
  unfold readNat at read
  split at read
  · cases read
    simp
  · split at read
    · cases read
    · rename_i digits
      cases read
      have whole := congrArg List.length (List.takeWhile_append_dropWhile (p := Char.isDigit) (l := text))
      have some := List.length_pos_of_ne_nil digits
      rw [List.length_append] at whole
      omega

theorem readInt_shorter {text rest : List Char} {value : Json} (read : readInt text = some (value, rest)) :
    rest.length < text.length := by
  unfold readInt at read
  split at read
  all_goals
    simp only [Option.bind_eq_bind, Option.bind_eq_some_iff, Option.pure_def, Option.some.injEq,
      Prod.mk.injEq] at read
    obtain ⟨⟨number, after⟩, first, _, rfl⟩ := read
    have shorter := readNat_shorter first
  · exact Nat.lt_succ_of_lt shorter
  · exact shorter

theorem skipSpace_le (text : List Char) : (skipSpace text).length ≤ text.length :=
  (List.dropWhile_sublist _).length_le

/-- What the three readers leave is shorter than what they were given. -/
theorem readers_shorter (fuel : Nat) :
    (∀ {text rest value}, readValue fuel text = some (value, rest) → rest.length < text.length) ∧
    (∀ {text rest items}, readItems fuel text = some (items, rest) → rest.length < text.length) ∧
    (∀ {fields text rest read}, readFields fuel fields text = some (read, rest) → rest.length < text.length) := by
  induction fuel with
  | zero =>
      refine ⟨?_, ?_, ?_⟩
      · intro text rest value read
        cases read
      · intro text rest items read
        cases read
      · intro fields text rest value read
        cases read
  | succ fuel ih =>
      obtain ⟨values, items, fields⟩ := ih
      refine ⟨?_, ?_, ?_⟩
      · intro text rest value read
        unfold readValue at read
        split at read
        · simp only [Option.bind_eq_bind, Option.bind_eq_some_iff, Option.pure_def, Option.some.injEq,
            Prod.mk.injEq] at read
          obtain ⟨⟨chars, after⟩, first, _, rfl⟩ := read
          exact Nat.lt_succ_of_lt (readChars_shorter first)
        · rename_i inside
          have spaced := skipSpace_le inside
          split at read
          · rename_i closed
            cases read
            rw [closed] at spaced
            exact Nat.lt_of_lt_of_le (Nat.lt_succ_self _) (Nat.le_succ_of_le spaced)
          · simp only [Option.bind_eq_bind, Option.bind_eq_some_iff, Option.pure_def, Option.some.injEq,
              Prod.mk.injEq] at read
            obtain ⟨⟨listed, after⟩, first, _, rfl⟩ := read
            exact Nat.lt_succ_of_lt (Nat.lt_of_lt_of_le (items first) spaced)
        · rename_i inside
          have spaced := skipSpace_le inside
          split at read
          · rename_i closed
            cases read
            rw [closed] at spaced
            exact Nat.lt_of_lt_of_le (Nat.lt_succ_self _) (Nat.le_succ_of_le spaced)
          · simp only [Option.bind_eq_bind, Option.bind_eq_some_iff, Option.pure_def, Option.some.injEq,
              Prod.mk.injEq] at read
            obtain ⟨⟨listed, after⟩, first, _, rfl⟩ := read
            exact Nat.lt_succ_of_lt (Nat.lt_of_lt_of_le (fields first) spaced)
        · cases read
          simp only [List.length_cons]
          omega
        · cases read
          simp only [List.length_cons]
          omega
        · cases read
          simp only [List.length_cons]
          omega
        · exact readInt_shorter read
      · intro text rest listed read
        simp only [readItems, Option.bind_eq_bind, Option.bind_eq_some_iff] at read
        obtain ⟨⟨item, after⟩, first, read⟩ := read
        have shorter := values first
        have spaced := skipSpace_le after
        split at read
        · rename_i following comma
          simp only [Option.bind_eq_some_iff, Option.pure_def, Option.some.injEq, Prod.mk.injEq] at read
          obtain ⟨⟨others, last⟩, later, _, rfl⟩ := read
          have fewer := items later
          have spaced' := skipSpace_le following
          rw [comma, List.length_cons] at spaced
          show last.length < text.length
          omega
        · rename_i closed
          cases read
          rw [closed, List.length_cons] at spaced
          omega
        · cases read
      · intro known text rest listed read
        unfold readFields at read
        split at read
        · rename_i same
          cases same
        · rename_i same
          cases same
          simp only [Option.bind_eq_bind, Option.bind_eq_some_iff] at read
          obtain ⟨⟨key, after⟩, first, read⟩ := read
          have named := readChars_shorter first
          have spaced := skipSpace_le after
          split at read
          · rename_i beforeValue colon
            obtain ⟨⟨value, afterValue⟩, second, read⟩ := Option.bind_eq_some_iff.mp read
            have valued := values second
            have spacedValue := skipSpace_le beforeValue
            have spacedAfter := skipSpace_le afterValue
            rw [colon, List.length_cons] at spaced
            split at read
            · rename_i following comma
              have fewer := fields read
              have spacedNext := skipSpace_le following
              rw [comma, List.length_cons] at spacedAfter
              simp only [List.length_cons]
              omega
            · rename_i closed
              cases read
              rw [closed, List.length_cons] at spacedAfter
              simp only [List.length_cons]
              omega
            · cases read
          · cases read
        · cases read

/-- More fuel than two units for each character changes nothing. -/
theorem readChars_enough {fuel : Nat} (more : Nat) {text : List Char} (enough : text.length ≤ fuel)
    (ample : text.length ≤ more) : readChars fuel text = readChars more text := by
  induction fuel generalizing more text with
  | zero =>
      have empty : text = [] := List.eq_nil_of_length_eq_zero (by omega)
      subst empty
      cases more <;> rfl
  | succ fuel ih =>
      cases text with
      | nil => cases more <;> rfl
      | cons char rest =>
          cases more with
          | zero => simp at ample
          | succ more =>
              by_cases closed : char = '"'
              · subst closed
                rfl
              · rw [readChars_next closed, readChars_next closed]
                cases read : readChar (char :: rest) with
                | none => rfl
                | some found =>
                    obtain ⟨first, after⟩ := found
                    have shorter := readChar_shorter read
                    simp only [List.length_cons] at enough ample shorter
                    simp only [Option.bind_eq_bind, Option.bind_some]
                    rw [ih more (by omega) (by omega)]

theorem readers_enough (fuel : Nat) :
    (∀ more {text}, 2 * text.length ≤ fuel → 2 * text.length ≤ more → readValue fuel text = readValue more text) ∧
    (∀ more {text}, 2 * text.length + 1 ≤ fuel → 2 * text.length + 1 ≤ more →
      readItems fuel text = readItems more text) ∧
    (∀ more {fields text}, 2 * text.length + 1 ≤ fuel → 2 * text.length + 1 ≤ more →
      readFields fuel fields text = readFields more fields text) := by
  induction fuel with
  | zero =>
      refine ⟨?_, ?_, ?_⟩
      · intro more text enough ample
        have empty : text = [] := List.eq_nil_of_length_eq_zero (by omega)
        subst empty
        cases more <;> rfl
      · intro more text enough
        omega
      · intro more fields text enough
        omega
  | succ fuel ih =>
      obtain ⟨values, items, fields⟩ := ih
      refine ⟨?_, ?_, ?_⟩
      · intro more text enough ample
        cases more with
        | zero =>
            have empty : text = [] := List.eq_nil_of_length_eq_zero (by omega)
            subst empty
            rfl
        | succ more =>
            unfold readValue
            split
            · rename_i inside
              simp only [List.length_cons] at enough ample
              rw [readChars_enough more (by omega) (by omega)]
            · rename_i inside
              have spaced := skipSpace_le inside
              simp only [List.length_cons] at enough ample
              split
              · rfl
              · rw [items more (by omega) (by omega)]
            · rename_i inside
              have spaced := skipSpace_le inside
              simp only [List.length_cons] at enough ample
              split
              · rfl
              · rw [fields more (by omega) (by omega)]
            · rfl
            · rfl
            · rfl
            · rfl
      · intro more text enough ample
        cases more with
        | zero => omega
        | succ more =>
            simp only [readItems]
            rw [values more (by omega) (by omega)]
            cases read : readValue more text with
            | none => rfl
            | some found =>
                obtain ⟨item, after⟩ := found
                have shorter := (readers_shorter more).1 read
                have spaced := skipSpace_le after
                simp only [Option.bind_eq_bind, Option.bind_some]
                split
                · rename_i following comma
                  have spacedNext := skipSpace_le following
                  rw [comma, List.length_cons] at spaced
                  rw [items more (by omega) (by omega)]
                · rfl
                · rfl
      · intro more known text enough ample
        cases more with
        | zero => omega
        | succ more =>
            unfold readFields
            split
            · rename_i same
              cases same
            · rename_i text same
              cases same
              simp only [List.length_cons] at enough ample
              rw [readChars_enough more (by omega) (by omega)]
              cases read : readChars more text with
              | none => rfl
              | some found =>
                  obtain ⟨key, after⟩ := found
                  have named := readChars_shorter read
                  have spaced := skipSpace_le after
                  simp only [Option.bind_eq_bind, Option.bind_some]
                  split
                  · rename_i beforeValue colon
                    have spacedValue := skipSpace_le beforeValue
                    rw [colon, List.length_cons] at spaced
                    rw [values more (by omega) (by omega)]
                    cases valued : readValue more (skipSpace beforeValue) with
                    | none => rfl
                    | some found =>
                        obtain ⟨value, afterValue⟩ := found
                        have shorter := (readers_shorter more).1 valued
                        have spacedAfter := skipSpace_le afterValue
                        simp only [Option.bind_some]
                        split
                        · rename_i following comma
                          have spacedNext := skipSpace_le following
                          rw [comma, List.length_cons] at spacedAfter
                          exact fields more (by omega) (by omega)
                        · rfl
                        · rfl
                  · rfl
            · rfl

/-- The fuel never decides whether a text is read. -/
theorem loads_enough (text : String) {fuel : Nat} (enough : 2 * text.toList.length ≤ fuel) :
    loads text = (readValue fuel (skipSpace text.toList)).bind fun found =>
      if skipSpace found.2 = [] then some found.1 else none := by
  have spaced := skipSpace_le text.toList
  rw [loads, (readers_enough fuel).1 (2 * text.toList.length + 2) (by omega) (by omega)]
  cases readValue (2 * text.toList.length + 2) (skipSpace text.toList) with
  | none => rfl
  | some found =>
      obtain ⟨document, rest⟩ := found
      simp only [Option.bind_eq_bind, Option.bind_some, guard]
      split <;> rfl

end Json
