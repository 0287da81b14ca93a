import Mathlib.Data.Option.Basic
import Homelab.Operators.Common

namespace Homelab.Base64

/-! # Canonical base64 text -/

/-- The letter of a group of six bits. -/
def letter (sextet : Nat) : Char :=
  if sextet < 26 then Char.ofNat (sextet + 'A'.toNat)
  else if sextet < 52 then Char.ofNat (sextet - 26 + 'a'.toNat)
  else if sextet < 62 then Char.ofNat (sextet - 52 + '0'.toNat)
  else if sextet = 62 then '+'
  else '/'

/-- Padded text, four letters for three bytes. -/
def encodeGroups : List UInt8 → List Char
  | [] => []
  | [first] => [letter (first.toNat / 4), letter (first.toNat % 4 * 16), '=', '=']
  | [first, second] =>
      [letter (first.toNat / 4), letter (first.toNat % 4 * 16 + second.toNat / 16), letter (second.toNat % 16 * 4), '=']
  | first :: second :: third :: rest =>
      letter (first.toNat / 4) :: letter (first.toNat % 4 * 16 + second.toNat / 16) ::
        letter (second.toNat % 16 * 4 + third.toNat / 64) :: letter (third.toNat % 64) :: encodeGroups rest

theorem sextet_letter {sextet' : Nat} (small : sextet' < 64) : sextet (letter sextet') = some sextet' := by
  have every : ∀ value < 64, sextet (letter value) = some value := by decide
  exact every sextet' small

theorem char_bounds {low high char : Char} : low ≤ char ∧ char ≤ high ↔ low.toNat ≤ char.toNat ∧ char.toNat ≤ high.toNat :=
  Iff.rfl

theorem letter_sextet {char : Char} {value : Nat} (found : sextet char = some value) :
    letter value = char ∧ value < 64 := by
  have restored : Char.ofNat char.toNat = char := Char.ofNat_toNat char
  unfold sextet at found
  split at found
  · rename_i upper
    cases found
    rw [char_bounds] at upper
    have first : 'A'.toNat = 65 := rfl
    have last : 'Z'.toNat = 90 := rfl
    have bound : char.toNat - 'A'.toNat < 26 := by omega
    have code : char.toNat - 'A'.toNat + 'A'.toNat = char.toNat := by omega
    rw [letter, if_pos bound, code]
    exact ⟨restored, by omega⟩
  · split at found
    · rename_i lower
      cases found
      rw [char_bounds] at lower
      have first : 'a'.toNat = 97 := rfl
      have last : 'z'.toNat = 122 := rfl
      have code : char.toNat - 'a'.toNat + 26 - 26 + 'a'.toNat = char.toNat := by omega
      rw [letter, if_neg (by omega), if_pos (by omega), code]
      exact ⟨restored, by omega⟩
    · split at found
      · rename_i digit
        cases found
        rw [Char.isDigit, Bool.and_eq_true, decide_eq_true_eq, decide_eq_true_eq] at digit
        have bounds : '0'.toNat ≤ char.toNat ∧ char.toNat ≤ '9'.toNat := digit
        have first : '0'.toNat = 48 := rfl
        have last : '9'.toNat = 57 := rfl
        have code : char.toNat - '0'.toNat + 52 - 52 + '0'.toNat = char.toNat := by omega
        rw [letter, if_neg (by omega), if_neg (by omega), if_pos (by omega), code]
        exact ⟨restored, by omega⟩
      · split at found
        · rename_i plus
          cases found
          exact ⟨plus.symm, by decide⟩
        · split at found
          · rename_i slash
            cases found
            exact ⟨slash.symm, by decide⟩
          · cases found

theorem byte_toNat {value : Nat} (small : value < 256) : (UInt8.ofNat value).toNat = value := by
  rw [UInt8.toNat_ofNat']
  exact Nat.mod_eq_of_lt small

/-- Only the encoding of the bytes decodes to them. -/
theorem encode_decode {text : List Char} {bytes : List UInt8} (decoded : decodeGroups text = some bytes) :
    encodeGroups bytes = text := by
  fun_induction decodeGroups text generalizing bytes with
  | case1 =>
      cases decoded
      rfl
  | case2 a b =>
      obtain ⟨high, isHigh, decoded⟩ := Option.bind_eq_some_iff.mp decoded
      obtain ⟨low, isLow, decoded⟩ := Option.bind_eq_some_iff.mp decoded
      obtain ⟨_, unused, decoded⟩ := Option.bind_eq_some_iff.mp decoded
      cases decoded
      obtain ⟨rfl, highSmall⟩ := letter_sextet isHigh
      obtain ⟨rfl, lowSmall⟩ := letter_sextet isLow
      have zero := (Option.guard_eq_some' _).mp unused
      rw [encodeGroups, byte_toNat (by omega)]
      have first : (high * 4 + low / 16) / 4 = high := by omega
      have second : (high * 4 + low / 16) % 4 * 16 = low := by omega
      rw [first, second]
  | case3 a b c distinct =>
      obtain ⟨high, isHigh, decoded⟩ := Option.bind_eq_some_iff.mp decoded
      obtain ⟨middle, isMiddle, decoded⟩ := Option.bind_eq_some_iff.mp decoded
      obtain ⟨low, isLow, decoded⟩ := Option.bind_eq_some_iff.mp decoded
      obtain ⟨_, unused, decoded⟩ := Option.bind_eq_some_iff.mp decoded
      cases decoded
      obtain ⟨rfl, highSmall⟩ := letter_sextet isHigh
      obtain ⟨rfl, middleSmall⟩ := letter_sextet isMiddle
      obtain ⟨rfl, lowSmall⟩ := letter_sextet isLow
      have zero := (Option.guard_eq_some' _).mp unused
      rw [encodeGroups, byte_toNat (by omega), byte_toNat (by omega)]
      have first : (high * 4 + middle / 16) / 4 = high := by omega
      have second : (high * 4 + middle / 16) % 4 * 16 + (middle % 16 * 16 + low / 4) / 16 = middle := by omega
      have third : (middle % 16 * 16 + low / 4) % 16 * 4 = low := by omega
      rw [first, second, third]
  | case4 a b c d rest _ _ ih =>
      obtain ⟨one, isOne, decoded⟩ := Option.bind_eq_some_iff.mp decoded
      obtain ⟨two, isTwo, decoded⟩ := Option.bind_eq_some_iff.mp decoded
      obtain ⟨three, isThree, decoded⟩ := Option.bind_eq_some_iff.mp decoded
      obtain ⟨four, isFour, decoded⟩ := Option.bind_eq_some_iff.mp decoded
      obtain ⟨tail, isTail, decoded⟩ := Option.bind_eq_some_iff.mp decoded
      cases decoded
      obtain ⟨rfl, oneSmall⟩ := letter_sextet isOne
      obtain ⟨rfl, twoSmall⟩ := letter_sextet isTwo
      obtain ⟨rfl, threeSmall⟩ := letter_sextet isThree
      obtain ⟨rfl, fourSmall⟩ := letter_sextet isFour
      rw [encodeGroups, byte_toNat (by omega), byte_toNat (by omega), byte_toNat (by omega), ih isTail]
      have first : (one * 4 + two / 16) / 4 = one := by omega
      have second : (one * 4 + two / 16) % 4 * 16 + (two % 16 * 16 + three / 4) / 16 = two := by omega
      have third : (two % 16 * 16 + three / 4) % 16 * 4 + (three % 4 * 64 + four) / 64 = three := by omega
      have last : (three % 4 * 64 + four) % 64 = four := by omega
      rw [first, second, third, last]
  | case5 => cases decoded

theorem letter_unpadded {sextet : Nat} (small : sextet < 64) : letter sextet ≠ '=' := by
  have every : ∀ value < 64, letter value ≠ '=' := by decide
  exact every sextet small

theorem decode_encode (bytes : List UInt8) : decodeGroups (encodeGroups bytes) = some bytes := by
  have small (byte : UInt8) : byte.toNat < 256 := byte.toNat_lt
  fun_induction encodeGroups bytes with
  | case1 => rfl
  | case2 first =>
      have bound := small first
      have zero : first.toNat % 4 * 16 % 16 = 0 := by omega
      have byte : first.toNat / 4 * 4 + first.toNat % 4 * 16 / 16 = first.toNat := by omega
      rw [decodeGroups, sextet_letter (by omega), sextet_letter (by omega)]
      simp only [Option.bind_eq_bind, Option.bind_some, zero, byte, UInt8.ofNat_toNat]
      rfl
  | case3 first second =>
      have bound := small first
      have bound' := small second
      have zero : second.toNat % 16 * 4 % 4 = 0 := by omega
      have byte : first.toNat / 4 * 4 + (first.toNat % 4 * 16 + second.toNat / 16) / 16 = first.toNat := by omega
      have byte' : (first.toNat % 4 * 16 + second.toNat / 16) % 16 * 16 + second.toNat % 16 * 4 / 4 = second.toNat := by
        omega
      rw [decodeGroups, sextet_letter (by omega), sextet_letter (by omega), sextet_letter (by omega)]
      · simp only [Option.bind_eq_bind, Option.bind_some, zero, byte, byte', UInt8.ofNat_toNat]
        rfl
      · exact letter_unpadded (by omega)
  | case4 first second third rest ih =>
      have bound := small first
      have bound' := small second
      have bound'' := small third
      have byte : first.toNat / 4 * 4 + (first.toNat % 4 * 16 + second.toNat / 16) / 16 = first.toNat := by omega
      have byte' : (first.toNat % 4 * 16 + second.toNat / 16) % 16 * 16 +
          (second.toNat % 16 * 4 + third.toNat / 64) / 4 = second.toNat := by omega
      have byte'' : (second.toNat % 16 * 4 + third.toNat / 64) % 4 * 64 + third.toNat % 64 = third.toNat := by omega
      rw [decodeGroups, sextet_letter (by omega), sextet_letter (by omega), sextet_letter (by omega),
        sextet_letter (by omega), ih]
      · simp only [Option.bind_eq_bind, Option.bind_some, byte, byte', byte'', UInt8.ofNat_toNat]
        rfl
      · intro _ same
        exact absurd same (letter_unpadded (by omega))
      · intro same
        exact absurd same (letter_unpadded (by omega))

/-- Different texts decode to different bytes. -/
theorem decode_inj {left right : String} {bytes : List UInt8} (first : decode left = some bytes)
    (second : decode right = some bytes) : left = right := by
  apply String.toList_inj.mp
  rw [← encode_decode first, ← encode_decode second]

theorem letter_range {sextet : Nat} (small : sextet < 64) : 43 ≤ (letter sextet).toNat ∧ (letter sextet).toNat ≤ 122 := by
  have every : ∀ value < 64, 43 ≤ (letter value).toNat ∧ (letter value).toNat ≤ 122 := by decide
  exact every sextet small

/-- Encoded text has letters and padding only. -/
theorem encodeGroups_range {bytes : List UInt8} {char : Char} (listed : char ∈ encodeGroups bytes) :
    43 ≤ char.toNat ∧ char.toNat ≤ 122 := by
  have pad : 43 ≤ '='.toNat ∧ '='.toNat ≤ 122 := by decide
  have small (byte : UInt8) : byte.toNat < 256 := byte.toNat_lt
  fun_induction encodeGroups bytes with
  | case1 => cases listed
  | case2 first =>
      have bound := small first
      simp only [List.mem_cons, List.not_mem_nil, or_false] at listed
      obtain rfl | rfl | rfl | rfl := listed
      · exact letter_range (by omega)
      · exact letter_range (by omega)
      · exact pad
      · exact pad
  | case3 first second =>
      have bound := small first
      have bound' := small second
      simp only [List.mem_cons, List.not_mem_nil, or_false] at listed
      obtain rfl | rfl | rfl | rfl := listed
      · exact letter_range (by omega)
      · exact letter_range (by omega)
      · exact letter_range (by omega)
      · exact pad
  | case4 first second third rest ih =>
      have bound := small first
      have bound' := small second
      have bound'' := small third
      simp only [List.mem_cons] at listed
      obtain rfl | rfl | rfl | rfl | later := listed
      · exact letter_range (by omega)
      · exact letter_range (by omega)
      · exact letter_range (by omega)
      · exact letter_range (by omega)
      · exact ih later

end Homelab.Base64
