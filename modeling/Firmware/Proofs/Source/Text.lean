import Firmware.Sketch.Output
import Firmware.Source.Stream

/-! # Sources that hold a text

The bytes of a text are read back as the text. In UTF-8 the byte that ends a line
encodes the newline and is part of no other character, so a text without newlines is
one line. -/

namespace Firmware

theorem isDigit_of_mem_repr {value : Nat} {character : Char}
    (member : character ∈ value.repr.toList) : character.isDigit = true := by
  rw [Nat.toList_repr] at member
  exact Nat.isDigit_of_mem_toDigits (by decide) (by decide) member

theorem toList_toString_negSucc (magnitude : Nat) :
    (toString (Int.negSucc magnitude)).toList = '-' :: (magnitude + 1).repr.toList := by
  simp [toString, Int.repr]

theorem isDigit_or_eq_minus_of_mem_toString {value : Int} {character : Char}
    (member : character ∈ (toString value).toList) :
    character.isDigit = true ∨ character = '-' := by
  cases value with
  | ofNat magnitude => exact .inl (isDigit_of_mem_repr member)
  | negSucc magnitude =>
      rw [toList_toString_negSucc] at member
      rcases List.mem_cons.mp member with minus | digit
      · exact .inr minus
      · exact .inl (isDigit_of_mem_repr digit)

/-- A numeral holds nothing but digits and a sign. -/
theorem not_mem_toString {mark : Char} (noDigit : ¬ mark.isDigit = true) (noMinus : mark ≠ '-')
    (value : Int) : mark ∉ (toString value).toList := by
  intro member
  rcases isDigit_or_eq_minus_of_mem_toString member with digit | minus
  · exact noDigit digit
  · exact noMinus minus

/-! ## The bytes of a text -/

theorem toList_loop_eq_append_drop (bytes : ByteArray) (index : Nat) (reversed : List UInt8) :
    ByteArray.toList.loop bytes index reversed =
      reversed.reverse ++ bytes.data.toList.drop index := by
  fun_induction ByteArray.toList.loop bytes index reversed with
  | case1 index reversed inside induction =>
      have bound : index < bytes.data.toList.length := by simpa using inside
      have read : bytes.get! index = bytes.data.toList[index] := by
        simp [ByteArray.get!, getElem!_pos bytes.data index inside]
      rw [induction, List.drop_eq_getElem_cons bound, read]
      simp
  | case2 index reversed outside =>
      have beyond : bytes.data.toList.length ≤ index := by simpa using outside
      rw [List.drop_eq_nil_of_le beyond, List.append_nil]

theorem utf8_eq_data (text : String) : utf8 text = text.toUTF8.data.toList := by
  simp [utf8, ByteArray.toList, toList_loop_eq_append_drop]

theorem utf8_eq_flatMap (text : String) :
    utf8 text = text.toList.flatMap String.utf8EncodeChar := by
  rw [utf8_eq_data, String.toUTF8_eq_toByteArray, ← String.utf8Encode_toList]
  exact List.toList_data_toByteArray

/-- A byte of ASCII encodes its own character and is part of no other. -/
theorem toNat_eq_of_mem_utf8EncodeChar {character : Char} {byte : UInt8}
    (ascii : byte.toNat < 128) (member : byte ∈ String.utf8EncodeChar character) :
    character.toNat = byte.toNat := by
  have value : character.val.toNat = character.toNat := rfl
  unfold String.utf8EncodeChar at member
  dsimp only at member
  -- Every byte of a longer encoding has its highest bit set.
  split at member
  · simp [← UInt8.toNat_inj] at member
    omega
  · split at member
    · simp [← UInt8.toNat_inj] at member
      omega
    · split at member
      · simp [← UInt8.toNat_inj] at member
        omega
      · simp [← UInt8.toNat_inj] at member
        omega

theorem eq_newline_of_mem_utf8EncodeChar {character : Char}
    (member : Line.lineFeed ∈ String.utf8EncodeChar character) : character = '\n' := by
  have code : character.toNat = 10 := toNat_eq_of_mem_utf8EncodeChar (by decide) member
  exact Char.ext (UInt32.toNat_inj.mp code)

theorem lineFeed_not_mem_utf8 {text : String} (noNewline : '\n' ∉ text.toList) :
    Line.lineFeed ∉ utf8 text := by
  rw [utf8_eq_flatMap, List.mem_flatMap]
  rintro ⟨character, member, byte⟩
  exact noNewline (eq_newline_of_mem_utf8EncodeChar byte ▸ member)

theorem decode_utf8 (text : String) : Line.decode (utf8 text) = some text := by
  have bytes : ByteArray.mk (utf8 text).toArray = text.toByteArray := by
    rw [utf8_eq_data, Array.toArray_toList, String.toUTF8_eq_toByteArray]
  rw [Line.decode, bytes, String.fromUTF8?, dif_pos text.isValidUTF8]
  rfl

/-! ## A text of one line -/

theorem Line.split_of_not_mem {bytes : List UInt8} (noLineFeed : lineFeed ∉ bytes)
    (nonempty : bytes ≠ []) : split bytes = [bytes] := by
  fun_induction split bytes with
  | case1 => contradiction
  | case2 => simp at noLineFeed
  | case3 => rfl
  | case4 => simp at noLineFeed
  | case5 byte following rest _ ending => simp [ending.2] at noLineFeed
  | case6 byte following rest _ _ induction =>
      rw [induction (fun member => noLineFeed (.tail _ member)) (by simp)]
      rfl

/-- The source of a text without newlines has that text as its only line. -/
theorem Source.ofBytes_utf8 {text : String} (name : String) (nonempty : text.toList ≠ [])
    (noNewline : '\n' ∉ text.toList) :
    Source.ofBytes name (utf8 text) = { name, lines := [some text] } := by
  have bytes : utf8 text ≠ [] := by
    rw [utf8_eq_flatMap, Ne, List.flatMap_eq_nil_iff]
    intro empty
    rcases List.exists_cons_of_ne_nil nonempty with ⟨character, rest, split⟩
    exact String.utf8EncodeChar_ne_nil (empty character (by simp [split]))
  rw [ofBytes, Line.split_of_not_mem (lineFeed_not_mem_utf8 noNewline) bytes]
  rw [List.map_singleton, decode_utf8]

end Firmware
