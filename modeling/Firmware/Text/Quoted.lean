import Firmware.Text.Glyphless

/-! # Quoted characters

How a message shows a single character: between apostrophes, with a backslash
before the characters that would be misread, and by its code point if it has no
glyph of its own. -/

namespace Firmware

/-- The code point of a character in lower-case hexadecimal digits. -/
def hexadecimal (character : Char) : String :=
  String.ofList (Nat.toDigits 16 character.toNat)

/-- How a character is written between the apostrophes. -/
def escaped (character : Char) : String :=
  if character = '\x00' then "\\0"
  else if character = '\t' then "\\t"
  else if character = '\r' then "\\r"
  else if character = '\n' then "\\n"
  else if character = '\\' then "\\\\"
  else if character = '\x27' then "\\'"
  else if isGlyphless character then "\\u\x7b" ++ hexadecimal character ++ "\x7d"
  else character.toString

/-- A character as a message shows it. -/
def quoted (character : Char) : String :=
  "'" ++ escaped character ++ "'"

end Firmware
