import RequestFlow.Text.Blank

/-!
# Texts made visible

A text in double quotes in which everything that could not be seen is spelled out: quotes and
backslashes have a backslash in front, line ends, tabs and the null character have a letter of
their own, and other controls, blanks and marks on other characters are given by their number.
-/

namespace RequestFlow.Text

/-- Controls, marks that only go with other characters, and characters for private use. -/
def invisibleRanges : List (Nat × Nat) :=
  [(0x0, 0x1F), (0x7F, 0x9F), (0xAD, 0xAD), (0x300, 0x36F), (0x483, 0x489), (0x591, 0x5BD),
   (0x200B, 0x200F), (0x202A, 0x202E), (0x2060, 0x206F), (0x20D0, 0x20F0), (0xE000, 0xF8FF),
   (0xFE00, 0xFE0F), (0xFE20, 0xFE2F), (0xFEFF, 0xFEFF), (0xFFF0, 0xFFFB), (0xFFFE, 0xFFFF),
   (0xE0000, 0x10FFFF)]

/-- A character that cannot be seen by itself, or not be told from a space. -/
def isInvisible (c : Char) : Bool := inRanges invisibleRanges c || (isBlank c && c != ' ')

/-- A character as it is spelled inside quotes. -/
def spellChar (c : Char) : List Char :=
  if c = '"' || c = '\\' then ['\\', c]
  else if c = '\n' then ['\\', 'n']
  else if c = '\r' then ['\\', 'r']
  else if c = '\t' then ['\\', 't']
  else if c = '\x00' then ['\\', '0']
  else if isInvisible c then '\\' :: 'u' :: '{' :: (Nat.toDigits 16 c.toNat ++ ['}'])
  else [c]

/-- A text in quotes, everything in it visible. -/
def visible (text : String) : String :=
  String.ofList ('"' :: (text.toList.flatMap spellChar ++ ['"']))

end RequestFlow.Text
