/-
This file says which characters are blank and trims texts of them.

Blank means the Unicode property `White_Space`. Comments are trimmed by it, so a comment may begin
and end with any of these characters and lose them; the spaces that separate tokens are a smaller
set and are no concern of this file.
-/

namespace LuaStyle

/-- The character has the Unicode property `White_Space`. -/
def isBlank (c : Char) : Bool :=
  let code := c.toNat
  (9 ≤ code && code ≤ 13) || code == 0x20 || code == 0x85 || code == 0xA0 || code == 0x1680
    || (0x2000 ≤ code && code ≤ 0x200A) || code == 0x2028 || code == 0x2029 || code == 0x202F
    || code == 0x205F || code == 0x3000

/-- A text without the characters that satisfy the test at its end. -/
def dropTrailing (test : Char → Bool) (text : List Char) : List Char :=
  (text.reverse.dropWhile test).reverse

/-- A text without the blank characters at its start and its end. -/
def trim (text : List Char) : List Char :=
  dropTrailing isBlank (text.dropWhile isBlank)

end LuaStyle
