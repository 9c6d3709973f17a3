/-
Module: PredicateLogic.Text.Blank
Purpose: White space in any script, and texts without it at their ends.
Main exports:
  isBlank, strip
-/

namespace PredicateLogic.Text

/-!
### White space

Besides the separators of Unicode, the tab and line controls, the four information separators and
the next-line control count as white space.
-/

/-- Whether a character is white space. -/
def isBlank (c : Char) : Bool :=
  let n := c.toNat
  (0x9 ≤ n && n ≤ 0xd) || (0x1c ≤ n && n ≤ 0x20) || n == 0x85 || n == 0xa0 || n == 0x1680
    || (0x2000 ≤ n && n ≤ 0x200a) || n == 0x2028 || n == 0x2029 || n == 0x202f || n == 0x205f
    || n == 0x3000

/-- The text without white space at either end. -/
def strip (text : String) : String :=
  String.ofList ((text.toList.dropWhile isBlank).reverse.dropWhile isBlank).reverse

end PredicateLogic.Text
