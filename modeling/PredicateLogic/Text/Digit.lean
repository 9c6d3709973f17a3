/-
Module: PredicateLogic.Text.Digit
Purpose: Decimal digits in any script, and texts that look like negative numbers.
Main exports:
  isDigit, isNegativeNumber
-/

namespace PredicateLogic.Text

/-!
### Decimal digits

In every script that has decimal digits, the ten of them follow one another in the order of their
values.  The table lists the code points of the zeros, by version 14 of the Unicode character
database.
-/

/-- The code points of the digits zero. -/
def zeros : List Nat :=
  [0x30, 0x660, 0x6f0, 0x7c0, 0x966, 0x9e6, 0xa66, 0xae6, 0xb66, 0xbe6, 0xc66, 0xce6, 0xd66,
    0xde6, 0xe50, 0xed0, 0xf20, 0x1040, 0x1090, 0x17e0, 0x1810, 0x1946, 0x19d0, 0x1a80, 0x1a90,
    0x1b50, 0x1bb0, 0x1c40, 0x1c50, 0xa620, 0xa8d0, 0xa900, 0xa9d0, 0xa9f0, 0xaa50, 0xabf0,
    0xff10, 0x104a0, 0x10d30, 0x11066, 0x110f0, 0x11136, 0x111d0, 0x112f0, 0x11450, 0x114d0,
    0x11650, 0x116c0, 0x11730, 0x118e0, 0x11950, 0x11c50, 0x11d50, 0x11da0, 0x16a60, 0x16ac0,
    0x16b50, 0x1d7ce, 0x1d7d8, 0x1d7e2, 0x1d7ec, 0x1d7f6, 0x1e140, 0x1e2f0, 0x1e950, 0x1fbf0]

/-- Whether a character is a decimal digit. -/
def isDigit (c : Char) : Bool :=
  zeros.any fun first => first ≤ c.toNat && c.toNat < first + 10

/-- The characters without a line feed at their end, one at most. -/
def dropLastLineFeed (text : List Char) : List Char :=
  if text.getLast? = some '\n' then text.dropLast else text

/-- Whether a text is a minus sign and digits, with or without a decimal point that has a digit
behind it.  A line feed at the end does not count. -/
def isNegativeNumber : List Char → Bool
  | '-' :: rest =>
      let number := dropLastLineFeed rest
      match number.dropWhile isDigit with
      | [] => !number.isEmpty
      | '.' :: fraction => !fraction.isEmpty && fraction.all isDigit
      | _ => false
  | _ => false

end PredicateLogic.Text
