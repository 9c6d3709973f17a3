/-
Module: PredicateLogic.Text.Encoded
Purpose: Bytes that spell a text, and the first of them that do not.
Main exports:
  Undecodable, decode
-/

namespace PredicateLogic.Text

/-!
### Characters in bytes

A character is spelled by a first byte and up to three that continue it.  The first byte says how
many these are.  After some first bytes not every continuing byte is allowed, since the character
would have a shorter spelling, be half of a pair, or lie behind the last character.
-/

/-- The ranges of the bytes that continue a character, by its first byte, if it can be one. -/
def continuations? (first : UInt8) : Option (List (UInt8 × UInt8)) :=
  let tail : UInt8 × UInt8 := (0x80, 0xbf)
  if first ≤ 0x7f then some []
  else if first < 0xc2 then none
  else if first ≤ 0xdf then some [tail]
  else if first = 0xe0 then some [(0xa0, 0xbf), tail]
  else if first = 0xed then some [(0x80, 0x9f), tail]
  else if first ≤ 0xef then some [tail, tail]
  else if first = 0xf0 then some [(0x90, 0xbf), tail, tail]
  else if first ≤ 0xf3 then some [tail, tail, tail]
  else if first = 0xf4 then some [(0x80, 0x8f), tail, tail]
  else none

/-- The character that a first byte and those behind it spell.  Each byte behind the first brings
six binary digits, and leaves the first byte one less. -/
def character (first : UInt8) (behind : List UInt8) : Char :=
  let lead := if behind.isEmpty then first.toNat else first.toNat % (64 >>> behind.length)
  Char.ofNat (behind.foldl (fun value byte => 64 * value + byte.toNat % 64) lead)

/-!
### Bytes that spell no text
-/

/-- What is wrong with bytes. -/
inductive ByteFault where
  | invalidStart
  | invalidContinuation
  | unexpectedEnd
deriving Repr, DecidableEq

/-- The wording of what is wrong with bytes. -/
def ByteFault.message : ByteFault → String
  | .invalidStart => "invalid start byte"
  | .invalidContinuation => "invalid continuation byte"
  | .unexpectedEnd => "unexpected end of data"

/-- Bytes that spell no character, and where they stand: a first byte and those that fit behind
it. -/
structure Undecodable where
  position : Nat
  first : UInt8
  behind : List UInt8
  fault : ByteFault
deriving Repr, DecidableEq

/-- The wording of an error about bytes.  A single byte is named, several are told by the positions
of the first and the last. -/
def Undecodable.message (bytes : Undecodable) : String :=
  let subject :=
    if bytes.behind.isEmpty then
      "byte 0x" ++ String.ofList (Nat.toDigits 16 bytes.first.toNat) ++ " in position " ++
        bytes.position.repr
    else
      "bytes in position " ++ bytes.position.repr ++ "-" ++
        (bytes.position + bytes.behind.length).repr
  "'utf-8' codec can't decode " ++ subject ++ ": " ++ bytes.fault.message

/-!
### Decoding
-/

/-- How many of the bytes fit into ranges, one after the other, and what is wrong with the next one,
if not all ranges are filled. -/
def firstFault : List (UInt8 × UInt8) → List UInt8 → Option (Nat × ByteFault)
  | [], _ => none
  | _ :: _, [] => some (0, .unexpectedEnd)
  | (low, high) :: ranges, byte :: bytes =>
      if low ≤ byte && byte ≤ high then
        (firstFault ranges bytes).map fun (count, fault) => (count + 1, fault)
      else some (0, .invalidContinuation)

/-- The characters that bytes spell, the first of which stands at a position. -/
def decodeFrom (position : Nat) : List UInt8 → Except Undecodable (List Char)
  | [] => .ok []
  | first :: rest =>
      match continuations? first with
      | none =>
          .error { position := position, first := first, behind := [], fault := .invalidStart }
      | some ranges =>
          match firstFault ranges rest with
          | some (count, fault) =>
              .error
                { position := position, first := first, behind := rest.take count, fault := fault }
          | none => do
              let others ← decodeFrom (position + 1 + ranges.length) (rest.drop ranges.length)
              return character first (rest.take ranges.length) :: others
termination_by bytes => bytes.length

/-- The text that bytes spell. -/
def decode (bytes : List UInt8) : Except Undecodable String := do
  let characters ← decodeFrom 0 bytes
  return String.ofList characters

end PredicateLogic.Text
