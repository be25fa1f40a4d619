import Tradepost.Json.Parse

/-!
# Percent coding

In paths and queries an escape stands for one byte, and the bytes are UTF-8.
What is not a well-formed escape is left as it is; bytes that are not UTF-8
are replaced.
-/

namespace Tradepost

namespace Percent

def unescape : List Char → List UInt8
  | '%' :: a :: b :: rest =>
    match Json.hexValue? a, Json.hexValue? b with
    | some x, some y => UInt8.ofNat (16 * x + y) :: unescape rest
    | _, _ => (String.singleton '%').toUTF8.toList ++ unescape (a :: b :: rest)
  | c :: rest => (String.singleton c).toUTF8.toList ++ unescape rest
  | [] => []

def replacement : Char := Char.ofNat 0xfffd

/-- How many bytes follow a first byte, and between which bounds the next one lies. -/
def expectation? (b : Nat) : Option (Nat × Nat × Nat) :=
  if 0xc2 ≤ b ∧ b ≤ 0xdf then some (1, 0x80, 0xbf)
  else if b = 0xe0 then some (2, 0xa0, 0xbf)
  else if b = 0xed then some (2, 0x80, 0x9f)
  else if 0xe1 ≤ b ∧ b ≤ 0xef then some (2, 0x80, 0xbf)
  else if b = 0xf0 then some (3, 0x90, 0xbf)
  else if 0xf1 ≤ b ∧ b ≤ 0xf3 then some (3, 0x80, 0xbf)
  else if b = 0xf4 then some (3, 0x80, 0x8f)
  else none

/-- Decodes bytes. `pending` counts the bytes still missing of a character whose
bits so far are `bits`; `low` and `high` bound the next one. A sequence that
breaks off is replaced. -/
def decode (pending bits low high : Nat) : List UInt8 → List Char
  | [] => if pending = 0 then [] else [replacement]
  | byte :: rest =>
    let b := byte.toNat
    let first (_ : Unit) : List Char :=
      if b < 0x80 then Char.ofNat b :: decode 0 0 0 0 rest
      else
        match expectation? b with
        | some (1, l, h) => decode 1 (b % 0x20) l h rest
        | some (2, l, h) => decode 2 (b % 0x10) l h rest
        | some (n, l, h) => decode n (b % 0x08) l h rest
        | none => replacement :: decode 0 0 0 0 rest
    match pending with
    | 0 => first ()
    | n + 1 =>
      if low ≤ b ∧ b ≤ high then
        let bits := bits * 64 + b % 64
        if n = 0 then Char.ofNat bits :: decode 0 0 0 0 rest
        else decode n bits 0x80 0xbf rest
      else replacement :: first ()

def decoded (cs : List Char) : List Char := decode 0 0 0 0 (unescape cs)

end Percent

/-! ## Queries -/

namespace Query

def part (cs : List Char) : String :=
  String.ofList (Text.marked (Percent.decoded (cs.map fun c => if c = '+' then ' ' else c)))

def field (cs : List Char) : String × String :=
  (part (cs.takeWhile (· ≠ '=')), part ((cs.dropWhile (· ≠ '=')).drop 1))

def fields (s : String) : List (String × String) :=
  ((s.toList.splitOn '&').filter fun cs => !cs.isEmpty).map field

end Query

end Tradepost
