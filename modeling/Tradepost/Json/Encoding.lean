import Tradepost.Json.Parse

/-!
# Encodings of JSON

Bytes that hold JSON may be UTF-8, UTF-16 or UTF-32. A JSON text starts with
ASCII characters, so the zeros among the first four bytes tell which it is. A
mark at the start of UTF-8 is dropped.
-/

namespace Tradepost.Json

inductive Encoding where
  | utf8
  | utf16 (bigEndian : Bool)
  | utf32 (bigEndian : Bool)
deriving DecidableEq, Repr

namespace Encoding

def detect : List UInt8 → Encoding
  | a :: b :: c :: d :: _ =>
    if a = 0 then (if b = 0 then utf32 true else utf16 true)
    else if b = 0 then (if c = 0 ∧ d = 0 then utf32 false else utf16 false)
    else utf8
  | [a, b] => if a = 0 then utf16 true else if b = 0 then utf16 false else utf8
  | _ => utf8

def pairs? (bigEndian : Bool) : List UInt8 → Option (List Nat)
  | [] => some []
  | [_] => none
  | a :: b :: rest =>
    let (high, low) := if bigEndian then (a, b) else (b, a)
    (pairs? bigEndian rest).map ((high.toNat * 256 + low.toNat) :: ·)

def quads? (bigEndian : Bool) : List Nat → Option (List Nat)
  | [] => some []
  | [_] => none
  | a :: b :: rest =>
    let (high, low) := if bigEndian then (a, b) else (b, a)
    (quads? bigEndian rest).map ((high * 65536 + low) :: ·)

def wideCode? (n : Nat) : Option Nat := if n ≤ 0x10ffff then some n else none

end Encoding

def byteOrderMark : Char := Char.ofNat 0xfeff

def decoded? (s : String) : Option (List Char) :=
  let bytes := s.toUTF8.toList
  match Encoding.detect bytes with
  | .utf8 =>
    match s.toList with
    | c :: cs => some (Text.marked (if c = byteOrderMark then cs else c :: cs))
    | [] => some []
  | .utf16 big => do
    let units ← Encoding.pairs? big bytes
    pure ((Text.joinUnits units).flatMap Text.ofCodePoint)
  | .utf32 big => do
    let units ← Encoding.quads? big (← Encoding.pairs? big bytes)
    pure ((← units.mapM Encoding.wideCode?).flatMap Text.ofCodePoint)

def parseBytes (s : String) (levels : Nat := s.utf8ByteSize) : Except Malformed Json :=
  match decoded? s with
  | none => .error .undecodable
  | some cs => parseChars cs levels

end Tradepost.Json
