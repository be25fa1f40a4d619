/-!
# Code points of a text

A text may hold half of a surrogate pair: a code point that no character
stands for. In a string it is written as a mark and a private character, and
the mark itself is written twice. Every string without the mark stands for its
own characters.
-/

namespace Tradepost.Text

def isHighSurrogate (n : Nat) : Bool := 0xd800 ≤ n && n ≤ 0xdbff

def isLowSurrogate (n : Nat) : Bool := 0xdc00 ≤ n && n ≤ 0xdfff

def isSurrogate (n : Nat) : Bool := 0xd800 ≤ n && n ≤ 0xdfff

/-- The last code point, which no character will ever have. -/
def mark : Char := Char.ofNat 0x10ffff

/-- How a code point is written in a text. -/
def ofCodePoint (n : Nat) : List Char :=
  if isSurrogate n then [mark, Char.ofNat (0xe000 + (n - 0xd800))]
  else if Char.ofNat n = mark then [mark, mark]
  else [Char.ofNat n]

def codePoints : List Char → List Nat
  | [] => []
  | [c] => [c.toNat]
  | c :: d :: rest =>
    if c ≠ mark then c.toNat :: codePoints (d :: rest)
    else if d = mark then mark.toNat :: codePoints rest
    else if 0xe000 ≤ d.toNat ∧ d.toNat < 0xe800 then
      (0xd800 + (d.toNat - 0xe000)) :: codePoints rest
    else mark.toNat :: codePoints (d :: rest)

def marked (cs : List Char) : List Char := cs.flatMap fun c => ofCodePoint c.toNat

def size (cs : List Char) : Nat := (codePoints cs).length

def pairCode (high low : Nat) : Nat := 0x10000 + (high - 0xd800) * 1024 + (low - 0xdc00)

/-- The code points of a run of UTF-16 units. -/
def joinUnits : List Nat → List Nat
  | [] => []
  | [n] => [n]
  | n :: m :: rest =>
    if isHighSurrogate n && isLowSurrogate m then pairCode n m :: joinUnits rest
    else n :: joinUnits (m :: rest)

def isSendable (s : String) : Bool := (codePoints s.toList).all fun n => !isSurrogate n

def sent (s : String) : String := String.ofList ((codePoints s.toList).map Char.ofNat)

def numbersLe : List Nat → List Nat → Bool
  | [], _ => true
  | _ :: _, [] => false
  | m :: ms, n :: ns => m < n || (m == n && numbersLe ms ns)

def le (s t : String) : Bool := numbersLe (codePoints s.toList) (codePoints t.toList)

end Tradepost.Text
