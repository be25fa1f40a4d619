import Tradepost.Number.Decimal
import Tradepost.Text.Blank
import Tradepost.Text.Digit

/-!
# Decimal numbers in text

A decimal text has digits of any script, at most one point, an optional
exponent, and may be wrapped in blanks and strewn with underscores. It is read
exactly: no digit is lost, however long the text is.
-/

namespace Tradepost.Decimal

open Text

/-! ## Limits of an exact number -/

/-- The largest exponent of the first digit of an exact number. -/
def exactMax : Int := 999999999999999999

/-- The smallest exponent of the last digit of an exact number. -/
def exactLeast : Int := -1999999999999999997

def withinLimits? (negative : Bool) (c : Nat) (e : Int) : Option Decimal :=
  let top := if c = 0 then e else e + digitCount c - 1
  if exactLeast ≤ e ∧ top ≤ exactMax then some (finite negative c e) else none

/-! ## Reading -/

/-- The ASCII form of a text: underscores go, digits of any script become ASCII
digits, and any other character outside ASCII makes the text malformed. -/
def toAscii? : List Char → Option (List Char)
  | [] => some []
  | c :: cs =>
    if c = '_' then toAscii? cs
    else if 0 < c.toNat ∧ c.toNat < 128 then (toAscii? cs).map (c :: ·)
    else do
      let d ← digitValue? c
      let rest ← toAscii? cs
      pure (Nat.digitChar d :: rest)

def takeSign : List Char → Bool × List Char
  | '-' :: cs => (true, cs)
  | '+' :: cs => (false, cs)
  | cs => (false, cs)

def exponent? (cs : List Char) : Option Int := do
  let (negative, ds) := takeSign cs
  let ns ← asciiDigits? ds
  if ns.isEmpty then none
  else pure (if negative then -(ofDigits ns : Int) else ofDigits ns)

def coefficient? (cs : List Char) : Option (Nat × Nat) := do
  let whole := cs.takeWhile (· ≠ '.')
  let tail := (cs.dropWhile (· ≠ '.')).drop 1
  let ds ← asciiDigits? whole
  let fs ← asciiDigits? tail
  if ds.isEmpty && fs.isEmpty then none else pure (ofDigits (ds ++ fs), fs.length)

def number? (cs : List Char) : Option (Nat × Int) := do
  let isMark := fun c => c == 'e' || c == 'E'
  let (c, places) ← coefficient? (cs.takeWhile (!isMark ·))
  match cs.dropWhile (!isMark ·) with
  | [] => pure (c, -places)
  | _ :: es => do
    let e ← exponent? es
    pure (c, e - places)

def unsigned? (negative : Bool) (cs : List Char) : Option Decimal :=
  let word := cs.map Char.toLower
  if word = ['i', 'n', 'f'] ∨ word = ['i', 'n', 'f', 'i', 'n', 'i', 't', 'y'] then
    some (infinity negative)
  else if word.take 3 = ['n', 'a', 'n'] ∧ (word.drop 3).all Char.isDigit then some (nan false)
  else if word.take 4 = ['s', 'n', 'a', 'n'] ∧ (word.drop 4).all Char.isDigit then
    some (nan true)
  else do
    let (c, e) ← number? cs
    withinLimits? negative c e

def ofString? (s : String) : Option Decimal := do
  let cs ← toAscii? (trimBoth isBlank s.toList)
  let (negative, rest) := takeSign cs
  unsigned? negative rest

end Tradepost.Decimal
