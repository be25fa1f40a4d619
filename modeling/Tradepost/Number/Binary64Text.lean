import Tradepost.Number.Binary64
import Tradepost.Number.DecimalText

/-!
# Double precision numbers in text

A number is shown with the fewest digits that read back as the same number.
-/

namespace Tradepost.Binary64

open Text

/-! ## Shortest digits -/

/-- Numerator and denominator of `m · 2 ^ e` in units of `10 ^ -k`. -/
def inTenths (m : Nat) (e k : Int) : Nat × Nat :=
  (m * Nat.pow 2 e.toNat * Nat.pow 10 k.toNat, Nat.pow 2 (-e).toNat * Nat.pow 10 (-k).toNat)

def leadingExponent (m : Nat) (e : Int) : Int :=
  let (n, d) := inTenths m e 330
  (digitCount (n / d) : Int) - 331

/-- The closer one of the two neighbours of `m · 2 ^ e` with last digit at
`10 ^ p` that reads back as the same number. -/
def neighbour? (m : Nat) (e p : Int) : Option Nat :=
  let (n, d) := inTenths m e (-p)
  let low := n / d
  let readsBack := fun c => ofDecimal false c p = finite false m e
  let near := divHalfEven n d
  let far := if near = low then low + 1 else low
  if readsBack near then some near else if readsBack far then some far else none

def shortestFrom (m : Nat) (e lead : Int) (len : Nat) : Nat → Nat × Int
  | 0 =>
    let p := lead - len
    let (n, d) := inTenths m e (-p)
    (divHalfEven n d, p)
  | fuel + 1 =>
    match neighbour? m e (lead - len) with
    | some c => (c, lead - len)
    | none => shortestFrom m e lead (len + 1) fuel

def trimZeros (c : Nat) (p : Int) : Nat → Nat × Int
  | 0 => (c, p)
  | fuel + 1 => if c % 10 = 0 ∧ c ≠ 0 then trimZeros (c / 10) (p + 1) fuel else (c, p)

def shortest (m : Nat) (e : Int) : Nat × Int :=
  if m = 0 then (0, 0)
  else
    let (c, p) := shortestFrom m e (leadingExponent m e) 0 17
    trimZeros c p 20

def toDecimal : Binary64 → Decimal
  | finite s m e => let (c, p) := shortest m e; .finite s c p
  | infinity s => .infinity s
  | nan => .nan false

def ofDecimalNumber : Decimal → Binary64
  | .finite s c e => ofDecimal s c e
  | .infinity s => infinity s
  | .nan _ => nan

/-! ## Layout -/

/-- Digits with a point `point` places behind their start, or with an exponent
when the point is far away. -/
def layout (digits : List Char) (point : Int) : List Char :=
  if -4 < point ∧ point ≤ 16 then
    if point ≤ 0 then
      '0' :: '.' :: List.replicate (-point).toNat '0' ++ digits
    else if (digits.length : Int) ≤ point then
      digits ++ List.replicate (point - digits.length).toNat '0' ++ ['.', '0']
    else digits.take point.toNat ++ '.' :: digits.drop point.toNat
  else
    let x := point - 1
    let fraction := match digits.drop 1 with
      | [] => []
      | ds => '.' :: ds
    let size := Nat.toDigits 10 x.natAbs
    digits.take 1 ++ fraction ++ 'e' :: (if x < 0 then '-' else '+')
      :: List.replicate (2 - size.length) '0' ++ size

def toText : Binary64 → String
  | finite s m e =>
    let (c, p) := shortest m e
    let body :=
      if m = 0 then ['0', '.', '0']
      else
        let ds := Nat.toDigits 10 c
        layout ds (p + ds.length)
    String.ofList ((if s then ['-'] else []) ++ body)
  | infinity s => if s then "-inf" else "inf"
  | nan => "nan"

/-! ## Reading -/

def ofChars? (cs : List Char) : Option Binary64 :=
  let (negative, rest) := Decimal.takeSign cs
  let word := rest.map Char.toLower
  if word = ['i', 'n', 'f'] ∨ word = ['i', 'n', 'f', 'i', 'n', 'i', 't', 'y'] then
    some (infinity negative)
  else if word = ['n', 'a', 'n'] then some nan
  else (Decimal.number? rest).map fun (c, e) => ofDecimal negative c e

/-- The text without its underscores, each of which has to stand between two digits;
`behindDigit` tells whether a digit stands in front of the text. -/
def withoutUnderscores? (behindDigit : Bool) : List Char → Option (List Char)
  | [] => some []
  | '_' :: cs =>
    if behindDigit && cs.head?.any Char.isDigit then withoutUnderscores? false cs else none
  | c :: cs => (withoutUnderscores? c.isDigit cs).map (c :: ·)

def ofString? (s : String) : Option Binary64 :=
  let plain := (trimBoth isWhiteSpace s.toList).map fun c =>
    match digitValue? c with
    | some d => Char.ofNat (48 + d)
    | none => c
  (withoutUnderscores? false plain).bind ofChars?

end Tradepost.Binary64
