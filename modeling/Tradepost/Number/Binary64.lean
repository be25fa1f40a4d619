import Tradepost.Number.Rounding

/-!
# Double precision numbers

A finite number is `± mantissa · 2 ^ exponent`. Every operation computes its
exact result as a ratio of whole numbers and rounds once, to the nearest
number of the format, ties to an even mantissa.
-/

namespace Tradepost

inductive Binary64 where
  | finite (negative : Bool) (mantissa : Nat) (exponent : Int)
  | infinity (negative : Bool)
  | nan
deriving DecidableEq, Repr, Inhabited

namespace Binary64

def leastExponent : Int := -1074

def maxExponent : Int := 971

def zero : Binary64 := finite false 0 leastExponent

/-! ## Rounding -/

/-- The exponent of the power of two at or below `n / d`. -/
def binade (n d : Nat) : Int :=
  let e : Int := (n.log2 : Int) - d.log2
  if d * Nat.pow 2 e.toNat ≤ n * Nat.pow 2 (-e).toNat then e else e - 1

/-- The number `± q · 2 ^ e` for a `q` of at most `2 ^ 53`. -/
def pack (negative : Bool) (q : Nat) (e : Int) : Binary64 :=
  let (q, e) := if q = Nat.pow 2 53 then (Nat.pow 2 52, e + 1) else (q, e)
  if maxExponent < e then infinity negative else finite negative q e

def ofRatio (negative : Bool) (n d : Nat) : Binary64 :=
  if n = 0 then finite negative 0 leastExponent
  else
    let e := max leastExponent (binade n d - 52)
    pack negative (divHalfEven (n * Nat.pow 2 (-e).toNat) (d * Nat.pow 2 e.toNat)) e

/-- The number nearest to `± c · 10 ^ e`. Far outside the range of the format
the power of ten is not computed. -/
def ofDecimal (negative : Bool) (c : Nat) (e : Int) : Binary64 :=
  if c = 0 then finite negative 0 leastExponent
  else if 400 < e + digitCount c then infinity negative
  else if e + digitCount c < -400 then finite negative 0 leastExponent
  else ofRatio negative (c * Nat.pow 10 e.toNat) (Nat.pow 10 (-e).toNat)

def ofInt (n : Int) : Binary64 := ofRatio (n < 0) n.natAbs 1

/-! ## Operations -/

def mul : Binary64 → Binary64 → Binary64
  | nan, _ => nan
  | _, nan => nan
  | infinity s, infinity t => infinity (s != t)
  | infinity s, finite t m _ => if m = 0 then nan else infinity (s != t)
  | finite s m _, infinity t => if m = 0 then nan else infinity (s != t)
  | finite s m e, finite t k f =>
    ofRatio (s != t) (m * k * Nat.pow 2 (e + f).toNat) (Nat.pow 2 (-(e + f)).toNat)

def units (negative : Bool) (mantissa : Nat) (exponent : Int) : Int :=
  let n : Int := (mantissa * Nat.pow 2 (exponent - leastExponent).toNat : Nat)
  if negative then -n else n

def lt : Binary64 → Binary64 → Bool
  | nan, _ => false
  | _, nan => false
  | infinity s, infinity t => s && !t
  | infinity s, finite _ _ _ => s
  | finite _ _ _, infinity t => !t
  | finite s m e, finite t k f => units s m e < units t k f

def truncate? : Binary64 → Option Int
  | finite s m e =>
    let n := m * Nat.pow 2 e.toNat / Nat.pow 2 (-e).toNat
    some (if s then -n else n)
  | _ => none

def toInt? : Binary64 → Option Int
  | finite s m e =>
    let n := m * Nat.pow 2 e.toNat
    let d := Nat.pow 2 (-e).toNat
    if n % d = 0 then some (if s then -(n / d : Nat) else (n / d : Nat)) else none
  | _ => none

def isFinite : Binary64 → Bool
  | finite _ _ _ => true
  | _ => false

def isZero : Binary64 → Bool
  | finite _ 0 _ => true
  | _ => false

end Binary64

end Tradepost
