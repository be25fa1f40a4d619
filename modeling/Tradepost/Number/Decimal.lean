import Tradepost.Number.Rounding

/-!
# Decimal numbers

A decimal number is a coefficient with a power of ten. Text is read exactly;
arithmetic works in a context of 28 significant digits, rounds ties to even,
and stops on results beyond the largest exponent. Tiny results lose digits
without a complaint.
-/

namespace Tradepost

inductive Breakdown where
  | notANumber
  | unbounded
  | overflow
  | invalidOperation
deriving DecidableEq, Repr

inductive Decimal where
  | finite (negative : Bool) (coefficient : Nat) (exponent : Int)
  | infinity (negative : Bool)
  | nan (signaling : Bool)
deriving DecidableEq, Repr, Inhabited

namespace Decimal

/-! ## The working context -/

def precision : Nat := 28

def maxExponent : Int := 999999

def leastExponent : Int := -1000026

/-- The number `± c · 10 ^ e` with its last `k` digits rounded away; a carry into
a 29th digit moves the exponent instead. -/
def shorten (negative : Bool) (c : Nat) (e : Int) (k : Nat) : Except Breakdown Decimal :=
  let c' := dropDigitsHalfEven c k
  if c' < Nat.pow 10 precision then .ok (.finite negative c' (e + k))
  else if maxExponent < e + k + precision then .error .overflow
  else .ok (.finite negative (c' / 10) (e + k + 1))

def fit (negative : Bool) (c : Nat) (e : Int) : Except Breakdown Decimal :=
  if c = 0 then .ok (.finite negative 0 (max leastExponent (min maxExponent e)))
  else if maxExponent < e + digitCount c - 1 then .error .overflow
  else shorten negative c e (max (digitCount c - precision) (leastExponent - e).toNat)

/-! ## Operations -/

def neg : Decimal → Decimal
  | finite s c e => finite (!s) c e
  | infinity s => infinity (!s)
  | nan g => nan g

def exactSum (s : Bool) (c : Nat) (e : Int) (t : Bool) (d : Nat) (f : Int) :
    Bool × Nat × Int :=
  let g := min e f
  let a := c * Nat.pow 10 (e - g).toNat
  let b := d * Nat.pow 10 (f - g).toNat
  if s = t then (s, a + b, g)
  else if b < a then (s, a - b, g)
  else if a < b then (t, b - a, g)
  else (false, 0, g)

def add : Decimal → Decimal → Except Breakdown Decimal
  | nan true, _ => .error .invalidOperation
  | _, nan true => .error .invalidOperation
  | nan false, _ => .ok (nan false)
  | _, nan false => .ok (nan false)
  | infinity s, infinity t => if s = t then .ok (infinity s) else .error .invalidOperation
  | infinity s, finite _ _ _ => .ok (infinity s)
  | finite _ _ _, infinity t => .ok (infinity t)
  | finite s c e, finite t d f =>
    let (u, k, g) := exactSum s c e t d f
    fit u k g

def sub (x y : Decimal) : Except Breakdown Decimal := x.add y.neg

def mul : Decimal → Decimal → Except Breakdown Decimal
  | nan true, _ => .error .invalidOperation
  | _, nan true => .error .invalidOperation
  | nan false, _ => .ok (nan false)
  | _, nan false => .ok (nan false)
  | infinity s, infinity t => .ok (infinity (s != t))
  | infinity s, finite t d _ =>
    if d = 0 then .error .invalidOperation else .ok (infinity (s != t))
  | finite s c _, infinity t =>
    if c = 0 then .error .invalidOperation else .ok (infinity (s != t))
  | finite s c e, finite t d f => fit (s != t) (c * d) (e + f)

def shift (x : Decimal) (k : Int) : Except Breakdown Decimal :=
  match x with
  | finite s c e => fit s c (e + k)
  | infinity s => .ok (infinity s)
  | nan true => .error .invalidOperation
  | nan false => .ok (nan false)

/-! ## Whole numbers -/

def ofInt (n : Int) : Decimal := finite (n < 0) n.natAbs 0

def wholePart (c : Nat) (e : Int) : Nat :=
  if c = 0 then 0
  else if 0 ≤ e then c * Nat.pow 10 e.toNat
  else dropDigitsHalfUp c (-e).toNat

def toInt : Decimal → Except Breakdown Int
  | finite s c e => .ok (if s then -(wholePart c e : Int) else wholePart c e)
  | infinity _ => .error .unbounded
  | nan false => .error .notANumber
  | nan true => .error .invalidOperation

def isFinite : Decimal → Bool
  | finite _ _ _ => true
  | _ => false

/-! ## Plain text -/

/-- The digits of `m` with a point before the last `places` of them and at least
one digit in front of the point. -/
def pointText (places m : Nat) : List Char :=
  let ds := Nat.toDigits 10 m
  let ds := List.replicate (places + 1 - ds.length) '0' ++ ds
  ds.take (ds.length - places) ++ '.' :: ds.drop (ds.length - places)

def fixedText (places : Nat) (negative : Bool) (c : Nat) (e : Int) : String :=
  let m := if 0 ≤ e + places then c * Nat.pow 10 (e + places).toNat
    else dropDigitsHalfEven c (-(e + places)).toNat
  String.ofList ((if negative then ['-'] else []) ++ pointText places m)

end Decimal

end Tradepost
