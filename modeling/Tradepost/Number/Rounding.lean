/-!
# Division to a nearest whole number

The two tie rules used by the price arithmetic, and the count of decimal
digits that decides how much of a coefficient has to be rounded away.
-/

namespace Tradepost

/-- The whole number nearest to `n / d`; a tie goes to the even neighbour. -/
def divHalfEven (n d : Nat) : Nat :=
  if 2 * (n % d) < d then n / d
  else if d < 2 * (n % d) then n / d + 1
  else n / d + n / d % 2

def divHalfUp (n d : Nat) : Nat :=
  if 2 * (n % d) < d then n / d else n / d + 1

def digitCount (n : Nat) : Nat := (Nat.toDigits 10 n).length

/-- The quotient `n / 10 ^ k` to the nearest whole number, ties to even. A power
with more zeros than `n` has digits rounds everything away, so it is never
computed. -/
def dropDigitsHalfEven (n k : Nat) : Nat :=
  if digitCount n < k then 0 else divHalfEven n (Nat.pow 10 k)

def dropDigitsHalfUp (n k : Nat) : Nat :=
  if digitCount n < k then 0 else divHalfUp n (Nat.pow 10 k)

def ofDigits (ds : List Nat) : Nat := ds.foldl (fun n d => 10 * n + d) 0

end Tradepost
