import Tradepost.Text.Blank
import Tradepost.Text.Digit

/-!
# Whole numbers in text

The text of a whole number has digits of any script, perhaps with single
underscores between them, perhaps a sign, and may be wrapped in white space.
-/

namespace Tradepost.Whole

open Text

def maxDigits : Nat := 4300

def digitOf? (base : Nat) (c : Char) : Option Nat :=
  let value? := match digitValue? c with
    | some d => some d
    | none => if c.isAlpha then some (c.toLower.toNat - 87) else none
  value?.filter (· < base)

def digits? (base : Nat) : List Char → Option (List Nat)
  | [] => none
  | [c] => (digitOf? base c).map ([·])
  | c :: '_' :: rest => do
    let d ← digitOf? base c
    pure (d :: (← digits? base rest))
  | c :: rest => do
    let d ← digitOf? base c
    pure (d :: (← digits? base rest))

/-- A text without the white space around it, and whether a minus stood in front. -/
def unwrap (cs : List Char) : Bool × List Char :=
  match trimBoth isWhiteSpace cs with
  | '-' :: cs => (true, cs)
  | '+' :: cs => (false, cs)
  | cs => (false, cs)

def ofDigitList (base : Nat) (negative : Bool) (ds : List Nat) : Int :=
  let n : Nat := ds.foldl (fun n d => n * base + d) 0
  if negative then -(n : Int) else n

def ofString? (s : String) : Option Int := do
  let (negative, cs) := unwrap s.toList
  let ds ← digits? 10 cs
  if ds.length ≤ maxDigits then pure (ofDigitList 10 negative ds) else none

def ofHex? (cs : List Char) : Option Int := do
  let (negative, cs) := unwrap cs
  let cs := match cs with
    | '0' :: 'x' :: '_' :: cs | '0' :: 'X' :: '_' :: cs => cs
    | '0' :: 'x' :: cs | '0' :: 'X' :: cs => cs
    | cs => cs
  pure (ofDigitList 16 negative (← digits? 16 cs))

end Tradepost.Whole
