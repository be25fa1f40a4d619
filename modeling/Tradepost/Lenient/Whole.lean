import Tradepost.Checked
import Tradepost.Number.WholeText

/-!
# Lenient whole numbers

A whole number may come as a number, as a number whose fraction is zero, as a
flag, or as a text. A text is tried in its plain form first; then the blanks
around it, a plus, leading zeros, a fraction of zeros and single underscores
are dropped, and it is tried again.
-/

namespace Tradepost.Lenient

open Text

/-! ## Numbers -/

/-- Whole numbers read from a number with a fraction have to fit 64 bits. -/
def wordLimit : Int := 9223372036854775808

def intOfReal (x : Binary64) : Except Problem Int :=
  if !x.isFinite then .error .finiteNumber
  else
    match x.toInt? with
    | none => .error .intFromFloat
    | some n =>
      if -wordLimit < n ∧ n < wordLimit then .ok n else .error .intParsingSize

/-! ## Texts -/

def plainInt (cs : List Char) : Except Problem Int :=
  let (negative, ds) := match cs with
    | '-' :: ds => (true, ds)
    | ds => (false, ds)
  let digits := ds.takeWhile Char.isDigit
  match digits with
  | [] => .error .intParsing
  | '0' :: _ :: _ => .error .intParsing
  | _ =>
    if Whole.maxDigits < digits.length then .error .intParsingSize
    else if digits.length < ds.length then .error .intParsing
    else
      let size : Int := ofDigits (digits.map fun c => c.toNat - 48)
      .ok (if negative then -size else size)

/-- A number text without its leading zeros and the underscores among them; one
character stays in front of a point and at the end. Behind the zeros a minus may
follow. -/
def dropLeadingZeros : List Char → Option (List Char)
  | '0' :: cs =>
    match cs.dropWhile fun c => c = '0' || c = '_' with
    | [] => some (('0' :: cs).drop cs.length)
    | '.' :: rest => some (('0' :: cs).drop (cs.length - rest.length - 1))
    | c :: rest => if c.isDigit || c = '-' then some (c :: rest) else none
  | c :: cs => if c.isDigit || c = '-' then some (c :: cs) else none
  | [] => none

def dropZeroFraction (cs : List Char) : List Char :=
  match cs.dropWhile (· ≠ '.') with
  | _ :: '0' :: zeros => if zeros.all (· = '0') then cs.takeWhile (· ≠ '.') else cs
  | _ => cs

def hasDoubleUnderscore : List Char → Bool
  | '_' :: '_' :: _ => true
  | _ :: cs => hasDoubleUnderscore cs
  | [] => false

def dropUnderscores? (cs : List Char) : Option (List Char) :=
  if cs.head? = some '_' || cs.getLast? = some '_' || hasDoubleUnderscore cs then none
  else if cs.contains '_' then some (cs.filter (· ≠ '_'))
  else none

def tidyUnsigned (cs : List Char) : Option (List Char) := do
  let cs := dropZeroFraction (← dropLeadingZeros cs)
  pure ((dropUnderscores? cs).getD cs)

def tidy (cs : List Char) : Option (List Char) :=
  match trimBoth isWhiteSpace cs with
  | '+' :: '-' :: _ => none
  | '+' :: cs => tidyUnsigned cs
  | '-' :: cs => (tidyUnsigned cs).map ('-' :: ·)
  | cs => tidyUnsigned cs

def intOfChars (cs : List Char) : Except Problem Int :=
  match plainInt cs with
  | .error .intParsing =>
    match (tidy cs).map plainInt with
    | some (.ok n) => .ok n
    | _ => .error .intParsing
  | result => result

/-! ## Values -/

/-- A text that is read for a number, a flag or a word; one that cannot be sent is
refused. -/
def readable {α : Type} (read : String → Except Problem α) (s : String) : Except Problem α :=
  if Text.isSendable s then read s else .error .stringUnicode

def int : Json → Except Problem Int
  | .integer n => .ok n
  | .bool b => .ok (if b then 1 else 0)
  | .real x => intOfReal x
  | .text s => readable (intOfChars ·.toList) s
  | _ => .error .intType

def positiveInt (v : Json) : Except Problem Int := do
  let n ← int v
  if 0 < n then pure n else throw .greaterThan

def nonNegativeInt (v : Json) : Except Problem Int := do
  let n ← int v
  if 0 ≤ n then pure n else throw .greaterThanEqual

end Tradepost.Lenient
