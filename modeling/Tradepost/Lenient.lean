import Tradepost.Lenient.Whole

/-!
# Lenient values

Texts, numbers, flags and words are read from values of several types. A text
counts as a flag in any letter case, and as a number with underscores in it.
-/

namespace Tradepost.Lenient

open Text

def text : Json → Except Problem String
  | .text s => .ok s
  | _ => .error .stringType

def optText : Json → Except Problem (Option String)
  | .null => .ok none
  | .text s => .ok (some s)
  | _ => .error .stringType

def realOfChars (cs : List Char) : Except Problem Binary64 :=
  match Binary64.ofChars? (trimBoth isWhiteSpace cs) with
  | some x => .ok x
  | none =>
    match (dropUnderscores? cs).bind Binary64.ofChars? with
    | some x => .ok x
    | none => .error .floatParsing

def real : Json → Except Problem Binary64
  | .real x => .ok x
  | .integer n => if (Binary64.ofInt n).isFinite then .ok (.ofInt n) else .error .floatType
  | .bool b => .ok (.ofInt (if b then 1 else 0))
  | .text s => readable (realOfChars ·.toList) s
  | _ => .error .floatType

def optReal : Json → Except Problem (Option Binary64)
  | .null => .ok none
  | v => (real v).map some

def falseWords : List (List Char) :=
  [['0'], ['f'], ['n'], ['n', 'o'], ['o', 'f', 'f'], ['f', 'a', 'l', 's', 'e']]

def trueWords : List (List Char) :=
  [['1'], ['t'], ['y'], ['o', 'n'], ['y', 'e', 's'], ['t', 'r', 'u', 'e']]

def boolOfInt (n : Int) : Except Problem Bool :=
  if n = 0 then .ok false else if n = 1 then .ok true else .error .boolParsing

def boolOfChars (cs : List Char) : Except Problem Bool :=
  let word := cs.map Char.toLower
  if falseWords.contains word then .ok false
  else if trueWords.contains word then .ok true
  else .error .boolParsing

def bool : Json → Except Problem Bool
  | .bool b => .ok b
  | .text s => readable (boolOfChars ·.toList) s
  | .integer n =>
    if -wordLimit ≤ n ∧ n < wordLimit then boolOfInt n else .error .boolType
  | .real x =>
    match intOfReal x with
    | .ok n => boolOfInt n
    | .error _ => .error .boolType
  | _ => .error .boolType

def oneOf (words : List String) : Json → Except Problem String
  | .text s => readable (fun s => if words.contains s then .ok s else .error .literal) s
  | _ => .error .literal

def list : Json → Except Problem (List Json)
  | .list items => .ok items
  | _ => .error .listType

end Tradepost.Lenient
