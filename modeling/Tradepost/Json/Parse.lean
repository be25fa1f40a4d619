import Tradepost.Json.Value
import Tradepost.Number.WholeText

/-!
# Reading JSON

The reader walks over a list of characters. What it reports of a malformed
text is the rest of the text at the place of the fault; the distance of that
place from the start follows from the lengths.

Beyond the standard it takes `NaN`, `Infinity` and `-Infinity`, and it refuses
whole numbers with too many digits and values nested too deeply.
-/

namespace Tradepost.Json

open Text

inductive ParseFault where
  | malformed (rest : List Char)
  | tooLong
  | tooDeep

def isSpace (c : Char) : Bool := c = ' ' || c = '\t' || c = '\n' || c = '\r'

def skipSpace (cs : List Char) : List Char := cs.dropWhile isSpace

def afterWord? : List Char → List Char → Option (List Char)
  | [], cs => some cs
  | _ :: _, [] => none
  | w :: ws, c :: cs => if w = c then afterWord? ws cs else none

/-! ## Texts -/

def hexValue? (c : Char) : Option Nat :=
  let n := c.toNat
  if 48 ≤ n ∧ n ≤ 57 then some (n - 48)
  else if 97 ≤ n ∧ n ≤ 102 then some (n - 87)
  else if 65 ≤ n ∧ n ≤ 70 then some (n - 55)
  else none

def hex4? : List Char → Option (Nat × List Char)
  | a :: b :: c :: d :: e :: rest => do
    let a ← hexValue? a
    let b ← hexValue? b
    let c ← hexValue? c
    let d ← hexValue? d
    pure (((a * 16 + b) * 16 + c) * 16 + d, e :: rest)
  | _ => none

def simpleEscape? : Char → Option Char
  | '"' => some '"'
  | '\\' => some '\\'
  | '/' => some '/'
  | 'b' => some (Char.ofNat 8)
  | 'f' => some (Char.ofNat 12)
  | 'n' => some '\n'
  | 'r' => some '\r'
  | 't' => some '\t'
  | _ => none

/-- The second half of a pair, when one follows. A second escape without four
hexadecimal digits is a fault where its `u` stands. -/
def lowHalf? : List Char → Except ParseFault (Option (Nat × List Char))
  | '\\' :: 'u' :: rest =>
    if rest.length < 5 then .ok none
    else
      match hex4? rest with
      | none => .error (.malformed ('u' :: rest))
      | some (n, rest') => .ok (if isLowSurrogate n then some (n, rest') else none)
  | _ => .ok none

def unicodeEscape (cs : List Char) : Except ParseFault (Nat × List Char) := do
  match hex4? cs with
  | none => .error (.malformed ('u' :: cs))
  | some (n, rest) =>
    if isHighSurrogate n then
      match ← lowHalf? rest with
      | some (m, rest') => pure (pairCode n m, rest')
      | none => pure (n, rest)
    else pure (n, rest)

/-- The characters of a text up to its closing quote. `start` is the text from
its opening quote on, `acc` holds the characters read, last one first. -/
def textBody (start : List Char) :
    Nat → List Char → List Char → Except ParseFault (String × List Char)
  | 0, _, _ => .error (.malformed start)
  | fuel + 1, acc, cs =>
    match cs with
    | [] => .error (.malformed start)
    | '"' :: rest => .ok (String.ofList acc.reverse, rest)
    | '\\' :: [] => .error (.malformed start)
    | '\\' :: 'u' :: rest => do
      let (n, rest') ← unicodeEscape rest
      textBody start fuel ((ofCodePoint n).reverse ++ acc) rest'
    | '\\' :: e :: rest =>
      match simpleEscape? e with
      | some c => textBody start fuel (c :: acc) rest
      | none => .error (.malformed cs)
    | c :: rest =>
      if c.toNat < 0x20 then .error (.malformed cs) else textBody start fuel (c :: acc) rest

/-! ## Numbers -/

def takeFraction : List Char → List Char × List Char
  | '.' :: cs =>
    let ds := cs.takeWhile Char.isDigit
    if ds.isEmpty then ([], '.' :: cs) else ('.' :: ds, cs.dropWhile Char.isDigit)
  | cs => ([], cs)

def takeExponent : List Char → List Char × List Char
  | mark :: cs =>
    if mark = 'e' ∨ mark = 'E' then
      let (sign, ds) := match cs with
        | '+' :: ds => (['+'], ds)
        | '-' :: ds => (['-'], ds)
        | ds => ([], ds)
      let size := ds.takeWhile Char.isDigit
      if size.isEmpty then ([], mark :: cs)
      else (mark :: sign ++ size, ds.dropWhile Char.isDigit)
    else ([], mark :: cs)
  | [] => ([], [])

def takeWhole : List Char → List Char × List Char
  | '0' :: cs => (['0'], cs)
  | cs => (cs.takeWhile Char.isDigit, cs.dropWhile Char.isDigit)

def number (cs : List Char) : Except ParseFault (Json × List Char) :=
  let (sign, rest) := match cs with
    | '-' :: rest => (['-'], rest)
    | rest => ([], rest)
  let (whole, rest) := takeWhole rest
  if whole.isEmpty then .error (.malformed cs)
  else
    let (fraction, rest) := takeFraction rest
    let (exponent, rest) := takeExponent rest
    if fraction.isEmpty && exponent.isEmpty then
      if Whole.maxDigits < whole.length then .error .tooLong
      else
        let n := ofDigits (whole.map fun c => c.toNat - 48)
        .ok (.integer (if sign.isEmpty then n else -(n : Int)), rest)
    else
      match Binary64.ofChars? (sign ++ whole ++ fraction ++ exponent) with
      | some x => .ok (.real x, rest)
      | none => .error (.malformed cs)

/-! ## Values -/

def words : List (List Char × Json) :=
  [("null".toList, .null), ("true".toList, .bool true), ("false".toList, .bool false),
    ("NaN".toList, .real .nan), ("Infinity".toList, .real (.infinity false)),
    ("-Infinity".toList, .real (.infinity true))]

def word? (cs : List Char) : Option (Json × List Char) :=
  words.findSome? fun (w, v) => (afterWord? w cs).map fun rest => (v, rest)

mutual

def value : Nat → Nat → List Char → Except ParseFault (Json × List Char)
  | 0, _, cs => .error (.malformed cs)
  | fuel + 1, levels, cs =>
    match cs with
    | '"' :: rest => do
      let (s, rest) ← textBody cs (rest.length + 1) [] rest
      pure (.text s, rest)
    | '\x7b' :: rest =>
      match levels, skipSpace rest with
      | 0, _ => .error .tooDeep
      | _ + 1, '\x7d' :: rest => .ok (.object [], rest)
      | levels + 1, rest => members fuel levels [] rest
    | '[' :: rest =>
      match levels, skipSpace rest with
      | 0, _ => .error .tooDeep
      | _ + 1, ']' :: rest => .ok (.list [], rest)
      | levels + 1, rest => elements fuel levels [] rest
    | cs =>
      match word? cs with
      | some found => .ok found
      | none => number cs

def members : Nat → Nat → List (String × Json) → List Char → Except ParseFault (Json × List Char)
  | 0, _, _, cs => .error (.malformed cs)
  | fuel + 1, levels, acc, cs =>
    match cs with
    | '"' :: rest => do
      let (name, rest) ← textBody cs (rest.length + 1) [] rest
      match skipSpace rest with
      | ':' :: rest => do
        let (v, rest) ← value fuel levels (skipSpace rest)
        let acc := setField name v acc
        match skipSpace rest with
        | '\x7d' :: rest => pure (.object acc, rest)
        | ',' :: rest => members fuel levels acc (skipSpace rest)
        | rest => .error (.malformed rest)
      | rest => .error (.malformed rest)
    | _ => .error (.malformed cs)

def elements : Nat → Nat → List Json → List Char → Except ParseFault (Json × List Char)
  | 0, _, _, cs => .error (.malformed cs)
  | fuel + 1, levels, acc, cs => do
    let (v, rest) ← value fuel levels cs
    match skipSpace rest with
    | ']' :: rest => pure (.list (v :: acc).reverse, rest)
    | ',' :: rest => elements fuel levels (v :: acc) (skipSpace rest)
    | rest => .error (.malformed rest)

end

inductive Malformed where
  | at (offset : Nat)
  | tooLong
  | tooDeep
  | undecodable

def parseChars (cs : List Char) (levels : Nat := cs.length) : Except Malformed Json :=
  let fault := fun rest : List Char => Malformed.at (size cs - size rest)
  match value (2 * cs.length + 2) levels (skipSpace cs) with
  | .error (.malformed rest) => .error (fault rest)
  | .error .tooLong => .error .tooLong
  | .error .tooDeep => .error .tooDeep
  | .ok (v, rest) =>
    match skipSpace rest with
    | [] => .ok v
    | rest => .error (fault rest)

def parse (s : String) (levels : Nat := s.length) : Except Malformed Json :=
  parseChars s.toList levels

end Tradepost.Json
