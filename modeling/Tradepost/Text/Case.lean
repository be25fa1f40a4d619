import Tradepost.Text.CaseTable

/-!
# Upper and lower case

Full case mapping: one character may become several, and a capital sigma at
the end of a word has a lower case of its own.
-/

namespace Tradepost.Text

def runShift? (runs : List (Nat × Nat × Nat × Int)) (n : Nat) : Option Int :=
  (runs.find? fun (first, last, stride, _) =>
    first ≤ n && n ≤ last && (n - first) % stride == 0).map fun (_, _, _, shift) => shift

def mapCase (runs : List (Nat × Nat × Nat × Int)) (long : List (Nat × List Nat)) (c : Char) :
    List Char :=
  match runShift? runs c.toNat with
  | some shift => [Char.ofNat ((c.toNat : Int) + shift).toNat]
  | none =>
    match long.lookup c.toNat with
    | some ns => ns.map Char.ofNat
    | none => [c]

def upperChar (c : Char) : List Char :=
  if c.toNat < 128 then [c.toUpper] else mapCase upperRuns upperLong c

def lowerChar (c : Char) : List Char :=
  if c.toNat < 128 then [c.toLower] else mapCase lowerRuns lowerLong c

def inRanges (ranges : List (Nat × Nat)) (c : Char) : Bool :=
  ranges.any fun (first, last) => first ≤ c.toNat && c.toNat ≤ last

def meetsCased (cs : List Char) : Bool :=
  match cs.dropWhile (inRanges caseIgnorableRanges) with
  | c :: _ => inRanges casedRanges c
  | [] => false

def capitalSigma : Char := Char.ofNat 0x3a3

/-- Lower case from the first character on; `before` holds the characters
already passed, nearest first. -/
def lowerFrom (before : List Char) : List Char → List Char
  | [] => []
  | c :: rest =>
    (if c = capitalSigma then
      if meetsCased before && !meetsCased rest then [Char.ofNat 0x3c2] else [Char.ofNat 0x3c3]
    else lowerChar c) ++ lowerFrom (c :: before) rest

def upper (s : String) : String := String.ofList (s.toList.flatMap upperChar)

def lower (s : String) : String := String.ofList (lowerFrom [] s.toList)

end Tradepost.Text
