import Tradepost.Number.WholeText

/-!
# Uuids

A uuid is a number of 128 bits. Its canonical text has 32 lower-case
hexadecimal digits in five groups; other spellings have braces around it, a
scheme in front of it, or dashes elsewhere.
-/

namespace Tradepost.Uuid

def without (word : List Char) : List Char → List Char
  | [] => []
  | c :: cs =>
    if word.isPrefixOf (c :: cs) then without word (cs.drop (word.length - 1))
    else c :: without word cs
termination_by cs => cs.length
decreasing_by all_goals (simp only [List.length_drop, List.length_cons]; omega)

def canonical (n : Nat) : List Char :=
  let ds := Nat.toDigits 16 n
  let ds := List.replicate (32 - ds.length) '0' ++ ds
  let group := fun (start len : Nat) => (ds.drop start).take len
  group 0 8 ++ '-' :: group 8 4 ++ '-' :: group 12 4 ++ '-' :: group 16 4 ++ '-' :: group 20 12

def ofString? (s : String) : Option (List Char) := do
  let cs := without "uuid:".toList (without "urn:".toList s.toList)
  let cs := (Text.trimBoth (fun c => c = '\x7b' || c = '\x7d') cs).filter (· ≠ '-')
  let n ← Whole.ofHex? cs
  if cs.length = 32 ∧ 0 ≤ n then pure (canonical n.toNat) else none

end Tradepost.Uuid
