/-!
# Offer ids

An id is a random prefix of letters, a uuid, and the version of the node
without its dots, joined by dashes. The prefix lets a user quote an offer by
its first letters.
-/

namespace Tradepost

def prefixAlphabet : List Char :=
  "abcdefghijklmnopqrstuvwxyzABCDEFGHIJKLMNOPQRSTUVWXYZ".toList

structure IdFormat where
  minPrefix : Nat
  maxPrefix : Nat
  tag : List Char
deriving Repr, DecidableEq

namespace IdFormat

def versionTag (version : String) : List Char := version.toList.filter (· ≠ '.')

def make? (version : String) (least most : Int) : Option IdFormat :=
  if 0 < least ∧ least ≤ most then
    some { minPrefix := least.toNat, maxPrefix := most.toNat, tag := versionTag version }
  else none

def letter (draw : Int) : Char :=
  prefixAlphabet.getD (draw % (prefixAlphabet.length : Int)).toNat 'a'

def prefixLength (f : IdFormat) (draw : Int) : Nat :=
  f.minPrefix + (draw % ((f.maxPrefix - f.minPrefix + 1 : Nat) : Int)).toNat

def join (letters uuid tag : List Char) : String :=
  String.ofList (letters ++ '-' :: uuid ++ '-' :: tag)

/-- The id that comes from a uuid and the draws from the front of the list: one
for the length of the prefix, then one for each of its letters. Also the draws
that are left. -/
def next (f : IdFormat) (uuid : List Char) (draws : List Int) : String × List Int :=
  let n := f.prefixLength (draws.headD 0)
  let letters := (draws.tail.take n).map letter
  (join letters uuid f.tag, draws.tail.drop n)

end IdFormat

end Tradepost
