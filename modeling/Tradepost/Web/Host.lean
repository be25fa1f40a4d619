import Tradepost.Json.Parse

/-!
# Hosts

A host is a name, an address of four numbers, or in brackets one of eight
groups of hexadecimal digits, of which a run of zeros may be left out.
-/

namespace Tradepost

namespace Host

def isOctet (cs : List Char) : Bool :=
  !cs.isEmpty && cs.length ≤ 3 && cs.all Char.isDigit
    && (cs.length = 1 || cs.head? ≠ some '0')
    && cs.foldl (fun n c => n * 10 + (c.toNat - '0'.toNat)) 0 < 256

def isFourOctets (cs : List Char) : Bool :=
  let parts := cs.splitOn '.'
  parts.length = 4 && parts.all isOctet

/-- Runs of digits with one character between two of them; `more` runs follow
the first. -/
def isRuns : Nat → List Char → Bool
  | 0, cs => !cs.isEmpty && cs.all Char.isDigit
  | more + 1, c :: d :: rest =>
    c.isDigit && (isRuns more rest || isRuns (more + 1) (d :: rest))
  | _, _ => false

def isGroup (cs : List Char) : Bool := cs.length ≤ 4 && cs.all fun c => (Json.hexValue? c).isSome

/-- The groups of an address with colons between them; four octets at its end
stand for two groups. -/
def groups? (cs : List Char) : Option (List (List Char)) :=
  let parts := cs.splitOn ':'
  match parts.getLast? with
  | some last =>
    if !last.contains '.' then some parts
    else if isFourOctets last then some (parts.dropLast ++ [['0'], ['0']])
    else none
  | none => none

/-- Eight groups; two colons together stand for one group of zeros or more. -/
def isEightGroups (cs : List Char) : Bool :=
  match groups? cs with
  | none => false
  | some groups =>
    let inner := (groups.drop 1).dropLast
    groups.all isGroup && 3 ≤ (cs.splitOn ':').length &&
      match inner.idxOf? [] with
      | none => groups.length = 8 && groups.all (!·.isEmpty)
      | some k =>
        let before := groups.take (k + 1)
        let behind := groups.drop (k + 2)
        let written := (before.filter (!·.isEmpty)).length + (behind.filter (!·.isEmpty)).length
        inner.count [] = 1 && groups.length ≤ 9 && written ≤ 7
          && (before.head? ≠ some [] || before.length = 1)
          && (behind.getLast? ≠ some [] || behind.length = 1)

def isBracketed (cs : List Char) : Bool :=
  let zone := cs.dropWhile (· ≠ '%')
  isEightGroups (cs.takeWhile (· ≠ '%'))
    && (zone.isEmpty || (1 < zone.length && !(zone.drop 1).contains '%'))

/-- Whether a text can be a host. What looks like four numbers has to be an address. -/
def isValid (cs : List Char) : Bool :=
  if isRuns 3 cs then isFourOctets cs
  else if cs.head? = some '[' ∧ 1 < cs.length ∧ cs.getLast? = some ']' then
    isBracketed (cs.drop 1).dropLast
  else true

end Host

end Tradepost
