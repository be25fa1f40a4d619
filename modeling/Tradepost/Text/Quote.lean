import Tradepost.Text.CodePoint
import Tradepost.Text.PrintTable

/-!
# Quoted text

How a text is shown inside a list or an object in a message: in single
quotes unless only double quotes avoid an escape, with everything
unprintable escaped.
-/

namespace Tradepost.Text

def isPrintable (c : Char) : Bool :=
  if c.toNat < 127 then 32 ≤ c.toNat
  else !unprintableRanges.any fun (first, last) => first ≤ c.toNat && c.toNat ≤ last

def hex (width n : Nat) : List Char :=
  let ds := Nat.toDigits 16 n
  List.replicate (width - ds.length) '0' ++ ds

def quoteChar (quote c : Char) : List Char :=
  if c = quote || c = '\\' then ['\\', c]
  else if c = '\n' then ['\\', 'n']
  else if c = '\r' then ['\\', 'r']
  else if c = '\t' then ['\\', 't']
  else if isPrintable c then [c]
  else if c.toNat < 0x100 then '\\' :: 'x' :: hex 2 c.toNat
  else if c.toNat < 0x10000 then '\\' :: 'u' :: hex 4 c.toNat
  else '\\' :: 'U' :: hex 8 c.toNat

def quoteCode (quote : Char) (n : Nat) : List Char :=
  if isSurrogate n then '\\' :: 'u' :: hex 4 n else quoteChar quote (Char.ofNat n)

def quoted (s : String) : String :=
  let quote := if s.toList.contains '\'' && !s.toList.contains '"' then '"' else '\''
  String.ofList (quote :: (codePoints s.toList).flatMap (quoteCode quote) ++ [quote])

end Tradepost.Text
