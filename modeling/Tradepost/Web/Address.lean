import Tradepost.Number.WholeText
import Tradepost.Text.CodePoint
import Tradepost.Web.Host

/-!
# Addresses

The address of a request is a path with perhaps a query behind it. A scheme
and a host may stand in front of the path and a fragment at the end; neither
counts, but a host has to be one. Dot segments are resolved while escapes are
still escapes.
-/

namespace Tradepost

structure Address where
  path : String
  query : String
deriving DecidableEq, Repr

namespace Address

def maxLength : Nat := 65536

def isControl (c : Char) : Bool := c.toNat < 32 || c.toNat = 127

/-! ## Parts of an address -/

def splitScheme (cs : List Char) : List Char × List Char :=
  let (scheme, rest) := cs.span fun c => c.isAlphanum || c = '+' || c = '.' || c = '-'
  match rest with
  | ':' :: rest => if scheme.head?.all Char.isAlpha then (scheme, rest) else ([], cs)
  | _ => ([], cs)

/-- What stands between two slashes and the path, and the path. -/
def splitAuthority : List Char → List Char × List Char
  | '/' :: '/' :: cs => cs.span (· ≠ '/')
  | cs => ([], cs)

structure Authority where
  user : List Char
  host : List Char
  port : Option Int
deriving DecidableEq, Repr

namespace Authority

def isEmpty (a : Authority) : Bool := a.user.isEmpty && a.host.isEmpty && a.port.isNone

def splitHost (cs : List Char) : List Char × List Char :=
  if cs.head? = some '[' ∧ cs.contains ']' then
    let behind := cs.reverse.takeWhile (· ≠ ']')
    (cs.take (cs.length - behind.length), behind.reverse)
  else cs.span (· ≠ ':')

def ofPort? (cs : List Char) : Option (Option Int) :=
  if cs.isEmpty then some none else (Whole.ofString? (String.ofList cs)).map some

def ofChars? (cs : List Char) : Option Authority := do
  let (back, front) := cs.reverse.span (· ≠ '@')
  let (host, rest) := splitHost back.reverse
  let port ← ofPort? (if rest.head? = some ':' then rest.drop 1 else rest)
  if Host.isValid host then pure { user := (front.drop 1).reverse, host, port } else none

end Authority

/-! ## Paths -/

/-- The segments that are left when one dot stays where it is and two dots go back
by a segment, but not behind a leading slash. `passed` holds the segments so far,
the last one first. -/
def resolveDots : List (List Char) → List (List Char) → List (List Char)
  | passed, [] => passed.reverse
  | passed, ['.'] :: rest => resolveDots passed rest
  | passed, ['.', '.'] :: rest => resolveDots (if passed = [[]] then passed else passed.tail) rest
  | passed, segment :: rest => resolveDots (segment :: passed) rest

def resolved (path : List Char) : List Char :=
  List.intercalate ['/'] (resolveDots [] (path.splitOn '/'))

def rooted (path : List Char) : List Char := resolved ('/' :: path.dropWhile (· = '/'))

/-- A path without anything in front of it cannot start like a scheme or a host. -/
def isBarePath : List Char → Bool
  | '/' :: '/' :: _ => false
  | ':' :: _ => false
  | _ => true

def target? (scheme : List Char) (a : Authority) (path : List Char) : Option (List Char) :=
  if scheme.isEmpty && a.isEmpty then
    if isBarePath path then some (rooted path) else none
  else if scheme.isEmpty || a.host.isEmpty then some (rooted (resolved path))
  else some (resolved path)

/-! ## Reading -/

def ofChars? (cs : List Char) : Option Address := do
  let front := cs.takeWhile (· ≠ '#')
  let (scheme, rest) := splitScheme (front.takeWhile (· ≠ '?'))
  let (authority, path) := splitAuthority rest
  let path ← target? scheme (← Authority.ofChars? authority) path
  pure { path := if path.isEmpty then "/" else String.ofList path
         query := String.ofList ((front.dropWhile (· ≠ '?')).drop 1) }

def ofText? (s : String) : Option Address :=
  let cs := s.toList
  if Text.size cs ≤ maxLength ∧ !cs.any isControl then ofChars? cs else none

end Address

end Tradepost
