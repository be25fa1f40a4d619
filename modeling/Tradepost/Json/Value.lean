import Tradepost.Number.Binary64Text
import Tradepost.Text.Quote

/-!
# JSON values

Whole numbers and numbers with a point or an exponent stay apart, and the
fields of an object keep the order in which their names first appeared.
-/

namespace Tradepost

inductive Json where
  | null
  | bool (b : Bool)
  | integer (n : Int)
  | real (x : Binary64)
  | text (s : String)
  | list (items : List Json)
  | object (fields : List (String × Json))
deriving Repr, Inhabited

namespace Json

def field? : Json → String → Option Json
  | object fields, name => fields.lookup name
  | _, _ => none

/-- Sets a field; a name already there keeps its place. -/
def setField (name : String) (v : Json) : List (String × Json) → List (String × Json)
  | [] => [(name, v)]
  | (n, w) :: rest => if n = name then (n, v) :: rest else (n, w) :: setField name v rest

/-- Counts as nothing where a value may be left out: null, false, zero, and the
empty text, list or object. -/
def isBlank : Json → Bool
  | null => true
  | bool b => !b
  | integer n => n == 0
  | real x => x.isZero
  | text s => s.isEmpty
  | list items => items.isEmpty
  | object fields => fields.isEmpty

def optText : Option String → Json
  | none => null
  | some s => text s

/-! ## Sending -/

mutual

def isSendable : Json → Bool
  | real x => x.isFinite
  | text s => Text.isSendable s
  | list items => allSendable items
  | object fields => fieldsSendable fields
  | _ => true

def allSendable : List Json → Bool
  | [] => true
  | v :: rest => v.isSendable && allSendable rest

def fieldsSendable : List (String × Json) → Bool
  | [] => true
  | (name, v) :: rest => Text.isSendable name && v.isSendable && fieldsSendable rest

end

/-! ## Messages -/

mutual

def shownInside : Json → String
  | null => "None"
  | bool b => if b then "True" else "False"
  | integer n => toString n
  | real x => x.toText
  | text s => Text.quoted s
  | list items => "[" ++ ", ".intercalate (shownItems items) ++ "]"
  | object fields => "\x7b" ++ ", ".intercalate (shownFields fields) ++ "\x7d"

def shownItems : List Json → List String
  | [] => []
  | v :: rest => shownInside v :: shownItems rest

def shownFields : List (String × Json) → List String
  | [] => []
  | (name, v) :: rest => (Text.quoted name ++ ": " ++ shownInside v) :: shownFields rest

end

/-- The value as a message shows it: a text as it is, anything else as inside a list. -/
def shown : Json → String
  | text s => s
  | v => shownInside v

end Json

end Tradepost
