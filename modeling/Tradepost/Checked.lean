import Tradepost.Json.Value

/-!
# Checked values

What is read from outside may be wrong in several places at once. Everything
that is wrong is reported, each issue with its problem, the place of the value
and the value; one fault does not hide the next.
-/

namespace Tradepost

inductive Problem where
  | missing
  | stringType
  | stringUnicode
  | intType
  | intParsing
  | intParsingSize
  | intFromFloat
  | finiteNumber
  | floatType
  | floatParsing
  | boolType
  | boolParsing
  | enumeration
  | literal
  | greaterThan
  | greaterThanEqual
  | valueError
  | listType
  | modelType
  | modelAttributesType
  | jsonInvalid
deriving DecidableEq, Repr

def Problem.name : Problem → String
  | missing => "missing"
  | stringType => "string_type"
  | stringUnicode => "string_unicode"
  | intType => "int_type"
  | intParsing => "int_parsing"
  | intParsingSize => "int_parsing_size"
  | intFromFloat => "int_from_float"
  | finiteNumber => "finite_number"
  | floatType => "float_type"
  | floatParsing => "float_parsing"
  | boolType => "bool_type"
  | boolParsing => "bool_parsing"
  | enumeration => "enum"
  | literal => "literal_error"
  | greaterThan => "greater_than"
  | greaterThanEqual => "greater_than_equal"
  | valueError => "value_error"
  | listType => "list_type"
  | modelType => "model_type"
  | modelAttributesType => "model_attributes_type"
  | jsonInvalid => "json_invalid"

inductive Place where
  | field (name : String)
  | index (n : Nat)
deriving DecidableEq, Repr

/-- A problem with the place of the value, from the outside in, and the value
itself; a value that is missing is represented by the object it is missing in. -/
structure Issue where
  problem : Problem
  place : List Place := []
  value : Json := .null
deriving Repr

def Issue.under (step : Place) (i : Issue) : Issue := { i with place := step :: i.place }

/-! ## Collecting issues -/

structure Checked (α : Type) where
  outcome : Except (List Issue) α

namespace Checked

def ok {α : Type} (x : α) : Checked α := ⟨.ok x⟩

def fail {α : Type} (issues : List Issue) : Checked α := ⟨.error issues⟩

def map {α β : Type} (f : α → β) (x : Checked α) : Checked β := ⟨x.outcome.map f⟩

/-- Both parts; the issues of the first come before those of the second. -/
def both {α β : Type} (f : Checked (α → β)) (x : Checked α) : Checked β :=
  match f.outcome, x.outcome with
  | .ok f, .ok x => ok (f x)
  | .ok _, .error js => fail js
  | .error is, .ok _ => fail is
  | .error is, .error js => fail (is ++ js)

instance : Applicative Checked where
  pure := ok
  map := map
  seq f x := both f (x ())

def one {α : Type} (check : Json → Except Problem α) (v : Json) : Checked α :=
  ⟨(check v).mapError fun p => [{ problem := p, value := v }]⟩

def under {α : Type} (step : Place) (x : Checked α) : Checked α :=
  ⟨x.outcome.mapError (·.map (Issue.under step))⟩

def each {α : Type} (check : Json → Checked α) : Nat → List Json → Checked (List α)
  | _, [] => ok []
  | n, v :: rest => List.cons <$> (check v).under (.index n) <*> each check (n + 1) rest

def required {α : Type} (v : Json) (name : String) (check : Json → Checked α) : Checked α :=
  under (.field name) <|
    match v.field? name with
    | some x => check x
    | none => fail [{ problem := .missing, value := v }]

def optional {α : Type} (v : Json) (name : String) (default : α) (check : Json → Checked α) :
    Checked α :=
  match v.field? name with
  | some x => (check x).under (.field name)
  | none => ok default

end Checked

end Tradepost
