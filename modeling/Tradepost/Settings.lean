import Tradepost.Account
import Tradepost.Json.Parse
import Tradepost.Web.Request

/-!
# Settings

A node is set up from environment variables. Their names are matched in any
letter case; the payment accounts are a JSON list.
-/

namespace Tradepost

open Checked Lenient

structure AccountConfig where
  id : String
  method : String
  currencies : List String
  country : Option String
  bank : Option String
deriving DecidableEq, Repr

namespace AccountConfig

def currencyList (v : Json) : Checked (List String) :=
  match list v with
  | .ok items => each (one text) 0 items
  | .error p => fail [{ problem := p, value := v }]

def fields (v : Json) : Checked AccountConfig :=
  AccountConfig.mk
    <$> required v "id" (one text)
    <*> required v "payment_method_id" (one text)
    <*> required v "trade_currency_codes" currencyList
    <*> optional v "country_code" none (one optText)
    <*> optional v "bank_id" none (one optText)

def read (v : Json) : Checked AccountConfig := ofObject .modelType fields v

def account (c : AccountConfig) : PaymentAccount where
  id := c.id
  method := c.method
  currencies := c.currencies.map Text.upper
  country := c.country
  bank := c.bank

end AccountConfig

structure Settings where
  password : String
  fingerprint : String
  version : String
  accounts : List AccountConfig
  appName : String
  logLevel : String
  debug : Bool
deriving DecidableEq, Repr

namespace Settings

def maxDepth : Nat := 975

inductive Fault where
  | notJson
  | tooDeep
  | issues (issues : List Issue)

/-- The variables by lower-case name, a later one replacing an earlier one. -/
def environment (env : List (String × String)) : OrderedMap String String :=
  OrderedMap.ofList (env.map fun (name, value) => (Text.lower name, value))

def object (env : List (String × String)) (accounts : Option Json) : Json :=
  let vars := environment env
  let plain := ["API_PASSWORD", "NODE_FINGERPRINT", "APP_VERSION", "APP_NAME", "LOG_LEVEL", "DEBUG"]
  .object ((plain.filterMap fun name => (vars.get? (Text.lower name)).map fun s => (name, .text s))
    ++ match accounts with
      | none => []
      | some v => [("PAYMENT_ACCOUNTS", v)])

def accountList (v : Json) : Checked (List AccountConfig) :=
  match list v with
  | .ok items => each AccountConfig.read 0 items
  | .error p => fail [{ problem := p, value := v }]

def fields (v : Json) : Checked Settings :=
  Settings.mk
    <$> required v "API_PASSWORD" (one text)
    <*> optional v "NODE_FINGERPRINT" "local-node" (one text)
    <*> optional v "APP_VERSION" "1.7.0" (one text)
    <*> optional v "PAYMENT_ACCOUNTS" [] accountList
    <*> optional v "APP_NAME" "Offer Service" (one text)
    <*> optional v "LOG_LEVEL" "INFO" (one text)
    <*> optional v "DEBUG" false (one bool)

def accountsJson (env : List (String × String)) : Except Fault (Option Json) :=
  match (environment env).get? (Text.lower "PAYMENT_ACCOUNTS") with
  | none => .ok none
  | some s =>
    match Json.parse s maxDepth with
    | .ok .null => .ok none
    | .ok v => .ok (some v)
    | .error .tooDeep => .error .tooDeep
    | .error _ => .error .notJson

def read (env : List (String × String)) : Except Fault Settings := do
  let accounts ← accountsJson env
  (fields (object env accounts)).outcome.mapError .issues

end Settings

end Tradepost
