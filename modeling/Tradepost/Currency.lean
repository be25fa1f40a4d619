import Tradepost.Text.Case

/-!
# Currencies

A price is a whole number of a currency's smallest unit: four decimal digits
for the fiat currencies the node trades, eight for everything else.
-/

namespace Tradepost

/-- The fiat currencies; any other code is a crypto currency. -/
def fiatCodes : List String := [
  "AED", "ARS", "AUD", "BDT", "BGN", "BRL", "CAD", "CHF", "CLP", "CNY",
  "COP", "CRC", "CZK", "DKK", "EGP", "EUR", "GBP", "GEL", "GHS", "HKD",
  "HUF", "IDR", "ILS", "INR", "JPY", "KES", "KRW", "KZT", "LKR", "MAD",
  "MXN", "MYR", "NGN", "NOK", "NZD", "PEN", "PHP", "PKR", "PLN", "RON",
  "RSD", "RUB", "SAR", "SEK", "SGD", "THB", "TRY", "TWD", "TZS", "UAH",
  "UGX", "USD", "UYU", "VES", "VND", "XAF", "XOF", "ZAR"]

namespace Currency

def isFiat (code : String) : Bool := fiatCodes.contains (Text.upper code)

def isCrypto (code : String) : Bool := !isFiat code

def fiatPrecision : Nat := 4

def cryptoPrecision : Nat := 8

def precision (code : String) : Nat :=
  if isCrypto code then cryptoPrecision else fiatPrecision

end Currency

end Tradepost
