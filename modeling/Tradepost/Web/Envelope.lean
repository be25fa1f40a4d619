import Tradepost.Failure
import Tradepost.Json.Value

/-!
# The envelope of an answer

Every answer of the offer endpoints carries a code, a message, the data, and
the id of the request it answers.
-/

namespace Tradepost

structure Envelope where
  code : Int := 0
  message : String := "success"
  data : Json := .null
  requestId : Option Json := none
deriving Repr

namespace Envelope

/-- The id a request came with; one that is left blank does not count. -/
def requestIdOf (sent : Option Json) : Option Json := sent.filter fun v => !v.isBlank

def success (data : Json) (requestId : Option Json) : Envelope :=
  { data, requestId := requestIdOf requestId }

def error (code : Int) (message : String) (requestId : Option Json) : Envelope :=
  { code, message, requestId := requestIdOf requestId }

def ofError (e : ServiceError) (requestId : Option Json) : Envelope :=
  error e.code e.message requestId

end Envelope

end Tradepost
