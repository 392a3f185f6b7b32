import RequestFlow.Document.Basic

/-!
# Replies

What comes back for a request that was sent: a response, or an error of the transport, and what
the checks that the request carries made of it.
-/

namespace RequestFlow

/-- How long something took. -/
inductive Duration where
  /-- A known number of microseconds. -/
  | micros (n : Nat)
  /-- What a clock showed between the sending of a request and its reply. -/
  | elapsed
deriving DecidableEq, Repr, Inhabited

namespace Duration

/-- No time at all. -/
def zero : Duration := micros 0

/-- Whole milliseconds as text; a clock's reading stands as `<wall>`. -/
def text : Duration → String
  | micros n => toString (n / 1000)
  | elapsed => "<wall>"

end Duration

/-- A response, as far as a verdict on it goes. -/
structure Response where
  code : Nat
  status : String
  protocol : Protocol := .http
  body : String := ""
  /-- How long the exchange took, if that is known. -/
  duration : Option Nat := none
deriving DecidableEq, Repr, Inhabited

/-- The result of one check on a response. -/
structure TestResult where
  name : String
  passed : Bool
  message : Option String := none
deriving DecidableEq, Repr, Inhabited

/-- What comes back for a request. -/
structure Reply where
  response : Option Response := none
  /-- Why nothing came over the transport. -/
  error : Option String := none
  tests : List TestResult := []
  /-- Why the checks could not be made. -/
  scriptError : Option String := none
deriving DecidableEq, Repr, Inhabited

namespace Reply

/-- The reply of a transport that failed. -/
def failed (message : String) : Reply := { error := some message }

/-- The reply of a transport that brought a response. -/
def ofResponse (response : Response) : Reply := { response := some response }

end Reply

end RequestFlow
