import RequestFlow.Number.Literal
import RequestFlow.Run.Reply

/-!
# The verdict on a reply

A reply is good when every condition on it holds; otherwise the first condition that does not hold
says what is wrong. The conditions, in order: a response came; its status is no error, unless the
step says which status it expects; the checks could be made and all passed; the status and the
code are the expected ones.

* `Reply.fault?`: the first condition that does not hold;
* `Reply.verdict`: the verdict that follows from it.
-/

namespace RequestFlow

/-- What is wrong with a reply. -/
inductive ReplyFault where
  | transport (message : String)
  | noResponse
  | errorStatus (status : String)
  | script (message : String)
  | test (name : String) (detail : Option String)
  | wrongStatus (expected status : String)
  | malformedCode (expected : String)
  | wrongCode (expected code : Nat)
deriving DecidableEq, Repr

/-- The wording of a fault. -/
def ReplyFault.message : ReplyFault → String
  | transport message => message
  | noResponse => "no response received"
  | errorStatus status => "request failed with status " ++ status
  | script message => "script error: " ++ message
  | test name none => "test '" ++ name ++ "' failed"
  | test name (some detail) => "test '" ++ name ++ "' failed: " ++ detail
  | wrongStatus expected status =>
    "expected status '" ++ expected ++ "', got '" ++ status ++ "'"
  | malformedCode expected => "invalid expected status code '" ++ expected ++ "'"
  | wrongCode expected code =>
    "expected status code " ++ toString expected ++ ", got " ++ toString code

/-- What becomes of a step. -/
inductive Status where
  | succeeded | failed | skipped | canceled
deriving DecidableEq, Repr, Inhabited

/-- A status as it is written. -/
def Status.text : Status → String
  | succeeded => "succeeded"
  | failed => "failed"
  | skipped => "skipped"
  | canceled => "canceled"

namespace Response

/-- The status line, or the code where the line is blank. -/
def statusText (response : Response) : String :=
  if Text.isBlankText response.status then toString response.code else response.status

/-- The code tells of an error: from 400 on, and in gRPC everything but zero. -/
def isError (response : Response) : Bool :=
  match response.protocol with
  | .grpc => response.code != 0
  | .http | .graphql => 400 ≤ response.code

/-- The status line is the expected one, up to ASCII case and the blanks around it. -/
def hasStatus (response : Response) (expected : String) : Bool :=
  (Text.trim response.status.toList).map Char.toLower ==
    (Text.trim expected.toList).map Char.toLower

end Response

/-- A status code as it is written: decimal digits, with or without a plus sign and blanks around
them, for a number of at most 16 bits. -/
def statusCode? (text : String) : Option Nat :=
  let core := Text.trim text.toList
  let digits := if core.head? = some '+' then core.tail else core
  if digits.isEmpty || !digits.all Char.isDigit then none
  else (some (Number.digitsValue digits)).filter (· < Nat.pow 2 16)

/-- The detail of a failed check, if it says something. -/
def TestResult.fault (test : TestResult) : ReplyFault :=
  .test test.name (Text.nonBlank? test.message)

namespace RequestStep

/-- What the step has against the status of a response. -/
def statusFault? (step : RequestStep) (response : Response) : Option ReplyFault :=
  step.expectedStatus.bind fun expected =>
    if response.hasStatus expected then none
    else some (.wrongStatus expected response.statusText)

/-- What the step has against the code of a response. -/
def codeFault? (step : RequestStep) (response : Response) : Option ReplyFault :=
  step.expectedCode.bind fun expected =>
    match statusCode? expected with
    | none => some (.malformedCode expected)
    | some code => if code = response.code then none else some (.wrongCode code response.code)

/-- What the step has against a response. -/
def fault? (step : RequestStep) (response : Response) : Option ReplyFault :=
  (step.statusFault? response).or (step.codeFault? response)

end RequestStep

namespace Reply

/-- An error status that the step does not expect. -/
def errorFault? (step : Option RequestStep) (response : Response) : Option ReplyFault :=
  if !(step.any RequestStep.expectsStatus) && response.isError then
    some (.errorStatus response.statusText)
  else none

/-- What the checks have against a reply. -/
def checkFault? (reply : Reply) : Option ReplyFault :=
  match reply.scriptError with
  | some message => some (.script message)
  | none => (reply.tests.find? fun test => !test.passed).map TestResult.fault

/-- What is wrong with a response to a step; a branch has no step of its own to go by. -/
def responseFault? (reply : Reply) (step : Option RequestStep) (response : Response) :
    Option ReplyFault :=
  (errorFault? step response).or
    (reply.checkFault?.or (step.bind fun step => step.fault? response))

/-- What is wrong with a reply. -/
def fault? (reply : Reply) (step : Option RequestStep) : Option ReplyFault :=
  match reply.error with
  | some message => some (.transport message)
  | none =>
    match reply.response with
    | none => some .noResponse
    | some response => reply.responseFault? step response

end Reply

/-- The verdict on a reply. -/
structure Verdict where
  status : Status
  statusText : String
  message : String
  duration : Duration
  error : Option String
deriving DecidableEq, Repr

namespace Reply

/-- The response that counts: a transport that failed brings none. -/
def effective? (reply : Reply) : Option Response :=
  if reply.error.isSome then none else reply.response

/-- The verdict on a reply that came after `clock`. -/
def verdict (reply : Reply) (step : Option RequestStep) (clock : Duration) : Verdict :=
  let statusText := (reply.effective?.map Response.statusText).getD "error"
  let duration := ((reply.effective?.bind Response.duration).map Duration.micros).getD clock
  match reply.fault? step with
  | some fault => ⟨.failed, statusText, fault.message, duration, some fault.message⟩
  | none =>
    let message :=
      if reply.tests.isEmpty then "" else toString reply.tests.length ++ " test(s) passed"
    ⟨.succeeded, statusText, message, duration, none⟩

/-- A reply is classified as a success or a failure. -/
theorem status_verdict (reply : Reply) (step : Option RequestStep) (clock : Duration) :
    (reply.verdict step clock).status = .succeeded ∨
      (reply.verdict step clock).status = .failed := by
  unfold verdict
  split
  · exact .inr rfl
  · exact .inl rfl

end Reply

end RequestFlow
