import RequestFlow.Document.Writing
import RequestFlow.Drive
import RequestFlow.Http.Address

/-!
# Calls over HTTP

A dispatch becomes a call when its templates are filled in: first that of the address, then those
of the headers, then that of the body. A GraphQL request becomes a call that posts its body as a
query. A call is checked before it is sent: its address, its method and its headers must be such
that they can be sent at all.

* `Call.ofDispatch`: the call of a dispatch;
* `Call.check`: what keeps a call from being sent;
* `Http.deliver`: what comes of a dispatch, over a given transport.
-/

namespace RequestFlow

/-- What is sent. -/
structure Call where
  method : String
  url : String
  headers : TextMap
  body : Option String
deriving DecidableEq

/-- What keeps a call from being sent. -/
inductive CallFault where
  | address (url : String)
  | method (text : String)
  | headerName (name : String)
  | headerValue (name : String)
  | scheme (url : String)
deriving DecidableEq, Repr

/-- The wording of a fault. -/
def CallFault.message : CallFault → String
  | address url => "invalid request url '" ++ url ++ "'"
  | method text => "invalid method '" ++ text ++ "': invalid HTTP method"
  | headerName name => "invalid header name '" ++ name ++ "': invalid HTTP header name"
  | headerValue name => "invalid value for header '" ++ name ++ "': failed to parse header value"
  | scheme url => "Network error: builder error for url (" ++ Address.shown url ++ ")"

namespace Call

/-! ## Preparing -/

/-- A header with this name is there, in whatever case. -/
def hasHeader (headers : TextMap) (name : String) : Bool :=
  headers.keys.any fun key => key.toList.map Char.toLower == name.toList.map Char.toLower

/-- The body that posts a query. -/
def queryBody (query : String) : String :=
  (Json.object [("query", .string query), ("variables", .object [])]).compact

/-- The headers of a query: they tell that the body is JSON, unless they tell what it is. -/
def queryHeaders (headers : TextMap) : TextMap :=
  if hasHeader headers "content-type" then headers
  else headers.insert "Content-Type" "application/json"

/-- The call of a dispatch; it fails for the first placeholder without a value. -/
def ofDispatch (dispatch : Dispatch) : Except UnknownVariable Call := do
  let request := dispatch.request
  let url ← Template.render dispatch.vars request.url
  let headers ← Template.renderMap dispatch.vars request.headers
  let body ←
    match request.body with
    | none => pure none
    | some body => (Template.render dispatch.vars body).map some
  match request.protocol with
  | .graphql => return ⟨"POST", url, queryHeaders headers, some (queryBody (body.getD ""))⟩
  | .http | .grpc => return ⟨request.method, url, headers, body⟩

/-- The request as it is sent. -/
def executed (call : Call) (request : Request) : Request :=
  { request with
    method := call.method, url := call.url, headers := call.headers, body := call.body }

/-! ## Checking -/

/-- A character of a token. -/
def isTokenChar (c : Char) : Bool := c.isAlphanum || "!#$%&'*+-.^_`|~".toList.contains c

/-- A token. -/
def isToken (cs : List Char) : Bool := !cs.isEmpty && cs.all isTokenChar

/-- A character whose capital form is made of characters of a token: beside these themselves, the
sharp s, the dotless i, the long s and the ligatures of Latin letters. -/
def isMethodChar (c : Char) : Bool :=
  isTokenChar c || Text.inRanges [(0xDF, 0xDF), (0x131, 0x131), (0x17F, 0x17F), (0xFB00, 0xFB06)] c

/-- A method is a token in capital letters; it may be written in small ones, and with blanks. -/
def isMethod (text : String) : Bool :=
  let core := Text.trim text.toList
  !core.isEmpty && core.all isMethodChar

/-- A character of a header's value: no control but the tab. -/
def isValueChar (c : Char) : Bool := c = '\t' || (32 ≤ c.toNat && c.toNat ≠ 127)

/-- What is wrong with a header. -/
def headerFault? (name value : String) : Option CallFault :=
  let core := Text.trim name.toList
  if !isToken core || 65535 < core.length then some (.headerName name)
  else if !(Text.trim value.toList).all isValueChar then some (.headerValue name)
  else none

/-- What is wrong with the address of a call; its blanks do not count. -/
def addressScheme (call : Call) : Except CallFault String :=
  match Address.scheme? (Text.trimmed call.url) with
  | some scheme => .ok scheme
  | none => .error (.address call.url)

/-- What keeps a call from being sent. -/
def check (call : Call) : Except CallFault Unit := do
  let scheme ← call.addressScheme
  if !isMethod call.method then throw (.method call.method)
  match call.headers.entries.findSome? fun entry => headerFault? entry.1 entry.2 with
  | some fault => throw fault
  | none => if scheme ∈ ["http", "https"] then return else throw (.scheme call.url)

end Call

namespace Http

/-- A transport: a response to a call, or why there is none. -/
abbrev Transport := Call → Except String Response

/-- The transport that brings nothing. -/
def Transport.absent : Transport := fun call =>
  .error ("Network error: error sending request for url (" ++ Address.shown call.url ++ ")")

/-- The reply to a call. -/
def reply (transport : Transport) (protocol : Protocol) (call : Call) : Reply :=
  match call.check with
  | .error fault => .failed fault.message
  | .ok () =>
    match transport call with
    | .error message => .failed message
    | .ok response => .ofResponse { response with protocol }

/-- What comes of a dispatch. The request is told as it was sent, once it could be prepared. -/
def deliver (transport : Transport) (dispatch : Dispatch) : Delivery :=
  let request := dispatch.request
  match request.protocol with
  | .grpc => dispatch.deliver (.failed "grpc transport is not available")
  | protocol =>
    match Call.ofDispatch dispatch with
    | .error e =>
      dispatch.deliver
        (.failed ("failed to prepare request: " ++ (EvalError.unknownVariable e.name).message))
    | .ok call =>
      { dispatch.deliver (reply transport protocol call) with request := call.executed request }

/-- The executor that sends over a transport. -/
def executor (transport : Transport) : Executor := fun _ dispatch =>
  ([], .delivers (deliver transport dispatch))

end Http

end RequestFlow
