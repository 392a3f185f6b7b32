/-!
# Faults of notation

Where a JSON text breaks the rules, and how the fault is told: by its cause, its line and its
column, a column counting the bytes of the line's text in UTF-8.
-/

namespace RequestFlow

/-- What is wrong with a JSON text. -/
inductive Fault.Cause where
  | endInList | endInObject | endInString | endInValue
  | expectedColon | expectedListCommaOrEnd | expectedObjectCommaOrEnd
  | expectedIdent | expectedValue
  | invalidEscape | invalidNumber | numberOutOfRange
  | controlCharacter | keyMustBeString | loneSurrogate | unfinishedSurrogate
  | trailingComma | trailingCharacters | tooDeep
deriving DecidableEq, Repr

/-- The wording of a cause. -/
def Fault.Cause.message : Fault.Cause → String
  | endInList => "EOF while parsing a list"
  | endInObject => "EOF while parsing an object"
  | endInString => "EOF while parsing a string"
  | endInValue => "EOF while parsing a value"
  | expectedColon => "expected `:`"
  | expectedListCommaOrEnd => "expected `,` or `]`"
  | expectedObjectCommaOrEnd => "expected `,` or `\x7d`"
  | expectedIdent => "expected ident"
  | expectedValue => "expected value"
  | invalidEscape => "invalid escape"
  | invalidNumber => "invalid number"
  | numberOutOfRange => "number out of range"
  | controlCharacter => "control character (\\u0000-\\u001F) found while parsing a string"
  | keyMustBeString => "key must be a string"
  | loneSurrogate => "lone leading surrogate in hex escape"
  | unfinishedSurrogate => "unexpected end of hex escape"
  | trailingComma => "trailing comma"
  | trailingCharacters => "trailing characters"
  | tooDeep => "recursion limit exceeded"

/-- A cause, and the place of it: `ahead` bytes into the text that was left. -/
structure Fault where
  cause : Fault.Cause
  rest : List Char
  ahead : Nat
deriving Repr

namespace Fault

/-- The size of a text in UTF-8. -/
def byteLength (cs : List Char) : Nat := cs.foldl (fun n c => n + c.utf8Size) 0

/-- Line and column after the first `bytes` bytes of a text, a column counting bytes. -/
def position : List Char → Nat → Nat → Nat → Nat × Nat
  | [], _, line, column => (line, column)
  | c :: cs, bytes, line, column =>
    if bytes = 0 then (line, column)
    else if bytes < c.utf8Size then (line, column + bytes)
    else if c = '\n' then position cs (bytes - 1) (line + 1) 0
    else position cs (bytes - c.utf8Size) line (column + c.utf8Size)

/-- The line and column of a fault in a text. -/
def place (text : List Char) (fault : Fault) : Nat × Nat :=
  position text (byteLength text - byteLength fault.rest + fault.ahead) 1 0

/-- A cause, with the line and the column of it. -/
structure Located where
  cause : Cause
  line : Nat
  column : Nat
deriving DecidableEq, Repr

/-- A fault with its place in the whole text. -/
def locate (text : List Char) (fault : Fault) : Located :=
  let (line, column) := fault.place text
  ⟨fault.cause, line, column⟩

/-- A located fault in words. -/
def Located.message (fault : Located) : String :=
  fault.cause.message ++ " at line " ++ toString fault.line ++ " column " ++ toString fault.column

end Fault

end RequestFlow
