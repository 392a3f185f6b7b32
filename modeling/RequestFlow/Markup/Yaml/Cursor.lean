/-!
# A place in a YAML text

What is left of a text, with the line and the column it starts at. YAML breaks lines at more
characters than the newline, and tells blanks from breaks.
-/

namespace RequestFlow.Yaml

/-- What is left of a text, and where that is. -/
structure Cursor where
  rest : List Char
  line : Nat := 0
  column : Nat := 0
  index : Nat := 0

/-- A space or a tab. -/
def isSpace (c : Char) : Bool := c == ' ' || c == '\t'

/-- A character that ends a line. -/
def isBreak (c : Char) : Bool :=
  c == '\n' || c == '\r' || c == '\u0085' || c == '\u2028' || c == '\u2029'

/-- A space, a break or the end of the text. -/
def endsWord : Option Char → Bool
  | none => true
  | some c => isSpace c || isBreak c

/-- A character of names of anchors and tags. -/
def isNameChar (c : Char) : Bool := c.isAlphanum || c == '-' || c == '_'

/-- A character that a YAML text may hold. -/
def isAllowed (c : Char) : Bool :=
  let n := c.toNat
  n == 0x9 || n == 0xA || n == 0xD || (0x20 ≤ n && n ≤ 0x7E) || n == 0x85 ||
    (0xA0 ≤ n && n ≤ 0xD7FF) || (0xE000 ≤ n && n ≤ 0xFFFD) || 0x10000 ≤ n

namespace Cursor

/-- The character some places ahead. -/
def peek (c : Cursor) (ahead : Nat) : Option Char := c.rest[ahead]?

/-- The next character is this one. -/
def looksAt (c : Cursor) (ch : Char) : Bool := c.peek 0 == some ch

/-- The next character is a space. -/
def atSpace (c : Cursor) : Bool := (c.peek 0).any isSpace

/-- The next character is a break. -/
def atBreak (c : Cursor) : Bool := (c.peek 0).any isBreak

/-- Nothing is left. -/
def atEnd (c : Cursor) : Bool := c.rest.isEmpty

/-- Past some characters of the line. -/
def skip (c : Cursor) (count : Nat) : Cursor :=
  { c with
    rest := c.rest.drop count
    column := c.column + min count c.rest.length
    index := c.index + min count c.rest.length }

/-- Past a break; the break as it counts in a scalar. -/
def takeBreak (c : Cursor) : List Char × Cursor :=
  match c.rest with
  | '\r' :: '\n' :: rest => (['\n'], ⟨rest, c.line + 1, 0, c.index + 2⟩)
  | ch :: rest =>
    let kept := if ch == '\u2028' || ch == '\u2029' then ch else '\n'
    ([kept], ⟨rest, c.line + 1, 0, c.index + 1⟩)
  | [] => ([], c)

/-- Past the characters of the line for which a test holds. -/
def skipWhile (c : Cursor) (p : Char → Bool) : Cursor := c.skip (c.rest.takeWhile p).length

/-- The three characters of a mark, and then the end of a word. -/
def atMark (c : Cursor) (ch : Char) : Bool :=
  c.column == 0 && c.peek 0 == some ch && c.peek 1 == some ch && c.peek 2 == some ch &&
    endsWord (c.peek 3)

/-- The cursor stands at a line that starts or ends a document. -/
def atDocumentMark (c : Cursor) : Bool := c.atMark '-' || c.atMark '.'

/-- Past a comment, if there is one, up to the end of its line. -/
def skipComment (c : Cursor) : Cursor :=
  if c.looksAt '#' then c.skipWhile fun ch => !isBreak ch else c

end Cursor

end RequestFlow.Yaml
