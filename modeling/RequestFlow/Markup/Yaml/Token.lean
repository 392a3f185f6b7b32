import RequestFlow.Markup.Yaml.Scalar

/-!
# The tokens of YAML

Structure in YAML is told by indentation and by single characters. A block collection opens where
a line is indented deeper than its parent and closes where one is not. The key of a mapping is
known for a key only at the colon after it, so each token that may turn out to be a key is
remembered, and the tokens that open the mapping and the key are put in front of it later.

When the text breaks the rules, the tokens before the first one that might still have become a key
are what it says.
-/

namespace RequestFlow.Yaml

/-- A token. -/
inductive Token where
  | versionDirective (major minor : Nat)
  | tagDirective (handle mark : String)
  | documentStart | documentEnd | streamEnd
  | blockSequenceStart | blockMappingStart | blockEnd
  | flowSequenceStart | flowSequenceEnd | flowMappingStart | flowMappingEnd
  | blockEntry | flowEntry | key | value
  | alias (name : String)
  | anchor (name : String)
  | tag (handle suffix : String)
  | scalar (bare : Bool) (text : List Char)
deriving DecidableEq

/-- A token that may turn out to be a key. -/
structure Candidate where
  /-- It must be a key, since it stands at the indentation of a mapping. -/
  required : Bool
  /-- The place of the token. -/
  token : Nat
  line : Nat
  column : Nat
  index : Nat

/-- The state of the scan. -/
structure Scanner where
  cursor : Cursor
  tokens : Array Token := #[]
  indent : Int := -1
  indents : List Int := []
  /-- How many flow collections are open. -/
  flow : Nat := 0
  /-- A key may start here. -/
  keyAllowed : Bool := true
  /-- The candidate of each level of flow collections, the innermost first. -/
  candidates : List (Option Candidate) := [none]
  /-- Nothing more is to be scanned. -/
  finished : Bool := false

namespace Scanner

/-- A step of the scan; nothing when the text breaks the rules. -/
abbrev Step := Scanner → Option Scanner

/-- Adds a token at the end. -/
def push (s : Scanner) (token : Token) : Scanner := { s with tokens := s.tokens.push token }

/-- Adds a token in front of another. -/
def insertAt (s : Scanner) (place : Nat) (token : Token) : Scanner :=
  { s with tokens := s.tokens.insertIdxIfInBounds place token }

/-- Forgets the candidate of this level, unless it had to be a key. -/
def dropCandidate : Step := fun s =>
  match s.candidates with
  | some candidate :: rest => if candidate.required then none else some { s with candidates := none :: rest }
  | _ => some s

/-- Remembers that the next token may be a key. -/
def saveCandidate : Step := fun s =>
  if s.keyAllowed then do
    let s ← s.dropCandidate
    let candidate : Candidate := {
      required := s.flow == 0 && s.indent == s.cursor.column
      token := s.tokens.size
      line := s.cursor.line
      column := s.cursor.column
      index := s.cursor.index }
    return { s with candidates := some candidate :: s.candidates.tail }
  else some s

/-- Forgets the candidates that a key cannot reach back to: a key stays on one line and within
1024 characters. -/
def dropStale : Step := fun s => do
  let candidates ← s.candidates.mapM fun
    | some candidate =>
      if candidate.line < s.cursor.line || candidate.index + 1024 < s.cursor.index then
        if candidate.required then none else some none
      else some (some candidate)
    | none => some none
  return { s with candidates }

/-- Opens a block collection at a column that is deeper than the indentation. -/
def rollIndent (s : Scanner) (column : Nat) (place : Option Nat) (token : Token) : Scanner :=
  if s.flow == 0 && s.indent < column then
    let s := { s with indents := s.indent :: s.indents, indent := column }
    match place with
    | some place => s.insertAt place token
    | none => s.push token
  else s

/-- Closes the block collections that are deeper than a column. -/
def unrollIndent (column : Int) (s : Scanner) : Scanner :=
  if s.flow == 0 then
    let closed := (s.indent :: s.indents).takeWhile (column < ·)
    let kept := (s.indent :: s.indents).dropWhile (column < ·)
    { s with
      tokens := closed.foldl (fun tokens _ => tokens.push .blockEnd) s.tokens
      indent := kept.head?.getD (-1)
      indents := kept.tail }
  else s

/-- Past a number of characters. -/
def skip (s : Scanner) (count : Nat) : Scanner := { s with cursor := s.cursor.skip count }

/-- Spaces, comments and line breaks up to the next token. -/
def toNextToken : Nat → Scanner → Scanner
  | 0, s => s
  | fuel + 1, s =>
    let tabs := s.flow != 0 || !s.keyAllowed
    let c := (s.cursor.skipWhile fun ch => ch == ' ' || tabs && ch == '\t').skipComment
    if c.atBreak then
      let c := c.takeBreak.2
      toNextToken fuel { s with cursor := c, keyAllowed := s.keyAllowed || s.flow == 0 }
    else { s with cursor := c }

/-- The end of the text. -/
def streamEnd : Step := fun s => do
  let s ← (s.unrollIndent (-1)).dropCandidate
  return { s.push .streamEnd with keyAllowed := false, finished := true }

/-- The start or the end of a document. -/
def documentMark (token : Token) : Step := fun s => do
  let s ← (s.unrollIndent (-1)).dropCandidate
  return ({ s with keyAllowed := false }.skip 3).push token

/-- The start of a flow collection. -/
def flowStart (token : Token) : Step := fun s => do
  let s ← s.saveCandidate
  let s := { s with candidates := none :: s.candidates, flow := s.flow + 1, keyAllowed := true }
  return (s.skip 1).push token

/-- The end of a flow collection. -/
def flowEnd (token : Token) : Step := fun s => do
  let s ← s.dropCandidate
  let s := if s.flow == 0 then s else { s with candidates := s.candidates.tail, flow := s.flow - 1 }
  return ({ s with keyAllowed := false }.skip 1).push token

/-- The comma of a flow collection. -/
def flowEntry : Step := fun s => do
  let s ← s.dropCandidate
  return ({ s with keyAllowed := true }.skip 1).push .flowEntry

/-- The dash of a block sequence. -/
def blockEntry : Step := fun s => do
  if s.flow == 0 && !s.keyAllowed then none
  let s ← (s.rollIndent s.cursor.column none .blockSequenceStart).dropCandidate
  return ({ s with keyAllowed := true }.skip 1).push .blockEntry

/-- The mark of a key that is written out. -/
def explicitKey : Step := fun s => do
  if s.flow == 0 && !s.keyAllowed then none
  let s ← (s.rollIndent s.cursor.column none .blockMappingStart).dropCandidate
  return ({ s with keyAllowed := s.flow == 0 }.skip 1).push .key

/-- The colon after a key. -/
def valueMark : Step := fun s => do
  match s.candidates with
  | some candidate :: rest =>
    let s := s.insertAt candidate.token .key
    let s := s.rollIndent candidate.column (some candidate.token) .blockMappingStart
    return ({ s with candidates := none :: rest, keyAllowed := false }.skip 1).push .value
  | _ =>
    if s.flow == 0 && !s.keyAllowed then none
    let s := s.rollIndent s.cursor.column none .blockMappingStart
    return ({ s with keyAllowed := s.flow == 0 }.skip 1).push .value

/-- The name of an anchor or an alias, after its mark. -/
def reference (make : String → Token) : Step := fun s => do
  let s ← s.saveCandidate
  let name := (s.cursor.rest.drop 1).takeWhile isNameChar
  let s := s.skip (1 + name.length)
  let next := s.cursor.peek 0
  if name.isEmpty || !(endsWord next || next.any fun ch => "?:,]\x7d%@`".toList.contains ch) then none
  return { s.push (make (String.ofList name)) with keyAllowed := false }

/-- A character of a tag. -/
def isTagChar (ch : Char) : Bool := isNameChar ch || ";/?:@&=+$.!~*'()%".toList.contains ch

/-- A tag that is written in full, with its length. -/
def fullTag? (cs : List Char) : Option (String × Nat) :=
  match cs with
  | '!' :: '<' :: rest =>
    let uri := rest.takeWhile fun ch => isTagChar ch || ch == ',' || ch == '[' || ch == ']'
    if !uri.isEmpty && rest[uri.length]? == some '>' then some (String.ofList uri, uri.length + 3)
    else none
  | _ => none

/-- A tag with a handle: the handle, the rest, and the length of both. -/
def shortTag (cs : List Char) : String × String × Nat :=
  let word := (cs.drop 1).takeWhile isNameChar
  if cs[word.length + 1]? == some '!' then
    let handle := cs.take (word.length + 2)
    let suffix := (cs.drop (word.length + 2)).takeWhile isTagChar
    (String.ofList handle, String.ofList suffix, handle.length + suffix.length)
  else
    let suffix := (cs.drop 1).takeWhile isTagChar
    if suffix.isEmpty then ("", "!", 1) else ("!", String.ofList suffix, 1 + suffix.length)

/-- A tag. -/
def tag : Step := fun s => do
  let s ← s.saveCandidate
  let cs := s.cursor.rest
  let (handle, suffix, length) ←
    if cs[1]? == some '<' then (fullTag? cs).map fun (uri, length) => ("", uri, length)
    else
      let (handle, suffix, length) := shortTag cs
      if handle != "" && handle != "!" && suffix == "" then none else some (handle, suffix, length)
  let s := s.skip length
  let next := s.cursor.peek 0
  if !(endsWord next || s.flow != 0 && next == some ',') then none
  return { s.push (.tag handle suffix) with keyAllowed := false }

/-- A block text. -/
def blockScalar (literal : Bool) : Step := fun s => do
  let s ← s.dropCandidate
  let (text, c) ← blockText literal s.indent (s.cursor.skip 1)
  return { s.push (.scalar false text) with cursor := c, keyAllowed := true }

/-- A quoted text. -/
def quotedScalar (single : Bool) : Step := fun s => do
  let s ← s.saveCandidate
  let (text, c) ← quotedText single s.cursor.rest.length (s.cursor.skip 1) []
  return { s.push (.scalar false text) with cursor := c, keyAllowed := false }

/-- A bare word. -/
def plainScalar : Step := fun s => do
  let s ← s.saveCandidate
  let (text, c, broken) ←
    plainText (s.flow != 0) (s.indent + 1).toNat s.cursor.rest.length s.cursor {} []
  return { s.push (.scalar true text) with cursor := c, keyAllowed := broken }

/-- A row of digits as a number. -/
def digitsOf (cs : List Char) : Option (Nat × List Char) :=
  let ds := cs.takeWhile Char.isDigit
  if ds.isEmpty then none else some (Number.digitsValue ds, cs.drop ds.length)

/-- The content of a directive. -/
def directiveToken? (line : List Char) : Option (Token × List Char) :=
  let name := line.takeWhile isNameChar
  let rest := (line.drop name.length).dropWhile isSpace
  if name == "YAML".toList then do
    let (major, rest) ← digitsOf rest
    match rest with
    | '.' :: rest => do
      let (minor, rest) ← digitsOf rest
      return (.versionDirective major minor, rest)
    | _ => none
  else if name == "TAG".toList then
    let handle := rest.takeWhile fun ch => isNameChar ch || ch == '!'
    let rest := (rest.drop handle.length).dropWhile isSpace
    let mark := rest.takeWhile isTagChar
    if handle.isEmpty || mark.isEmpty then none
    else some (.tagDirective (String.ofList handle) (String.ofList mark), rest.drop mark.length)
  else none

/-- A directive and the rest of its line. -/
def directive : Step := fun s => do
  let s ← (s.unrollIndent (-1)).dropCandidate
  let line := (s.cursor.rest.drop 1).takeWhile fun ch => !isBreak ch
  let (token, rest) ← directiveToken? line
  let after := rest.dropWhile isSpace
  if !(after.isEmpty || after.head? == some '#') then none
  if !rest.isEmpty && !endsWord rest.head? then none
  let c := (s.cursor.skip (1 + line.length)).takeBreak.2
  return { s.push token with cursor := c, keyAllowed := false }

/-- A character that cannot start a bare word wherever it stands. -/
def isIndicator (ch : Char) : Bool := "-?:,[]\x7b\x7d#&*!|>'\"%@`".toList.contains ch

/-- The next token starts a bare word. -/
def startsPlain (s : Scanner) : Bool :=
  match s.cursor.peek 0 with
  | none => false
  | some ch =>
    let next := s.cursor.peek 1
    !(isSpace ch || isBreak ch || isIndicator ch) ||
      (ch == '-' && !next.any isSpace) ||
      (s.flow == 0 && (ch == '?' || ch == ':') && !endsWord next)

/-- Scans one token. -/
def next : Step := fun s => do
  let s := toNextToken s.cursor.rest.length.succ s
  let s ← s.dropStale
  let s := s.unrollIndent s.cursor.column
  let c := s.cursor
  if c.atEnd then s.streamEnd
  else if c.column == 0 && c.looksAt '%' then s.directive
  else if c.atMark '-' then s.documentMark .documentStart
  else if c.atMark '.' then s.documentMark .documentEnd
  else if c.looksAt '[' then s.flowStart .flowSequenceStart
  else if c.looksAt '{' then s.flowStart .flowMappingStart
  else if c.looksAt ']' then s.flowEnd .flowSequenceEnd
  else if c.looksAt '}' then s.flowEnd .flowMappingEnd
  else if c.looksAt ',' then s.flowEntry
  else if c.looksAt '-' && endsWord (c.peek 1) then s.blockEntry
  else if c.looksAt '?' && (s.flow != 0 || endsWord (c.peek 1)) then s.explicitKey
  else if c.looksAt ':' && (s.flow != 0 || endsWord (c.peek 1)) then s.valueMark
  else if c.looksAt '*' then s.reference .alias
  else if c.looksAt '&' then s.reference .anchor
  else if c.looksAt '!' then s.tag
  else if c.looksAt '|' && s.flow == 0 then s.blockScalar true
  else if c.looksAt '>' && s.flow == 0 then s.blockScalar false
  else if c.looksAt '\'' then s.quotedScalar true
  else if c.looksAt '"' then s.quotedScalar false
  else if s.startsPlain then s.plainScalar
  else none

/-- The tokens that are settled although the text breaks the rules further on. -/
def settled (s : Scanner) : List Token :=
  let pending := s.candidates.filterMap fun candidate => candidate.map Candidate.token
  s.tokens.toList.take (pending.foldl min s.tokens.size)

/-- All tokens, or those before the place where the text breaks the rules. -/
def run : Nat → Scanner → List Token
  | 0, s => s.settled
  | fuel + 1, s =>
    if s.finished then s.tokens.toList
    else match s.next with
      | some s => run fuel s
      | none => s.settled

end Scanner

/-- The tokens of a text. -/
def tokens (text : List Char) : List Token :=
  if text.all isAllowed then
    let text := if text.head? == some '\ufeff' then text.drop 1 else text
    Scanner.run (text.length + 2) ⟨⟨text, 0, 0, 0⟩, #[], -1, [], 0, true, [none], false⟩
  else []

end RequestFlow.Yaml
