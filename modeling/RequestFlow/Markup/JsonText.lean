import RequestFlow.Text.Blank
import RequestFlow.Number.Literal
import RequestFlow.Markup.Fault
import RequestFlow.Markup.Node

/-!
# Reading JSON

The reader takes one value off the front of a text. Every step says what it took and what is left,
and that what is left is shorter, which is why reading ends. Lists and objects nest at most
`maxDepth` deep.

When the text breaks the rules, the reader gives the fault together with the part of the value
that came before it, closed off by `Node.broken`.
-/

namespace RequestFlow.JsonText

/-- Something taken off the front of a text of length `n`, and what is left of the text. -/
structure Taken (α : Type) (n : Nat) where
  value : α
  rest : List Char
  shorter : rest.length < n

/-- A step of the reader on a text of length `n`. -/
abbrev Step (α : Type) (n : Nat) := Except Fault (Taken α n)

/-- The blanks that may stand between tokens. -/
def isSpace (c : Char) : Bool := c == ' ' || c == '\n' || c == '\t' || c == '\r'

/-- The text from its next token on. -/
def skipSpace (cs : List Char) : { rest : List Char // rest.length ≤ cs.length } :=
  ⟨cs.dropWhile isSpace, Text.length_dropWhile_le _ _⟩

/-- The value of a hexadecimal digit of either case. -/
def hexValue? (c : Char) : Option Nat :=
  if '0' ≤ c ∧ c ≤ '9' then some (c.toNat - 48)
  else if 'a' ≤ c ∧ c ≤ 'f' then some (c.toNat - 87)
  else if 'A' ≤ c ∧ c ≤ 'F' then some (c.toNat - 55)
  else none

/-- Four hexadecimal digits. -/
def hexCode (cs : List Char) : Step Nat cs.length :=
  let fault : Fault :=
    if 4 ≤ Fault.byteLength cs then ⟨.invalidEscape, cs, 4⟩ else ⟨.endInString, [], 0⟩
  match cs with
  | a :: b :: c :: d :: rest =>
    match hexValue? a, hexValue? b, hexValue? c, hexValue? d with
    | some a, some b, some c, some d =>
      .ok ⟨((a * 16 + b) * 16 + c) * 16 + d, rest, by simp; omega⟩
    | _, _, _, _ => .error fault
  | _ => .error fault

/-- The code is the first half of a pair. -/
def isHighSurrogate (n : Nat) : Bool := 0xD800 ≤ n && n ≤ 0xDBFF

/-- The code is the second half of a pair. -/
def isLowSurrogate (n : Nat) : Bool := 0xDC00 ≤ n && n ≤ 0xDFFF

/-- The code point that the two halves of a pair stand for. -/
def pairValue (high low : Nat) : Nat := (high - 0xD800) * 0x400 + (low - 0xDC00) + 0x10000

/-- The character of one or two codes; `cs` starts after the letter `u`. -/
def unicodeEscape (cs : List Char) : Step Char cs.length := do
  let ⟨high, rest, h⟩ ← hexCode cs
  if isLowSurrogate high then throw ⟨.loneSurrogate, rest, 0⟩
  if !isHighSurrogate high then return ⟨Char.ofNat high, rest, h⟩
  match rest, h with
  | [], _ => throw ⟨.endInString, [], 0⟩
  | ['\\'], _ => throw ⟨.endInString, [], 0⟩
  | '\\' :: 'u' :: rest, h =>
    let ⟨low, rest', h'⟩ ← hexCode rest
    if isLowSurrogate low then
      return ⟨Char.ofNat (pairValue high low), rest', by simp at h; omega⟩
    else throw ⟨.loneSurrogate, rest', 0⟩
  | '\\' :: rest, _ => throw ⟨.unfinishedSurrogate, rest, 1⟩
  | rest, _ => throw ⟨.unfinishedSurrogate, rest, 1⟩

/-- The character that a letter after a backslash stands for. -/
def simpleEscape? (c : Char) : Option Char :=
  if c = '"' ∨ c = '\\' ∨ c = '/' then some c
  else if c = 'b' then some (Char.ofNat 8)
  else if c = 'f' then some (Char.ofNat 12)
  else if c = 'n' then some '\n'
  else if c = 'r' then some '\r'
  else if c = 't' then some '\t'
  else none

/-- The character of an escape; `cs` starts after the backslash. -/
def escapeSequence (cs : List Char) : Step Char cs.length :=
  match cs with
  | [] => .error ⟨.endInString, [], 0⟩
  | c :: rest =>
    if c = 'u' then
      (unicodeEscape rest).map fun ⟨x, rest', h⟩ => ⟨x, rest', by simp; omega⟩
    else match simpleEscape? c with
      | some x => .ok ⟨x, rest, by simp⟩
      | none => .error ⟨.invalidEscape, c :: rest, 1⟩

/-- The characters of a string; `cs` starts after the opening quote. -/
def stringBody (cs : List Char) : Step (List Char) cs.length :=
  match cs with
  | [] => .error ⟨.endInString, [], 0⟩
  | c :: rest =>
    if c = '"' then .ok ⟨[], rest, by simp⟩
    else if c = '\\' then
      match escapeSequence rest with
      | .error fault => .error fault
      | .ok ⟨x, rest', h⟩ =>
        match stringBody rest' with
        | .error fault => .error fault
        | .ok ⟨body, rest'', h'⟩ => .ok ⟨x :: body, rest'', by simp; omega⟩
    else if c.toNat < 32 then .error ⟨.controlCharacter, c :: rest, 1⟩
    else match stringBody rest with
      | .error fault => .error fault
      | .ok ⟨body, rest', h⟩ => .ok ⟨c :: body, rest', by simp; omega⟩
termination_by cs.length
decreasing_by
  · simp; omega
  · simp

/-- A row of decimal digits, and what follows it. -/
def digits (cs : List Char) : List Char × { rest : List Char // rest.length ≤ cs.length } :=
  (cs.takeWhile Char.isDigit, ⟨cs.dropWhile Char.isDigit, Text.length_dropWhile_le _ _⟩)

/-- Something taken off a text of length `n`, perhaps nothing. -/
structure TakenAny (α : Type) (n : Nat) where
  value : α
  rest : List Char
  noLonger : rest.length ≤ n

/-- The digits after a point, if there is a point. -/
def fractionPart (cs : List Char) : Except Fault (TakenAny (Option (List Char)) cs.length) :=
  match cs with
  | '.' :: rest =>
    match digits rest with
    | ([], _) => .error (if rest.isEmpty then ⟨.endInValue, [], 0⟩ else ⟨.invalidNumber, rest, 1⟩)
    | (ds, ⟨rest', h⟩) => .ok ⟨some ds, rest', by simp; omega⟩
  | cs => .ok ⟨none, cs, Nat.le_refl _⟩

/-- The sign of an exponent: negative or not. -/
def exponentSign (cs : List Char) : TakenAny Bool cs.length :=
  match cs with
  | '+' :: rest => ⟨false, rest, by simp⟩
  | '-' :: rest => ⟨true, rest, by simp⟩
  | cs => ⟨false, cs, Nat.le_refl _⟩

/-- The sign and the digits of an exponent, if there is one. -/
def exponentPart (cs : List Char) :
    Except Fault (TakenAny (Option (Bool × List Char)) cs.length) :=
  match cs with
  | c :: rest =>
    if c = 'e' ∨ c = 'E' then
      let ⟨negative, rest', h⟩ := exponentSign rest
      match digits rest' with
      | ([], _) =>
        .error (if rest'.isEmpty then ⟨.endInValue, [], 0⟩ else ⟨.invalidNumber, rest', 1⟩)
      | (ds, ⟨rest'', h'⟩) => .ok ⟨some (negative, ds), rest'', by simp; omega⟩
    else .ok ⟨none, c :: rest, Nat.le_refl _⟩
  | [] => .ok ⟨none, [], Nat.le_refl _⟩

/-- How many digits of an exponent are read before it passes `2 ^ 31 - 1`, and the rest of them
that are not. -/
def unreadExponent (ds : List Char) : Nat :=
  ds.length - (((List.range (ds.length + 1)).find? fun n =>
    Nat.pow 2 31 ≤ Number.digitsValue (ds.take n)).getD ds.length)

/-- What is left where a number turned out to be too large: a huge exponent is not read to its
end. -/
def rangeFault (literal : Number.Literal) (rest : List Char) : Fault :=
  match literal.exponent with
  | some (false, ds) => ⟨.numberOutOfRange, ds.drop (ds.length - unreadExponent ds) ++ rest, 0⟩
  | _ => ⟨.numberOutOfRange, rest, 0⟩

/-- The digits before the point: a zero that starts them stands alone. -/
def wholePart (cs : List Char) : Step (List Char) cs.length :=
  match cs with
  | [] => .error ⟨.endInValue, [], 0⟩
  | c :: rest =>
    if c = '0' then
      match rest with
      | d :: rest' =>
        if d.isDigit then .error ⟨.invalidNumber, d :: rest', 1⟩
        else .ok ⟨[c], d :: rest', Nat.lt_succ_self _⟩
      | [] => .ok ⟨[c], [], Nat.lt_succ_self _⟩
    else if c.isDigit then
      let (ds, ⟨rest', h⟩) := digits rest
      .ok ⟨c :: ds, rest', Nat.lt_succ_of_le h⟩
    else .error ⟨.invalidNumber, c :: rest, 1⟩

/-- A number after its sign. -/
def number (negative : Bool) (cs : List Char) : Step Number cs.length := do
  let ⟨whole, rest, h⟩ ← wholePart cs
  let ⟨fraction, rest, h'⟩ ← fractionPart rest
  let ⟨exponent, rest, h''⟩ ← exponentPart rest
  let literal : Number.Literal := ⟨negative, whole, fraction, exponent⟩
  match literal.value? with
  | some n => return ⟨n, rest, by omega⟩
  | none => throw (rangeFault literal rest)

/-- The letters of a word that has begun. -/
def word (letters : List Char) (cs : List Char) : Except Fault (TakenAny Unit cs.length) :=
  match letters, cs with
  | [], cs => .ok ⟨(), cs, Nat.le_refl _⟩
  | _ :: _, [] => .error ⟨.endInValue, [], 0⟩
  | letter :: letters, c :: rest =>
    if c = letter then
      (word letters rest).map fun ⟨_, rest', h⟩ => ⟨(), rest', by simp; omega⟩
    else .error ⟨.expectedIdent, c :: rest, 1⟩

/-- The result of reading a value off a text of length `n`: the value and what is left, or what
there is of the value before a fault. -/
inductive Outcome (α : Type) (n : Nat) where
  | done (value : α) (rest : List Char) (shorter : rest.length < n)
  | cut (value : α) (fault : Fault)

/-- How deep lists and objects nest. -/
def maxDepth : Nat := 127

/-- An outcome with another value. -/
def Outcome.map {α β : Type} {n : Nat} (f : α → β) : Outcome α n → Outcome β n
  | .done value rest h => .done (f value) rest h
  | .cut value fault => .cut (f value) fault

/-- The same outcome, of a longer text. -/
def Outcome.widen {α : Type} {m n : Nat} (h : m ≤ n) : Outcome α m → Outcome α n
  | .done value rest h' => .done value rest (Nat.lt_of_lt_of_le h' h)
  | .cut value fault => .cut value fault

/-- A step that yields a whole scalar or nothing of it. -/
def Outcome.ofStep {α : Type} {n : Nat} (f : α → Node) : Step α n → Outcome Node n
  | .ok ⟨value, rest, h⟩ => .done (f value) rest h
  | .error fault => .cut .broken fault

/-- A word that stands for a value; `cs` starts after its first letter. -/
def wordValue (letters : List Char) (node : Node) (cs : List Char) : Outcome Node (cs.length + 1) :=
  match word letters cs with
  | .ok ⟨_, rest, h⟩ => .done node rest (by omega)
  | .error fault => .cut .broken fault

mutual

/-- Takes one value off a text; `depth` is how much deeper lists and objects may nest. -/
def value (depth : Nat) (cs : List Char) : Outcome Node cs.length :=
  let ⟨cs', h⟩ := skipSpace cs
  Outcome.widen h <|
    match cs' with
    | [] => .cut .broken ⟨.endInValue, [], 0⟩
    | c :: rest =>
      if c = 'n' then wordValue ['u', 'l', 'l'] .null rest
      else if c = 't' then wordValue ['r', 'u', 'e'] (.bool true) rest
      else if c = 'f' then wordValue ['a', 'l', 's', 'e'] (.bool false) rest
      else if c = '"' then
        (Outcome.ofStep (fun body => .string (String.ofList body)) (stringBody rest)).widen (by simp)
      else if c = '-' then
        (Outcome.ofStep .number (number true rest)).widen (by simp)
      else if c.isDigit then Outcome.ofStep .number (number false (c :: rest))
      else if c = '[' then
        match depth with
        | 0 => .cut .broken ⟨.tooDeep, c :: rest, 1⟩
        | depth + 1 => ((items depth true rest).map .array).widen (by simp)
      else if c = '{' then
        match depth with
        | 0 => .cut .broken ⟨.tooDeep, c :: rest, 1⟩
        | depth + 1 => ((members depth true rest).map .object).widen (by simp)
      else .cut .broken ⟨.expectedValue, c :: rest, 1⟩
termination_by 3 * cs.length
decreasing_by
  all_goals simp only [List.length_cons] at *
  all_goals omega

/-- The items up to the closing bracket; before each but the first stands a comma. -/
def items (depth : Nat) (first : Bool) (cs : List Char) : Outcome (List Node) cs.length :=
  let ⟨cs', h⟩ := skipSpace cs
  Outcome.widen h <|
    match cs' with
    | [] => .cut [.broken] ⟨.endInList, [], 0⟩
    | c :: rest =>
      if c = ']' then .done [] rest (by simp)
      else if first then item depth (c :: rest)
      else if c = ',' then
        let ⟨rest', h'⟩ := skipSpace rest
        match rest' with
        | [] => .cut [.broken] ⟨.endInValue, [], 0⟩
        | c' :: rest'' =>
          if c' = ']' then .cut [.broken] ⟨.trailingComma, c' :: rest'', 1⟩
          else (item depth (c' :: rest'')).widen (by simp at h' ⊢; omega)
      else .cut [.broken] ⟨.expectedListCommaOrEnd, c :: rest, 1⟩
termination_by 3 * cs.length + 2
decreasing_by
  all_goals simp only [List.length_cons] at *
  all_goals omega

/-- One item and those that follow it. -/
def item (depth : Nat) (cs : List Char) : Outcome (List Node) cs.length :=
  match value depth cs with
  | .cut node fault => .cut [node] fault
  | .done node rest h => ((items depth false rest).map (node :: ·)).widen (Nat.le_of_lt h)
termination_by 3 * cs.length + 1

/-- The members up to the closing brace; before each but the first stands a comma. -/
def members (depth : Nat) (first : Bool) (cs : List Char) :
    Outcome (List (String × Node)) cs.length :=
  let ⟨cs', h⟩ := skipSpace cs
  Outcome.widen h <|
    match cs' with
    | [] => .cut [("", .broken)] ⟨.endInObject, [], 0⟩
    | c :: rest =>
      if c = '}' then .done [] rest (by simp)
      else if first then
        if c = '"' then (member depth rest).widen (by simp)
        else .cut [("", .broken)] ⟨.keyMustBeString, c :: rest, 1⟩
      else if c = ',' then
        let ⟨rest', h'⟩ := skipSpace rest
        match rest' with
        | [] => .cut [("", .broken)] ⟨.endInValue, [], 0⟩
        | c' :: rest'' =>
          if c' = '"' then (member depth rest'').widen (by simp at h' ⊢; omega)
          else if c' = '}' then .cut [("", .broken)] ⟨.trailingComma, c' :: rest'', 1⟩
          else .cut [("", .broken)] ⟨.keyMustBeString, c' :: rest'', 1⟩
      else .cut [("", .broken)] ⟨.expectedObjectCommaOrEnd, c :: rest, 1⟩
termination_by 3 * cs.length + 2
decreasing_by
  all_goals simp only [List.length_cons] at *
  all_goals omega

/-- One member, from after the quote that opens its key, and those that follow it. -/
def member (depth : Nat) (cs : List Char) : Outcome (List (String × Node)) cs.length :=
  match stringBody cs with
  | .error fault => .cut [("", .broken)] fault
  | .ok ⟨key, rest, h⟩ =>
    let key := String.ofList key
    let ⟨rest', h'⟩ := skipSpace rest
    match rest' with
    | [] => .cut [(key, .broken)] ⟨.endInObject, [], 0⟩
    | c :: rest'' =>
      if c = ':' then
        match value depth rest'' with
        | .cut node fault => .cut [(key, node)] fault
        | .done node rest''' h'' =>
          ((members depth false rest''').map ((key, node) :: ·)).widen (by simp at h'; omega)
      else .cut [(key, .broken)] ⟨.expectedColon, c :: rest'', 1⟩
termination_by 3 * cs.length + 1
decreasing_by
  all_goals simp only [List.length_cons] at *
  all_goals omega

end

/-- What a text says, and what is wrong with it if something is. -/
def read (text : List Char) : Node × Option Fault :=
  match value maxDepth text with
  | .cut node fault => (node, some fault)
  | .done node rest _ =>
    match (skipSpace rest).val with
    | [] => (node, none)
    | rest => (node, some ⟨.trailingCharacters, rest, 1⟩)

/-- The value that a text spells. -/
def parse (text : List Char) : Except Fault.Located Json :=
  match read text with
  | (node, none) => .ok node.toJson
  | (_, some fault) => .error (fault.locate text)

end RequestFlow.JsonText
