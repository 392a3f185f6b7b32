import RequestFlow.Markup.Yaml.Cursor
import RequestFlow.Markup.JsonText

/-!
# The scalars of YAML

Bare words, quoted texts and block texts. A line break inside a bare or quoted text becomes a
space, and of several breaks all but the first are kept. A scanning function gives the text and
the place after it, or nothing when the text breaks the rules; the fuel is the length of what is
left, since every round takes a character.
-/

namespace RequestFlow.Yaml

/-- What stands between two runs of characters of a scalar that goes over several lines. -/
structure Fold where
  spaces : List Char := []
  lead : List Char := []
  trail : List Char := []
  broken : Bool := false

/-- What a fold comes to in the text. -/
def Fold.text (f : Fold) : List Char :=
  if f.broken then
    if f.lead = ['\n'] then (if f.trail.isEmpty then [' '] else f.trail) else f.lead ++ f.trail
  else f.spaces

/-- Takes spaces and breaks. In bare words a tab may not stand in the indentation, which is what
`indent` is given for. -/
def takeFold (indent : Option Nat) : Nat → Cursor → Fold → Option (Fold × Cursor)
  | 0, c, f => some (f, c)
  | fuel + 1, c, f =>
    if c.atSpace then
      if f.broken then
        if indent.any (c.column < ·) && c.looksAt '\t' then none
        else takeFold indent fuel (c.skip 1) f
      else takeFold indent fuel (c.skip 1) { f with spaces := f.spaces ++ c.rest.take 1 }
    else if c.atBreak then
      let (kept, c) := c.takeBreak
      if f.broken then takeFold indent fuel c { f with trail := f.trail ++ kept }
      else takeFold indent fuel c { f with spaces := [], lead := kept, broken := true }
    else some (f, c)

/-- One of the characters that end a bare word in a flow collection. -/
def isFlowMark (ch : Char) : Bool := ch == ',' || ch == '[' || ch == ']' || ch == '{' || ch == '}'

/-- The characters of a bare word up to a space, a break or the end of it. -/
def plainRun (flow : Bool) : List Char → Option (List Char)
  | [] => some []
  | ch :: rest =>
    if isSpace ch || isBreak ch then some []
    else if flow && ch == ':' && rest.head?.any fun next => isFlowMark next || next == '?' then none
    else if ch == ':' && endsWord rest.head? then some []
    else if flow && isFlowMark ch then some []
    else (plainRun flow rest).map (ch :: ·)

/-- A bare word; whether it ended after a line break. -/
def plainText (flow : Bool) (indent : Nat) :
    Nat → Cursor → Fold → List Char → Option (List Char × Cursor × Bool)
  | 0, c, f, text => some (text, c, f.broken)
  | fuel + 1, c, f, text =>
    if c.atDocumentMark || c.looksAt '#' then some (text, c, f.broken)
    else
      match plainRun flow c.rest with
      | none => none
      | some [] => some (text, c, f.broken)
      | some run =>
        let text := text ++ f.text ++ run
        let c := c.skip run.length
        if c.atSpace || c.atBreak then
          match takeFold (some indent) c.rest.length c {} with
          | none => none
          | some (f, c) =>
            if !flow && c.column < indent then some (text, c, f.broken)
            else plainText flow indent fuel c f text
        else some (text, c, false)

/-- The character of a one-letter escape. -/
def escapeLetter? (ch : Char) : Option Nat :=
  match ch with
  | '0' => some 0x0
  | 'a' => some 0x7
  | 'b' => some 0x8
  | 't' => some 0x9
  | '\t' => some 0x9
  | 'n' => some 0xA
  | 'v' => some 0xB
  | 'f' => some 0xC
  | 'r' => some 0xD
  | 'e' => some 0x1B
  | ' ' => some 0x20
  | '"' => some 0x22
  | '/' => some 0x2F
  | '\\' => some 0x5C
  | 'N' => some 0x85
  | '_' => some 0xA0
  | 'L' => some 0x2028
  | 'P' => some 0x2029
  | _ => none

/-- How many hexadecimal digits follow the letter of an escape. -/
def escapeDigits? (ch : Char) : Option Nat :=
  match ch with
  | 'x' => some 2
  | 'u' => some 4
  | 'U' => some 8
  | _ => none

/-- The value of hexadecimal digits. -/
def hexDigits? (ds : List Char) : Option Nat :=
  ds.foldl (fun n d => n.bind fun n => (JsonText.hexValue? d).map fun v => 16 * n + v) (some 0)

/-- A run of a quoted text: its characters, the place after it, and whether it ended at an escaped
line break. -/
def quotedRun (single : Bool) : Nat → Cursor → Option (List Char × Cursor × Bool)
  | 0, c => some ([], c, false)
  | fuel + 1, c =>
    let more := fun (text : List Char) (c : Cursor) =>
      (quotedRun single fuel c).map fun (run, c, escaped) => (text ++ run, c, escaped)
    match c.rest with
    | [] => some ([], c, false)
    | ch :: rest =>
      if isSpace ch || isBreak ch then some ([], c, false)
      else if single then
        if ch == '\'' then
          if rest.head? == some '\'' then more ['\''] (c.skip 2) else some ([], c, false)
        else more [ch] (c.skip 1)
      else if ch == '"' then some ([], c, false)
      else if ch == '\\' then
        match rest with
        | [] => none
        | letter :: _ =>
          if isBreak letter then some ([], ((c.skip 1).takeBreak).2, true)
          else match escapeLetter? letter, escapeDigits? letter with
            | some n, _ => more [Char.ofNat n] (c.skip 2)
            | none, none => none
            | none, some count =>
              let ds := (c.rest.drop 2).take count
              match hexDigits? ds with
              | none => none
              | some n =>
                if ds.length < count || (0xD800 ≤ n && n ≤ 0xDFFF) || 0x10FFFF < n then none
                else more [Char.ofNat n] (c.skip (2 + count))
      else more [ch] (c.skip 1)

/-- A quoted text, from after its opening quote to after its closing one. -/
def quotedText (single : Bool) : Nat → Cursor → List Char → Option (List Char × Cursor)
  | 0, _, _ => none
  | fuel + 1, c, text =>
    if c.atDocumentMark || c.atEnd then none
    else
      match quotedRun single c.rest.length c with
      | none => none
      | some (run, c, escaped) =>
        let text := text ++ run
        if !escaped && c.looksAt (if single then '\'' else '"') then some (text, c.skip 1)
        else
          match takeFold none c.rest.length c { broken := escaped } with
          | none => none
          | some (f, c) => quotedText single fuel c (text ++ f.text)

/-- What becomes of the breaks at the end of a block text. -/
inductive Chomp where
  | clip | strip | keep
deriving DecidableEq

/-- The header of a block text: its chomping and its indentation, in either order. -/
def blockHeader (c : Cursor) : Option (Chomp × Option Nat × Cursor) :=
  let chomp? : Option Char → Option Chomp
    | some '+' => some .keep
    | some '-' => some .strip
    | _ => none
  let digit? : Option Char → Option Nat := fun ch => (ch.filter Char.isDigit).map Number.digitValue
  match chomp? (c.peek 0), digit? (c.peek 0) with
  | some chomp, _ =>
    match digit? (c.peek 1) with
    | some 0 => none
    | some n => some (chomp, some n, c.skip 2)
    | none => some (chomp, none, c.skip 1)
  | none, some 0 => none
  | none, some n =>
    match chomp? (c.peek 1) with
    | some chomp => some (chomp, some n, c.skip 2)
    | none => some (.clip, some n, c.skip 1)
  | none, none => some (.clip, none, c)

/-- Takes the blank lines before a line of a block text, and that line's indentation. The deepest
blank line tells the indentation when that is not known. -/
def blockBreaks (indent : Option Nat) (deepest : Nat) :
    Nat → Cursor → List Char → Option (List Char × Nat × Cursor)
  | 0, c, breaks => some (breaks, deepest, c)
  | fuel + 1, c, breaks =>
    let inside := fun (c : Cursor) => indent.all (c.column < ·)
    let spaces := (c.rest.takeWhile (· == ' ')).length
    let c := c.skip (match indent with
      | none => spaces
      | some n => min spaces (n - c.column))
    let deepest := max deepest c.column
    if inside c && c.looksAt '\t' then none
    else if c.atBreak then
      let (kept, c) := c.takeBreak
      blockBreaks indent deepest fuel c (breaks ++ kept)
    else some (breaks, deepest, c)

/-- The lines of a block text. -/
def blockLines (literal : Bool) (chomp : Chomp) (indent : Nat) :
    Nat → Cursor → List Char → List Char → List Char → Bool → Option (List Char × Cursor)
  | 0, _, _, _, _, _ => none
  | fuel + 1, c, text, lead, trail, wasBlank =>
    if c.column == indent && !c.atEnd then
      let blank := c.atSpace
      let folded := !literal && lead == ['\n'] && !wasBlank && !blank
      let joint := if folded then (if trail.isEmpty then [' '] else []) else lead
      let line := c.rest.takeWhile fun ch => !isBreak ch
      let (kept, c) := (c.skip line.length).takeBreak
      match blockBreaks (some indent) 0 c.rest.length.succ c [] with
      | none => none
      | some (trail', _, c) =>
        blockLines literal chomp indent fuel c (text ++ joint ++ trail ++ line) kept trail' blank
    else
      let text := if chomp == .strip then text else text ++ lead
      some (if chomp == .keep then text ++ trail else text, c)

/-- A block text, from after its indicator. -/
def blockText (literal : Bool) (parent : Int) (c : Cursor) : Option (List Char × Cursor) :=
  match blockHeader c with
  | none => none
  | some (chomp, increment, c) =>
    let c := (c.skipWhile isSpace).skipComment
    if !c.atBreak && !c.atEnd then none
    else
      let c := c.takeBreak.2
      let known := increment.map fun n => parent.toNat + n
      match blockBreaks known 0 c.rest.length.succ c [] with
      | none => none
      | some (trail, deepest, c) =>
        let indent := known.getD (max (max deepest (parent + 1).toNat) 1)
        blockLines literal chomp indent c.rest.length.succ c [] [] trail false

/-! ## What bare words spell -/

/-- The digits of a base, as a number. -/
def digitsIn? (base : Nat) (ds : List Char) : Option Nat :=
  if ds.isEmpty then none
  else ds.foldl (fun n d => n.bind fun n =>
    match JsonText.hexValue? d with
    | some v => if v < base then some (base * n + v) else none
    | none => none) (some 0)

/-- The digits after the mark of a base, in that base. -/
def markedDigits? (cs : List Char) : Option Nat :=
  match cs with
  | '0' :: 'x' :: ds => digitsIn? 16 ds
  | '0' :: 'o' :: ds => digitsIn? 8 ds
  | '0' :: 'b' :: ds => digitsIn? 2 ds
  | _ => none

/-- Digits that start with a zero and are no number for it. -/
def isZeroLed (cs : List Char) : Bool :=
  match cs with
  | '0' :: d :: ds => (d :: ds).all Char.isDigit
  | _ => false

/-- The text after a sign, and whether the sign is a minus. -/
def signed (cs : List Char) : Bool × List Char :=
  match cs with
  | '+' :: rest => (false, rest)
  | '-' :: rest => (true, rest)
  | cs => (false, cs)

/-- The integer that a bare word spells. -/
def integer? (cs : List Char) : Option Int :=
  let (negative, body) := signed cs
  let size := (markedDigits? body).or (if isZeroLed body then none else digitsIn? 10 body)
  size.map fun n => if negative then -(n : Int) else n

/-- The finite number that a bare word spells with a point or an exponent. -/
def decimal? (cs : List Char) : Option Binary64 :=
  let (negative, body) := signed cs
  let whole := body.takeWhile Char.isDigit
  let rest := body.dropWhile Char.isDigit
  let (fraction, rest) := match rest with
    | '.' :: rest => (rest.takeWhile Char.isDigit, rest.dropWhile Char.isDigit)
    | rest => ([], rest)
  if whole.isEmpty && fraction.isEmpty then none
  else
    let make := fun (exponent : Int) =>
      let digits := Number.digitsValue (whole ++ fraction)
      if digits = 0 then some (Binary64.zero negative)
      else Binary64.nearestDecimal? negative digits (exponent - fraction.length)
    match rest with
    | [] => make 0
    | e :: rest =>
      let (down, ds) := signed rest
      if (e == 'e' || e == 'E') && !ds.isEmpty && ds.all Char.isDigit then
        let size : Int := min (Number.digitsValue ds) 100000
        make (if down then -size else size)
      else none

/-- A word is one of these. -/
def isWord (words : List String) (cs : List Char) : Bool := words.contains (String.ofList cs)

/-- What a bare word says. -/
def plainNode (cs : List Char) : Node :=
  let spelling := String.ofList cs
  if isWord ["", "null", "Null", "NULL", "~"] cs then .plain spelling .null
  else if isWord ["true", "True", "TRUE"] cs then .plain spelling (.bool true)
  else if isWord ["false", "False", "FALSE"] cs then .plain spelling (.bool false)
  else
    let wide : Option Int :=
      (integer? cs).filter fun n => -(Nat.pow 2 127 : Int) ≤ n && n < (Nat.pow 2 128 : Int)
    match wide with
    | some n => .plain spelling (if Number.fitsInteger n then .number (.integer n) else .broken)
    | none =>
      if isWord [".inf", ".Inf", ".INF", "+.inf", "+.Inf", "+.INF", "-.inf", "-.Inf", "-.INF",
          ".nan", ".NaN", ".NAN"] cs then .plain spelling .nonFinite
      else if isZeroLed (signed cs).2 then .string spelling
      else match decimal? cs with
        | some x => .plain spelling (.number (.double x))
        | none => .string spelling

/-- The start of the tags that YAML itself defines. -/
def coreTag : String := "tag:yaml.org,2002:"

/-- What a scalar with a tag says. -/
def taggedNode (tag : String) (cs : List Char) : Node :=
  let spelling := String.ofList cs
  let number? := match integer? cs with
    | some n => if Number.fitsInteger n then Node.number (.integer n) else .broken
    | none => .broken
  if tag = coreTag ++ "bool" then
    if isWord ["true", "True", "TRUE"] cs then .plain spelling (.bool true)
    else if isWord ["false", "False", "FALSE"] cs then .plain spelling (.bool false)
    else .plain spelling .broken
  else if tag = coreTag ++ "int" then .plain spelling number?
  else if tag = coreTag ++ "float" then
    .plain spelling (match decimal? cs with
      | some x => .number (.double x)
      | none => .broken)
  else if tag = coreTag ++ "null" then
    .plain spelling (if isWord ["null", "Null", "NULL", "~"] cs then .null else .broken)
  else if "!".isPrefixOf tag then .plain spelling .broken
  else .string spelling

end RequestFlow.Yaml
