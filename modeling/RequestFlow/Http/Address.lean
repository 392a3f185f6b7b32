import RequestFlow.Number.Literal
import RequestFlow.Text.Blank

/-!
# Addresses of requests

Which texts are addresses. An address has a scheme; behind two slashes it has an authority, which is
a host and maybe a user in front of it and a number behind it; the rest is taken as it comes. Web
schemes always have an authority, with as many slashes as the author likes. A host is a number in
brackets, a number of four parts, or a name.

* `Address.scheme?`: the scheme of an address, in small letters; none for any other text;
* `Address.shown`: an address as it is shown in messages.
-/

namespace RequestFlow.Address

/-- How much a scheme asks for. -/
inductive SchemeKind where
  /-- A web scheme: the host may not be empty. -/
  | web
  | file
  | other
deriving DecidableEq, Repr

/-- The kind of a scheme in small letters. -/
def SchemeKind.ofScheme (scheme : String) : SchemeKind :=
  if scheme ∈ ["http", "https", "ws", "wss", "ftp"] then .web
  else if scheme = "file" then .file
  else .other

/-- Backslashes count as slashes in schemes that are known. -/
def SchemeKind.isSpecial (kind : SchemeKind) : Bool := kind != .other

/-- The text without the controls and spaces around it, and without tabs and line ends. -/
def clean (cs : List Char) : List Char :=
  let outer (c : Char) : Bool := c.toNat ≤ 32
  (((cs.dropWhile outer).reverse.dropWhile outer).reverse).filter fun c =>
    c != '\t' && c != '\n' && c != '\r'

/-- The scheme in small letters, and what follows its colon. -/
def split? (cs : List Char) : Option (String × List Char) :=
  let mark (c : Char) : Bool := c.isAlphanum || c == '+' || c == '-' || c == '.'
  match cs, cs.dropWhile mark with
  | c :: _, ':' :: rest =>
    if c.isAlpha then some (String.ofList ((cs.takeWhile mark).map Char.toLower), rest) else none
  | _, _ => none

/-- A slash of a kind of scheme. -/
def isSlash (kind : SchemeKind) (c : Char) : Bool := c == '/' || (c == '\\' && kind.isSpecial)

/-- What ends an authority. -/
def endsAuthority (kind : SchemeKind) (c : Char) : Bool :=
  isSlash kind c || c == '?' || c == '#'

/-! ## Numbers as hosts -/

/-- A number in an address of four parts: decimal, octal behind a zero, hexadecimal behind `0x`;
none when it has other digits. -/
def part? (cs : List Char) : Option Nat :=
  let value (base : Nat) (allowed : Char → Bool) (ds : List Char) : Option Nat :=
    if ds.all allowed then
      some (ds.foldl (fun n d => base * n +
        (if d.isDigit then d.toNat - 48 else d.toLower.toNat - 87)) 0)
    else none
  let isHex (c : Char) : Bool :=
    c.isDigit || ('a' ≤ c.toLower && c.toLower ≤ 'f')
  match cs with
  | [] => none
  | '0' :: 'x' :: ds | '0' :: 'X' :: ds => value 16 isHex ds
  | '0' :: d :: ds => value 8 (fun c => '0' ≤ c && c ≤ '7') (d :: ds)
  | ds => value 10 Char.isDigit ds

/-- The texts between the dots of a host. -/
def labels : List Char → List (List Char)
  | [] => [[]]
  | c :: rest =>
    if c = '.' then [] :: labels rest
    else match labels rest with
      | [] => [[c]]
      | label :: others => (c :: label) :: others

/-- The labels of a host, without the empty one behind a last dot. -/
def hostLabels (host : List Char) : List (List Char) :=
  let all := labels host
  if all.getLast? = some [] then all.dropLast else all

/-- The last label of the host is a number, so that all of it must be one. -/
def endsInNumber (host : List Char) : Bool :=
  match (hostLabels host).getLast? with
  | none | some [] => false
  | some label => label.all Char.isDigit || (part? label).isSome

/-- A number of at most four parts: all but the last are below 256, and the last fills the rest. -/
def isNumberOfParts (host : List Char) : Bool :=
  let all := hostLabels host
  match all.mapM part? with
  | none => false
  | some parts =>
    let front := parts.dropLast
    all.length ≤ 4 && front.all (· < 256) &&
      (parts.getLast?.all fun last => last < Nat.pow 256 (4 - front.length))

/-- The texts between the colons of a host in brackets. -/
def groups : List Char → List (List Char)
  | [] => [[]]
  | c :: rest =>
    if c = ':' then [] :: groups rest
    else match groups rest with
      | [] => [[c]]
      | group :: others => (c :: group) :: others

/-- One to four hexadecimal digits. -/
def isGroup (cs : List Char) : Bool :=
  !cs.isEmpty && cs.length ≤ 4 &&
    cs.all fun c => c.isDigit || ('a' ≤ c.toLower && c.toLower ≤ 'f')

/-- A number of exactly four decimal parts below 256, without zeros in front. -/
def isDotted (cs : List Char) : Bool :=
  let parts := labels cs
  parts.length == 4 && parts.all fun ds =>
    !ds.isEmpty && ds.all Char.isDigit && Number.digitsValue ds < 256 &&
      (ds.length == 1 || ds.head? != some '0')

/-- How many groups some texts stand for, a dotted number at the end for two; none when one of them
is no group. -/
def groupCount? (dotted : Bool) : List (List Char) → Option Nat
  | [] => some 0
  | [last] =>
    if isGroup last then some 1 else if dotted && isDotted last then some 2 else none
  | group :: rest => if isGroup group then (groupCount? dotted rest).map (· + 1) else none

/-- A host in brackets: eight groups, or fewer with one gap between two colons. -/
def isBracketNumber (cs : List Char) : Bool :=
  let all := groups cs
  let gap := all.findIdx? List.isEmpty
  match gap with
  | none => groupCount? true all == some 8
  | some place =>
    -- The gap shows as one empty text, or as two at an end, or three when nothing else is there.
    let front := all.take place
    let back := all.drop (place + 1)
    let front? := if place = 0 then (if back.head? == some [] then some [] else none) else some front
    let back := if place = 0 then back.drop 1 else back
    let back? := if back = [[]] then some [] else if back.isEmpty then none else some back
    match front?, back? with
    | some front, some back =>
      match groupCount? false front, groupCount? true back with
      | some m, some n => m + n < 8
      | _, _ => false
    | _, _ => false

/-! ## Hosts -/

/-- The value of a hexadecimal digit. -/
def hexValue? (c : Char) : Option Nat :=
  if c.isDigit then some (c.toNat - 48)
  else if 'a' ≤ c.toLower && c.toLower ≤ 'f' then some (c.toLower.toNat - 87)
  else none

/-- A text with its percent codes replaced; the code of a byte beyond ASCII counts as a letter. -/
def percentDecoded : List Char → List Char
  | '%' :: a :: b :: rest =>
    match hexValue? a, hexValue? b with
    | some m, some n =>
      if 16 * m + n < 128 then Char.ofNat (16 * m + n) :: percentDecoded rest
      else 'x' :: percentDecoded rest
    | _, _ => '%' :: percentDecoded (a :: b :: rest)
  | c :: rest => c :: percentDecoded rest
  | [] => []

/-- A character that no name of a host may hold. -/
def isForbidden (c : Char) : Bool :=
  c.toNat ≤ 32 || c.toNat == 127 || c.toNat == 0xFFFD || "%#/:<>?@[\\]^|".toList.contains c

/-- A host in brackets, with its brackets. -/
def isBracketHost (host : List Char) : Bool :=
  host.getLast? == some ']' && isBracketNumber (host.tail.dropLast)

/-- A host of a scheme that is known. -/
def isKnownHost (host : List Char) : Bool :=
  if host.head? = some '[' then isBracketHost host
  else
    let name := percentDecoded host
    !name.isEmpty && !name.any isForbidden && (!endsInNumber name || isNumberOfParts name)

/-- A character that no host of any other scheme may hold. -/
def isForbiddenOpaque (c : Char) : Bool :=
  c.toNat == 0 || "\t\n\r #/:<>?@[\\]^|".toList.contains c

/-- A host of any other scheme. -/
def isOpaqueHost (host : List Char) : Bool :=
  if host.head? = some '[' then isBracketHost host else !host.any isForbiddenOpaque

/-- The host and what follows it; colons inside brackets belong to the host. -/
def splitHost (inside : Bool) : List Char → List Char × List Char
  | [] => ([], [])
  | c :: rest =>
    if c = ':' && !inside then ([], c :: rest)
    else
      let inside := c == '[' || (inside && c != ']')
      let (host, rest) := splitHost inside rest
      (c :: host, rest)

/-- What follows a host: nothing, or a colon and a number of 16 bits. -/
def isHostEnd : List Char → Bool
  | [] => true
  | ':' :: ds => ds.all Char.isDigit && Number.digitsValue ds < Nat.pow 2 16
  | _ => false

/-- An authority of a host and what follows it, without a user. -/
def isHostAndEnd (kind : SchemeKind) (cs : List Char) : Bool :=
  let (host, rest) := splitHost false cs
  let hostIsRight :=
    match kind with
    | .other => isOpaqueHost host && (!host.isEmpty || rest.isEmpty)
    | _ => isKnownHost host
  hostIsRight && isHostEnd rest

/-- An authority: behind a user there is a host. -/
def isAuthority (kind : SchemeKind) (cs : List Char) : Bool :=
  let back := cs.reverse.takeWhile (· != '@')
  let hasUser := back.length < cs.length
  let rest := back.reverse
  if hasUser && rest.isEmpty then false else isHostAndEnd kind rest

/-- What follows a scheme is right. -/
def isRight (kind : SchemeKind) (cs : List Char) : Bool :=
  let authority (cs : List Char) : List Char := cs.takeWhile fun c => !endsAuthority kind c
  match kind with
  | .web => isAuthority kind (authority (cs.dropWhile (isSlash kind)))
  | .file =>
    match cs with
    | a :: b :: rest =>
      if isSlash kind a && isSlash kind b then
        let host := authority rest
        host.isEmpty || isKnownHost host ||
          (host.length == 2 && host.head?.all Char.isAlpha &&
            (host.getLast? == some ':' || host.getLast? == some '|'))
      else true
    | _ => true
  | .other =>
    match cs with
    | '/' :: '/' :: rest => isAuthority kind (authority rest)
    | _ => true

/-- The scheme of an address, in small letters; none for a text that is no address. -/
def scheme? (text : String) : Option String := do
  let (scheme, rest) ← split? (clean text.toList)
  if isRight (.ofScheme scheme) rest then some scheme else none

/-- An address as it is shown: the scheme is in small letters, and a web address has its host in
small letters, no user, and at least a slash for its path. -/
def shown (text : String) : String :=
  match split? (clean text.toList) with
  | none => text
  | some (scheme, rest) =>
    match SchemeKind.ofScheme scheme with
    | .web =>
      let body := rest.dropWhile (isSlash .web)
      let authority := body.takeWhile fun c => !endsAuthority .web c
      let host := (authority.reverse.takeWhile (· != '@')).reverse.map Char.toLower
      let path := body.drop authority.length
      let path := if path.head?.any (isSlash .web) then path else '/' :: path
      scheme ++ "://" ++ String.ofList (host ++ path)
    | _ => scheme ++ ":" ++ String.ofList rest

end RequestFlow.Address
