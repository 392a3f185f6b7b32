import RequestFlow.Markup.Yaml.Token

/-!
# Reading YAML

The tree that the tokens of a text describe. A node may be named and be referred to further on.
Only the first document of a text is read; that there is more than one is a fault that is found
after its content.
-/

namespace RequestFlow.Yaml

/-- The tokens that are left, and what is known from those before. -/
structure Reader where
  tokens : List Token
  /-- The named nodes, the latest first. -/
  anchors : List (String × Node) := []
  /-- What the handles of tags stand for, the latest first. -/
  handles : List (String × String) := [("!", "!"), ("!!", coreTag)]
  /-- The tokens make no sense from here on. -/
  failed : Bool := false

/-- A node that is not written. -/
def emptyNode : Node := .plain "" .null

namespace Reader

/-- The tokens make no sense. -/
def fail (r : Reader) : Reader := { r with tokens := [], failed := true }

/-- Past one token. -/
def advance (r : Reader) : Reader := { r with tokens := r.tokens.tail }

/-- The next token is one of these. -/
def looksAt (r : Reader) (tokens : List Token) : Bool :=
  match r.tokens with
  | token :: _ => tokens.contains token
  | [] => false

/-- The whole tag that a handle and a suffix make. -/
def tagOf? (r : Reader) (handle suffix : String) : Option String :=
  if handle = "" then some suffix
  else (r.handles.find? fun entry => entry.1 == handle).map fun entry => entry.2 ++ suffix

/-- The name and the tag in front of a node. -/
structure Properties where
  anchor : Option String := none
  tag : Option String := none

/-- Takes the name and the tag in front of a node, each at most once. -/
def properties : Nat → Properties → Reader → Properties × Reader
  | 0, found, r => (found, r)
  | fuel + 1, found, r =>
    match r.tokens, found.anchor, found.tag with
    | .anchor name :: _, none, _ => properties fuel { found with anchor := some name } r.advance
    | .tag handle suffix :: _, _, none =>
      match r.tagOf? handle suffix with
      | some tag => properties fuel { found with tag := some tag } r.advance
      | none => (found, r.fail)
    | _, _, _ => (found, r)

/-- Remembers a node under the name in front of it. -/
def remember (found : Properties) (node : Node) (r : Reader) : Reader :=
  match found.anchor with
  | some name => { r with anchors := (name, node) :: r.anchors }
  | none => r

/-- The key that a node makes. -/
def keyOf : Node → Option String
  | .string text => some text
  | .plain spelling _ => some spelling
  | _ => none

/-- A member, broken if its key is not a text. -/
def memberOf (key value : Node) : String × Node :=
  match keyOf key with
  | some key => (key, value)
  | none => ("", .broken)

/-- A scalar with its tag. -/
def scalarNode (tag : Option String) (bare : Bool) (text : List Char) : Node :=
  match tag with
  | some tag => taggedNode tag text
  | none => if bare then plainNode text else .string (String.ofList text)

mutual

/-- One node; `indentless` admits a sequence that is not indented deeper than its key. -/
def node (block indentless : Bool) : Nat → Reader → Node × Reader
  | 0, r => (.broken, r.fail)
  | fuel + 1, r =>
    match r.tokens with
    | .alias name :: _ =>
      match r.anchors.find? fun entry => entry.1 == name with
      | some entry => (entry.2, r.advance)
      | none => (.broken, r.fail)
    | _ =>
      let (found, r) := properties 2 {} r
      let (value, r) := content block indentless found fuel r
      (value, if r.failed then r else remember found value r)

/-- A node after its name and tag. -/
def content (block indentless : Bool) (found : Properties) : Nat → Reader → Node × Reader
  | 0, r => (.broken, r.fail)
  | fuel + 1, r =>
    match r.tokens with
    | .blockEntry :: _ =>
      if indentless then
        let (items, r) := indentlessItems fuel r
        (.array items, r)
      else missing found r
    | .scalar bare text :: _ => (scalarNode found.tag bare text, r.advance)
    | .flowSequenceStart :: _ =>
      let (items, r) := flowItems true fuel r.advance
      (.array items, r)
    | .flowMappingStart :: _ =>
      let (members, r) := flowMembers true fuel r.advance
      (.object members, r)
    | .blockSequenceStart :: _ =>
      if block then
        let (items, r) := blockItems fuel r.advance
        (.array items, r)
      else missing found r
    | .blockMappingStart :: _ =>
      if block then
        let (members, r) := blockMembers fuel r.advance
        (.object members, r)
      else missing found r
    | _ => missing found r

/-- A node that is not written: empty when it has a name or a tag. -/
def missing (found : Properties) (r : Reader) : Node × Reader :=
  if r.failed then (.broken, r)
  else if found.anchor.isSome || found.tag.isSome then (scalarNode found.tag true [], r)
  else (.broken, r.fail)

/-- A node, or an empty one before one of the tokens given. -/
def nodeUnless (ends : List Token) (block indentless : Bool) : Nat → Reader → Node × Reader
  | 0, r => (.broken, r.fail)
  | fuel + 1, r => if r.looksAt ends then (emptyNode, r) else node block indentless fuel r

/-- The items of a block sequence. -/
def blockItems : Nat → Reader → List Node × Reader
  | 0, r => ([.broken], r.fail)
  | fuel + 1, r =>
    match r.tokens with
    | .blockEnd :: _ => ([], r.advance)
    | .blockEntry :: _ =>
      let (item, r) := nodeUnless [.blockEntry, .blockEnd] true false fuel r.advance
      if r.failed then ([item], r)
      else
        let (items, r) := blockItems fuel r
        (item :: items, r)
    | _ => ([.broken], r.fail)

/-- The items of a sequence that is not indented deeper than its key. -/
def indentlessItems : Nat → Reader → List Node × Reader
  | 0, r => ([.broken], r.fail)
  | fuel + 1, r =>
    match r.tokens with
    | .blockEntry :: _ =>
      let (item, r) := nodeUnless [.blockEntry, .key, .value, .blockEnd] true false fuel r.advance
      if r.failed then ([item], r)
      else
        let (items, r) := indentlessItems fuel r
        (item :: items, r)
    | [] => ([.broken], r.fail)
    | _ => ([], r)

/-- The value of a member: what follows the colon, if there is one. -/
def valueUnless (ends : List Token) (block : Bool) : Nat → Reader → Node × Reader
  | 0, r => (.broken, r.fail)
  | fuel + 1, r =>
    match r.tokens with
    | .value :: _ => nodeUnless ends block block fuel r.advance
    | [] => (.broken, r.fail)
    | _ => (emptyNode, r)

/-- The members of a block mapping. -/
def blockMembers : Nat → Reader → List (String × Node) × Reader
  | 0, r => ([("", .broken)], r.fail)
  | fuel + 1, r =>
    match r.tokens with
    | .blockEnd :: _ => ([], r.advance)
    | .key :: _ =>
      let ends := [.key, .value, .blockEnd]
      let (key, r) := nodeUnless ends true true fuel r.advance
      if r.failed then ([("", .broken)], r)
      else
        let (value, r) := valueUnless ends true fuel r
        if r.failed then ([memberOf key value], r)
        else
          let (members, r) := blockMembers fuel r
          (memberOf key value :: members, r)
    | _ => ([("", .broken)], r.fail)

/-- The items of a flow sequence; between two of them stands a comma. -/
def flowItems (first : Bool) : Nat → Reader → List Node × Reader
  | 0, r => ([.broken], r.fail)
  | fuel + 1, r =>
    if r.looksAt [.flowSequenceEnd] then ([], r.advance)
    else if !first && !r.looksAt [.flowEntry] then ([.broken], r.fail)
    else
      let r := if first then r else r.advance
      match r.tokens with
      | .flowSequenceEnd :: _ => ([], r.advance)
      | .key :: _ =>
        let ends := [.value, .flowEntry, .flowSequenceEnd]
        let (key, r) := nodeUnless ends false false fuel r.advance
        if r.failed then ([.object [("", .broken)]], r)
        else
          let (value, r) := valueUnless [.flowEntry, .flowSequenceEnd] false fuel r
          let item := Node.object [memberOf key value]
          if r.failed then ([item], r)
          else
            let (items, r) := flowItems false fuel r
            (item :: items, r)
      | _ =>
        let (item, r) := node false false fuel r
        if r.failed then ([item], r)
        else
          let (items, r) := flowItems false fuel r
          (item :: items, r)

/-- The members of a flow mapping; between two of them stands a comma. -/
def flowMembers (first : Bool) : Nat → Reader → List (String × Node) × Reader
  | 0, r => ([("", .broken)], r.fail)
  | fuel + 1, r =>
    if r.looksAt [.flowMappingEnd] then ([], r.advance)
    else if !first && !r.looksAt [.flowEntry] then ([("", .broken)], r.fail)
    else
      let r := if first then r else r.advance
      match r.tokens with
      | .flowMappingEnd :: _ => ([], r.advance)
      | .key :: _ =>
        let ends := [.value, .flowEntry, .flowMappingEnd]
        let (key, r) := nodeUnless ends false false fuel r.advance
        if r.failed then ([("", .broken)], r)
        else
          let (value, r) := valueUnless [.flowEntry, .flowMappingEnd] false fuel r
          if r.failed then ([memberOf key value], r)
          else
            let (members, r) := flowMembers false fuel r
            (memberOf key value :: members, r)
      | _ =>
        let (key, r) := node false false fuel r
        if r.failed then ([("", .broken)], r)
        else
          let (members, r) := flowMembers false fuel r
          (memberOf key emptyNode :: members, r)

end

/-- The directives in front of a document. -/
def directives : Nat → Reader → Reader
  | 0, r => r
  | fuel + 1, r =>
    match r.tokens with
    | .versionDirective major minor :: _ =>
      if major == 1 && (minor == 1 || minor == 2) then directives fuel r.advance else r.fail
    | .tagDirective handle mark :: _ =>
      directives fuel { r.advance with handles := (handle, mark) :: r.handles }
    | _ => r

/-- A document is over before one of these. -/
def endsDocument : Token → Bool
  | .versionDirective .. | .tagDirective .. | .documentStart | .documentEnd | .streamEnd => true
  | _ => false

/-- The content of a document that is marked as one. -/
def markedDocument (fuel : Nat) (r : Reader) : Node × Reader :=
  match r.tokens with
  | .documentStart :: rest =>
    let r := r.advance
    match rest with
    | token :: _ => if endsDocument token then (emptyNode, r) else node true false fuel r
    | [] => (.broken, r.fail)
  | _ => (.broken, r.fail)

/-- The first document. -/
def document (fuel : Nat) (r : Reader) : Node × Reader :=
  match r.tokens with
  | [] => (.broken, r.fail)
  | .streamEnd :: _ => (emptyNode, r)
  | .documentStart :: _ => markedDocument fuel r
  | .versionDirective .. :: _ => markedDocument fuel (directives fuel r)
  | .tagDirective .. :: _ => markedDocument fuel (directives fuel r)
  | _ => node true false fuel r

end Reader

/-- What the first document of a text says, and whether the text says more or breaks the rules. -/
def read (text : List Char) : Node × Bool :=
  let tokens := tokens text
  let (node, r) := Reader.document (8 * tokens.length + 8) { tokens }
  let rest := r.tokens.dropWhile (· == .documentEnd)
  (node, r.failed || rest != [.streamEnd])

end RequestFlow.Yaml
