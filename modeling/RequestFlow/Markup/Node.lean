import RequestFlow.Json.Basic

/-!
# Parsed text

What a text in JSON or YAML says, before it is known what it should say: scalars, lists and
records with their members in the order of the text, repeated keys included.

A scalar that is written without quotes can be asked for as text or as the value it spells
(`Node.plain`). A text that breaks off, or breaks the rules of its notation, still says what came
before: the place of the break is `Node.broken`, and nothing comes after it. So a fault of the
content that comes before a fault of the notation is the one that is found.
-/

namespace RequestFlow

/-- What a text says at one place. -/
inductive Node where
  | null
  | bool (flag : Bool)
  | number (n : Number)
  /-- A number that is infinite or undefined; as a value it is null. -/
  | nonFinite
  | string (text : String)
  /-- A bare word of YAML that reads as something other than a string. -/
  | plain (spelling : String) (value : Node)
  | array (items : List Node)
  | object (members : List (String × Node))
  /-- The text cannot be read from here on. -/
  | broken
deriving Inhabited

namespace Node

mutual

/-- Nothing is broken in here. -/
def complete : Node → Bool
  | broken => false
  | array items => completeItems items
  | object members => completeMembers members
  | _ => true

/-- `complete`, for each item. -/
def completeItems : List Node → Bool
  | [] => true
  | item :: rest => complete item && completeItems rest

/-- `complete`, for each member. -/
def completeMembers : List (String × Node) → Bool
  | [] => true
  | (_, value) :: rest => complete value && completeMembers rest

end

mutual

/-- Bare words replaced by the values they spell. -/
def settle : Node → Node
  | plain _ value => value
  | array items => array (settleItems items)
  | object members => object (settleMembers members)
  | node => node

/-- `settle`, for each item. -/
def settleItems : List Node → List Node
  | [] => []
  | item :: rest => settle item :: settleItems rest

/-- `settle`, for each member. -/
def settleMembers : List (String × Node) → List (String × Node)
  | [] => []
  | (key, value) :: rest => (key, settle value) :: settleMembers rest

end

mutual

/-- The value that a text spells; members are sorted by key and a repeated key takes its last
value. What is broken is null. -/
def toJson : Node → Json
  | null => .null
  | bool flag => .bool flag
  | number n => .number n
  | nonFinite => .null
  | string text => .string text
  | plain _ value => toJson value
  | array items => .array (toJsonItems items)
  | object members => .object (Json.sortMembers (toJsonMembers members))
  | broken => .null

/-- `toJson`, for each item. -/
def toJsonItems : List Node → List Json
  | [] => []
  | item :: rest => toJson item :: toJsonItems rest

/-- `toJson`, for each member. -/
def toJsonMembers : List (String × Node) → List (String × Json)
  | [] => []
  | (key, value) :: rest => (key, toJson value) :: toJsonMembers rest

end

mutual

/-- A value as parsed text, its members in their order. -/
def ofJson : Json → Node
  | .null => null
  | .bool flag => bool flag
  | .number n => number n
  | .string text => string text
  | .array items => array (ofJsonItems items)
  | .object members => object (ofJsonMembers members)

/-- `ofJson`, for each item. -/
def ofJsonItems : List Json → List Node
  | [] => []
  | item :: rest => ofJson item :: ofJsonItems rest

/-- `ofJson`, for each member. -/
def ofJsonMembers : List (String × Json) → List (String × Node)
  | [] => []
  | (key, value) :: rest => (key, ofJson value) :: ofJsonMembers rest

end

end Node

end RequestFlow
