import RequestFlow.Markup.JsonText
import RequestFlow.Workflow.Basic

/-!
# Reading records

How the parts of a parsed text fill in the fields of a record. A record is given by its members,
or by the values of its fields in order where lists may stand for records. Members are taken in
the order of the text, so the first fault of the text is the one that is told. A member that is
not a field is passed over; a field that comes twice, or a required one that does not come, is a
fault.
-/

namespace RequestFlow

/-- What is wrong with the content of a text. -/
inductive ContentFault where
  /-- The content does not have the form it should have. -/
  | malformed
  /-- A list or a record stands where a map of texts has its values. -/
  | notScalar (key : String)
deriving DecidableEq, Repr

/-- The part of a fault that is told to the author. -/
def ContentFault.detail : ContentFault → Option String
  | malformed => none
  | notScalar key => some ("value for '" ++ key ++ "' must be a scalar")

/-- The result of reading content. -/
abbrev Content := Except ContentFault

namespace Node

/-- A text: a string, or a bare word as it is spelled. -/
def text : Node → Content String
  | string s => .ok s
  | plain spelling _ => .ok spelling
  | _ => .error .malformed

/-- A natural number that fits in 64 bits. -/
def natural : Node → Content Nat
  | number (.integer n) => if 0 ≤ n && n < (Nat.pow 2 64 : Int) then .ok n.toNat else .error .malformed
  | _ => .error .malformed

/-- Nothing is said here. -/
def isAbsent : Node → Bool
  | null => true
  | plain _ null => true
  | _ => false

/-- Nothing is written here at all; YAML lets that stand for an empty list or record. -/
def isEmptyWord : Node → Bool
  | plain "" null => true
  | _ => false

/-- Something that may be left out. -/
def optional {α : Type} (read : Node → Content α) (node : Node) : Content (Option α) :=
  if node.isAbsent then .ok none else (read node).map some

/-- Each of a list of nodes. -/
def each {α : Type} (read : Node → Content α) : List Node → Content (List α)
  | [] => .ok []
  | node :: rest => do
    let value ← read node
    let values ← each read rest
    return value :: values

/-- A list. -/
def listOf {α : Type} (read : Node → Content α) (node : Node) : Content (List α) :=
  match node with
  | array items => each read items
  | node => if node.isEmptyWord then .ok [] else .error .malformed

/-- Each value of a list of members. -/
def eachMember {α : Type} (read : Node → Content α) :
    List (String × Node) → Content (List (String × α))
  | [] => .ok []
  | (key, node) :: rest => do
    let value ← read node
    let values ← eachMember read rest
    return (key, value) :: values

/-- A map; a repeated key keeps its first place and takes its last value. -/
def mapOf {α : Type} (read : Node → Content α) (node : Node) : Content (OrderedMap α) :=
  match node with
  | object members => (eachMember read members).map .ofList
  | node => if node.isEmptyWord then .ok .empty else .error .malformed

/-- A node that nothing breaks, as a value. -/
def whole (node : Node) : Content Json :=
  if node.settle.complete then .ok node.toJson else .error .malformed

/-- A scalar as the text it is kept as. -/
def scalarText (key : String) : Json → Content String
  | .string s => .ok s
  | .null => .ok ""
  | .bool flag => .ok (if flag then "true" else "false")
  | .number n => .ok (String.ofList n.text)
  | _ => .error (.notScalar key)

/-- Each value of a list of pairs as text. -/
def scalarTexts : List (String × Json) → Content (List (String × String))
  | [] => .ok []
  | (key, value) :: rest => do
    let text ← scalarText key value
    let texts ← scalarTexts rest
    return (key, text) :: texts

/-- A map of texts that may be written as scalars of any kind, or left out. -/
def scalarMap (node : Node) : Content TextMap := do
  let values ← node.optional (mapOf whole)
  let texts ← scalarTexts (values.getD .empty).entries
  return .ofList texts

/-- One of some words; where lists may stand for records, also a record of the word and nothing. -/
def oneOf {α : Type} (positional : Bool) (words : List (String × α)) (node : Node) : Content α := do
  let word ← match node with
    | object [(word, null)] => if positional then pure word else .error .malformed
    | node => node.text
  match words.find? fun entry => entry.1 == word with
  | some entry => .ok entry.2
  | none => .error .malformed

end Node

/-- The fields of a record, and how each is filled in. -/
structure Layout (α : Type) where
  /-- The record with every field that may be left out. -/
  blank : α
  /-- The names of the fields, in order. -/
  fields : List String
  /-- The fields that may not be left out. -/
  required : List String
  /-- Fills in one field. -/
  fill : α → String → Node → Content α

namespace Layout

variable {α : Type}

/-- Fills in the fields that the members name, `seen` being those already filled in. -/
def fillMembers (layout : Layout α) (value : α) (seen : List String) :
    List (String × Node) → Content (α × List String)
  | [] => .ok (value, seen)
  | (key, node) :: rest =>
    if key ∈ layout.fields then
      if key ∈ seen then .error .malformed
      else do
        let value ← layout.fill value key node
        fillMembers layout value (key :: seen) rest
    else if node.complete then fillMembers layout value seen rest
    else .error .malformed

/-- Fills in the fields in order. -/
def fillItems (layout : Layout α) (value : α) : List String → List Node → Content α
  | fields, [] => if fields.any (· ∈ layout.required) then .error .malformed else .ok value
  | [], _ :: _ => .error .malformed
  | field :: fields, node :: rest => do
    let value ← layout.fill value field node
    fillItems layout value fields rest

/-- The record that some members make. -/
def ofMembers (layout : Layout α) (members : List (String × Node)) : Content α := do
  let (value, seen) ← layout.fillMembers layout.blank [] members
  if layout.required.all (· ∈ seen) then return value else .error .malformed

/-- The record that a node describes; `positional` says that a list may stand for a record. -/
def read (layout : Layout α) (positional : Bool) (node : Node) : Content α :=
  match node with
  | .object members => layout.ofMembers members
  | .array items =>
    if positional then layout.fillItems layout.blank layout.fields items else .error .malformed
  | node => if node.isEmptyWord then layout.ofMembers [] else .error .malformed

end Layout

/-- What a JSON text describes; a fault of the content is told before a fault of the notation that
comes after it. -/
def Content.ofJson {α : Type} (read : Node → Content α) (text : String) : Content α := do
  let (node, fault) := JsonText.read text.toList
  let value ← read node
  if fault.isSome then throw .malformed
  return value

end RequestFlow
