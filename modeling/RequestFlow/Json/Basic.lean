import RequestFlow.Number.Basic

/-!
# JSON values

The values that expressions evaluate to and that documents, settings and histories are stored as.
An object is the list of its members in the order in which they are printed. A *value* in the
sense of the expression language has its members sorted by key, no key twice: `Json.sortMembers`
brings a list of members into that form, the last of equal keys winning.
-/

namespace RequestFlow

/-- A JSON value. -/
inductive Json where
  | null
  | bool (flag : Bool)
  | number (n : Number)
  | string (text : String)
  | array (items : List Json)
  | object (members : List (String × Json))
deriving Inhabited

namespace Json

/-- Puts a member in its place among sorted ones, over a member with the same key. -/
def insertMember (key : String) (value : Json) : List (String × Json) → List (String × Json)
  | [] => [(key, value)]
  | (k, v) :: rest =>
    if key < k then (key, value) :: (k, v) :: rest
    else if key = k then (key, value) :: rest
    else (k, v) :: insertMember key value rest

/-- The members sorted by key, the last of equal keys winning. -/
def sortMembers (members : List (String × Json)) : List (String × Json) :=
  members.foldl (fun sorted member => insertMember member.1 member.2 sorted) []

/-- The first member with this key. -/
def member? (key : String) : Json → Option Json
  | object members => (members.find? fun member => member.1 == key).map Prod.snd
  | _ => none

/-- An integer as a value. -/
def int (n : Int) : Json := number (.integer n)

/-- A natural number as a value. -/
def nat (n : Nat) : Json := number (.integer n)

/-- A text as a value, or null. -/
def stringOrNull : Option String → Json
  | none => null
  | some text => string text

/-- Strings as an array. -/
def strings (texts : List String) : Json := array (texts.map string)

end Json

end RequestFlow
