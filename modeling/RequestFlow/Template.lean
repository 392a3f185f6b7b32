import RequestFlow.Text.Blank
import RequestFlow.OrderedMap

/-!
# Templates

A template is a text with placeholders `{{name}}`. A placeholder is two opening braces, a text
without braces and two closing braces; every other brace stands for itself. The name is that text
without the blanks around it, and it may be written with the word `vars.` in front.

* `parse`: the pieces of a template, a character or a placeholder each;
* `render`: the text of a template in a scope, failing on the first name that the scope lacks.
-/

namespace RequestFlow

/-- A name that the scope does not define. -/
structure UnknownVariable where
  name : String
deriving DecidableEq, Repr

/-- The word that may stand in front of a variable's name. -/
def variableMark : List Char := ['v', 'a', 'r', 's', '.']

/-- What follows the mark in a name that has it. -/
def unmarked? (name : String) : Option String :=
  if variableMark.isPrefixOf name.toList then
    some (String.ofList (name.toList.drop variableMark.length))
  else none

/-- The value of a name: under the name as written, else under the name without its mark. -/
def TextMap.lookup (scope : TextMap) (name : String) : Except UnknownVariable String :=
  match (scope.get? name).or ((unmarked? name).bind scope.get?) with
  | some value => .ok value
  | none => .error ⟨name⟩

/-- One piece of a template. -/
inductive Piece where
  | char (c : Char)
  | hole (name : String)
deriving DecidableEq, Repr

namespace Template

/-- One of the two braces. -/
def isBrace (c : Char) : Bool := c == '{' || c == '}'

/-- The name in a placeholder and what follows it; `cs` starts after the two opening braces. -/
def hole? (cs : List Char) : Option (String × { rest : List Char // rest.length ≤ cs.length }) :=
  match h : cs.dropWhile (fun c => !isBrace c) with
  | '}' :: '}' :: rest =>
    some (String.ofList (Text.trim (cs.takeWhile fun c => !isBrace c)), ⟨rest, by
      have := Text.length_dropWhile_le (fun c => !isBrace c) cs
      rw [h] at this
      simp at this
      omega⟩)
  | _ => none

/-- The pieces of a template, the first placeholder first. -/
def parse (cs : List Char) : List Piece :=
  match cs with
  | [] => []
  | c :: rest =>
    match c, rest with
    | '{', '{' :: rest' =>
      match hole? rest' with
      | some (name, ⟨rest'', _⟩) => .hole name :: parse rest''
      | none => .char '{' :: parse ('{' :: rest')
    | c, rest => .char c :: parse rest
termination_by cs.length

/-- The text of the pieces in a scope. -/
def fill (scope : TextMap) : List Piece → Except UnknownVariable (List Char)
  | [] => .ok []
  | .char c :: rest => do
    let filled ← fill scope rest
    return c :: filled
  | .hole name :: rest => do
    let value ← scope.lookup name
    let filled ← fill scope rest
    return value.toList ++ filled

/-- The text of a template in a scope. -/
def render (scope : TextMap) (template : String) : Except UnknownVariable String :=
  (fill scope (parse template.toList)).map String.ofList

/-- The pairs with each value rendered, in order. -/
def renderPairs (scope : TextMap) :
    List (String × String) → Except UnknownVariable (List (String × String))
  | [] => .ok []
  | (key, template) :: rest => do
    let value ← render scope template
    let rendered ← renderPairs scope rest
    return (key, value) :: rendered

/-- The map with each value rendered. -/
def renderMap (scope : TextMap) (templates : TextMap) : Except UnknownVariable TextMap :=
  (renderPairs scope templates.entries).map OrderedMap.ofList

end Template

end RequestFlow
