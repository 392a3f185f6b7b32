import RequestFlow.Document.Reading
import RequestFlow.Markup.Yaml.Tree

/-!
# The text of a document

A document is written in JSON or in YAML; a file says which by its extension. A fault of the
content is told before a fault of the notation that comes after it.
-/

namespace RequestFlow

/-- The two notations. -/
inductive Format where
  | json | yaml
deriving DecidableEq, Repr

namespace Document

/-- The document that a JSON text describes. -/
def parseJson : String → Content Document := .ofJson (ofNode true)

/-- The document that a YAML text describes. -/
def parseYaml (text : String) : Content Document := do
  let (node, fault) := Yaml.read text.toList
  let document ← ofNode false node
  if fault then throw .malformed
  return document

/-- The document that a text in a notation describes. -/
def parse : Format → String → Content Document
  | .json => parseJson
  | .yaml => parseYaml

end Document

end RequestFlow
