import RequestFlow.Expression.Scan
import RequestFlow.Expression.Value

/-!
# Expressions

From loosest to tightest an expression is a disjunction, a conjunction, a comparison, a negation,
a group or an operand. Reading an expression never fails: a fault becomes a node of its own, since
it only matters when evaluation gets there.

* `parse`: the expression that a text spells;
* `eval`: its value in a scope, from left to right, no further than the result needs.
-/

namespace RequestFlow

/-- What stands between operators. -/
inductive Operand where
  /-- The value of a variable. -/
  | variable (name : String)
  /-- The text of a template. -/
  | template (text : String)
  /-- A JSON list, as a template. -/
  | list (literal : String)
  /-- A value that is written out. -/
  | constant (value : Json)

/-- An expression. -/
inductive Expr where
  | any (parts : List Expr)
  | all (parts : List Expr)
  | comparison (op : Operator) (left right : Expr)
  | negation (count : Nat) (inner : Expr)
  | operand (operand : Operand)
  | malformed (cause : EvalError)

namespace Operand

/-- The text holds two equal braces in a row. -/
def hasDouble (brace : Char) : List Char → Bool
  | a :: b :: rest => a == brace && b == brace || hasDouble brace (b :: rest)
  | _ => false

/-- The text without two characters at its end, if they are these. -/
def dropEnd? (a b : Char) (cs : List Char) : Option (List Char) :=
  match cs.reverse with
  | y :: x :: rest => if x = a ∧ y = b then some rest.reverse else none
  | _ => none

/-- The name in a text that is one placeholder and nothing else. -/
def placeholder? : List Char → Option (List Char)
  | '{' :: '{' :: rest =>
    match dropEnd? '}' '}' rest with
    | some inner =>
      if hasDouble '{' inner || hasDouble '}' inner then none else some (Text.trim inner)
    | none => none
  | _ => none

/-- The text between two quotes of one kind. -/
def unquoted? : List Char → Option (List Char)
  | q :: rest =>
    if Expression.Scan.isQuote q && rest.getLast? == some q then some rest.dropLast else none
  | [] => none

/-- A letter or an underscore. -/
def startsName (c : Char) : Bool := c.isAlpha || c == '_'

/-- A character of a name after its first. -/
def inName (c : Char) : Bool := c.isAlphanum || c == '_' || c == '.' || c == '-'

/-- The text is a name. -/
def isName : List Char → Bool
  | c :: rest => startsName c && rest.all inName
  | [] => false

/-- The number that a text spells. -/
def number? (cs : List Char) : Option Number :=
  match cs with
  | c :: _ =>
    if c == '-' || c.isDigit then
      match JsonText.parse cs with
      | .ok (.number n) => some n
      | _ => none
    else none
  | [] => none

/-- The operand that a text without blanks around it spells. -/
def parse (cs : List Char) : Operand :=
  match placeholder? cs with
  | some name => .variable (String.ofList name)
  | none =>
    match unquoted? cs with
    | some inner => .template (String.ofList inner)
    | none =>
      if cs.head? = some '[' then .list (String.ofList cs)
      else if cs = ['t', 'r', 'u', 'e'] then .constant (.bool true)
      else if cs = ['f', 'a', 'l', 's', 'e'] then .constant (.bool false)
      else if cs = ['n', 'u', 'l', 'l'] then .constant .null
      else match number? cs with
        | some n => .constant (.number n)
        | none =>
          if isName cs then .variable (String.ofList cs) else .template (String.ofList cs)

/-- The value of an operand in a scope. -/
def eval (scope : TextMap) : Operand → Except EvalError Json
  | .variable name => (EvalError.ofLookup (scope.lookup name)).map .string
  | .template text => (EvalError.ofLookup (Template.render scope text)).map .string
  | .list literal => do
    let rendered ← EvalError.ofLookup (Template.render scope literal)
    match JsonText.parse rendered.toList with
    | .ok value => return value
    | .error fault => throw (.invalidList literal fault)
  | .constant value => .ok value

end Operand

namespace Expression

/-- The outermost operator of a text, with the texts it works on. -/
inductive Shape where
  | any (parts : List (List Char))
  | all (parts : List (List Char))
  | comparison (op : Operator) (left right : List Char)
  | negation (count : Nat) (inner : List Char)
  | group (inner : List Char)
  | operand (operand : Operand)
  | malformed (cause : EvalError)

/-- The texts that the outermost operator works on. -/
def Shape.texts : Shape → List (List Char)
  | any parts => parts
  | all parts => parts
  | comparison _ left right => [left, right]
  | negation _ inner => [inner]
  | group inner => [inner]
  | _ => []

/-- The shape of a negation, a group or an operand: `count` exclamation marks and what follows
them. -/
def negatedShape (count : Nat) (inner : List Char) : Shape :=
  if count = 0 then
    match group? inner with
    | some grouped => .group grouped
    | none => if inner.isEmpty then .malformed .emptyOperand else .operand (Operand.parse inner)
  else if inner.isEmpty then .malformed .danglingNegation
  else .negation count inner

/-- The shape of a text without operators between operands at its top level. -/
def unaryShape (core : List Char) : Shape :=
  negatedShape (negations core).1 (Text.trim (negations core).2)

/-- The shape of a comparison, unless a side is missing. -/
def comparisonShape (op : Operator) (left right : List Char) : Shape :=
  if left.isEmpty || right.isEmpty then .malformed (.missingSide op) else .comparison op left right

/-- The shape of a text without disjunction and conjunction at its top level. -/
def comparedShape (core : List Char) : Shape :=
  match cut .differs .start core with
  | some (left, right) => comparisonShape .differs (Text.trim left) (Text.trim right)
  | none =>
    match cut .equals .start core with
    | some (left, right) => comparisonShape .equals (Text.trim left) (Text.trim right)
    | none => unaryShape core

/-- The parts of a disjunction or conjunction, none of which may be blank. -/
def partsShape (op : Operator) (shape : List (List Char) → Shape) (cs : List Char) : Shape :=
  let parts := (split op cs).map Text.trim
  if parts.any List.isEmpty then .malformed (.missingOperand op) else shape parts

/-- The outermost operator of a text. -/
def shape (cs : List Char) : Shape :=
  if (cut .or .start cs).isSome then partsShape .or .any cs
  else if (cut .and .start cs).isSome then partsShape .and .all cs
  else comparedShape (Text.trim cs)

theorem length_negatedShape {count : Nat} {inner text : List Char}
    (h : text ∈ (negatedShape count inner).texts) : text.length < inner.length + count := by
  unfold negatedShape at h
  split at h
  · split at h
    · rename_i hg
      have := length_group hg
      simp only [Shape.texts, List.mem_singleton] at h
      subst h
      omega
    · split at h <;> simp [Shape.texts] at h
  · split at h
    · simp [Shape.texts] at h
    · simp only [Shape.texts, List.mem_singleton] at h
      subst h
      omega

theorem length_unaryShape {core text : List Char} (h : text ∈ (unaryShape core).texts) :
    text.length < core.length := by
  have := length_negatedShape h
  have := length_negations core
  have := Text.length_trim_le (negations core).2
  omega

theorem length_comparisonShape {op : Operator} {left right text core : List Char}
    (hl : left.length < core.length) (hr : right.length < core.length)
    (h : text ∈ (comparisonShape op left right).texts) : text.length < core.length := by
  unfold comparisonShape at h
  split at h
  · simp [Shape.texts] at h
  · simp only [Shape.texts, List.mem_cons, List.not_mem_nil, or_false] at h
    rcases h with rfl | rfl <;> assumption

theorem length_comparedShape {core text : List Char} (h : text ∈ (comparedShape core).texts) :
    text.length < core.length := by
  unfold comparedShape at h
  split at h
  · rename_i left right hc
    have hc := length_cut hc
    have hl := Text.length_trim_le left
    have hr := Text.length_trim_le right
    exact length_comparisonShape (by omega) (by omega) h
  · split at h
    · rename_i left right hc
      have hc := length_cut hc
      have hl := Text.length_trim_le left
      have hr := Text.length_trim_le right
      exact length_comparisonShape (by omega) (by omega) h
    · exact length_unaryShape h

theorem length_partsShape {op : Operator} {f : List (List Char) → Shape} {cs text : List Char}
    (hf : ∀ parts, (f parts).texts = parts) (hc : (cut op .start cs).isSome)
    (h : text ∈ (partsShape op f cs).texts) : text.length < cs.length := by
  unfold partsShape at h
  simp only at h
  split at h
  · simp [Shape.texts] at h
  · rw [hf] at h
    obtain ⟨part, hp, rfl⟩ := List.mem_map.1 h
    exact Nat.lt_of_le_of_lt (Text.length_trim_le _) (length_split hc hp)

/-- What an operator works on is shorter than the text that has the operator. -/
theorem length_shape {cs text : List Char} (h : text ∈ (shape cs).texts) :
    text.length < cs.length := by
  unfold shape at h
  split at h
  · exact length_partsShape (fun _ => rfl) (by assumption) h
  · split at h
    · exact length_partsShape (fun _ => rfl) (by assumption) h
    · exact Nat.lt_of_lt_of_le (length_comparedShape h) (Text.length_trim_le _)

end Expression

namespace Expr

open Expression

/-- The expression that a text spells. -/
def parse (cs : List Char) : Expr :=
  match _hs : shape cs with
  | .any parts => .any (parts.attach.map fun part => parse part.val)
  | .all parts => .all (parts.attach.map fun part => parse part.val)
  | .comparison op left right => .comparison op (parse left) (parse right)
  | .negation count inner => .negation count (parse inner)
  | .group inner => parse inner
  | .operand value => .operand value
  | .malformed cause => .malformed cause
termination_by cs.length
decreasing_by
  · exact length_shape (by simp only [_hs, Shape.texts, part.property])
  · exact length_shape (by simp only [_hs, Shape.texts, part.property])
  all_goals exact length_shape (by simp [_hs, Shape.texts])

mutual

/-- The value of an expression in a scope. -/
def eval (scope : TextMap) : Expr → Except EvalError Json
  | .any parts => (evalAny scope parts).map .bool
  | .all parts => (evalAll scope parts).map .bool
  | .comparison op left right => do
    let l ← eval scope left
    let r ← eval scope right
    return .bool (l.same r == (op == .equals))
  | .negation count inner => do
    let value ← eval scope inner
    return .bool (value.truthy != (count % 2 == 1))
  | .operand value => value.eval scope
  | .malformed cause => .error cause

/-- Some part is true; the parts after the first true one are not looked at. -/
def evalAny (scope : TextMap) : List Expr → Except EvalError Bool
  | [] => .ok false
  | part :: rest => do
    let value ← eval scope part
    if value.truthy then return true else evalAny scope rest

/-- Every part is true; the parts after the first false one are not looked at. -/
def evalAll (scope : TextMap) : List Expr → Except EvalError Bool
  | [] => .ok true
  | part :: rest => do
    let value ← eval scope part
    if value.truthy then evalAll scope rest else return false

end

end Expr

/-- Something that gives expressions their values. -/
abbrev Evaluator := String → TextMap → Except EvalError Json

/-- The evaluator of the expression language. -/
def evaluate : Evaluator := fun text scope =>
  let core := Text.trim text.toList
  if core.isEmpty then .error .emptyExpression else (Expr.parse core).eval scope

/-- The truth of an expression's value. -/
def Evaluator.condition (evaluator : Evaluator) (text : String) (scope : TextMap) :
    Except EvalError Bool :=
  (evaluator text scope).map Json.truthy

end RequestFlow
