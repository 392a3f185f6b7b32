import RequestFlow.Template
import RequestFlow.Json.Printer
import RequestFlow.Markup.Fault

/-!
# Why an expression has no value

The causes, and their wording.
-/

namespace RequestFlow

/-- The operators that stand between operands. -/
inductive Operator where
  | or | and | differs | equals
deriving DecidableEq, Repr

/-- The two characters of an operator. -/
def Operator.symbol : Operator → Char × Char
  | or => ('|', '|')
  | and => ('&', '&')
  | differs => ('!', '=')
  | equals => ('=', '=')

/-- An operator as it is written. -/
def Operator.text (op : Operator) : String := String.ofList [op.symbol.1, op.symbol.2]

/-- Why an expression has no value. -/
inductive EvalError where
  | emptyExpression
  | missingOperand (op : Operator)
  | missingSide (op : Operator)
  | danglingNegation
  | emptyOperand
  | unknownVariable (name : String)
  | invalidList (literal : String) (fault : Fault.Located)
  | invalidItems (fault : Fault.Located)
  | notAList (value : Json)
  /-- What an evaluator of another language says. -/
  | reported (text : String)
deriving Inhabited

/-- The wording of a cause. -/
def EvalError.message : EvalError → String
  | emptyExpression => "expression is empty"
  | missingOperand op => "'" ++ op.text ++ "' needs an operand on both sides"
  | missingSide op => "'" ++ op.text ++ "' needs a left and right operand"
  | danglingNegation => "expression cannot end with a negation operator"
  | emptyOperand => "operand cannot be empty"
  | unknownVariable name => "unknown variable '" ++ name ++ "'"
  | invalidList literal fault => "invalid list literal '" ++ literal ++ "': " ++ fault.message
  | invalidItems fault => "items are not a valid JSON list: " ++ fault.message
  | notAList value => "items must evaluate to a list, got " ++ value.compact
  | reported text => text

/-- A result that fails for want of a variable. -/
def EvalError.ofLookup {α : Type} : Except UnknownVariable α → Except EvalError α
  | .ok value => .ok value
  | .error e => .error (.unknownVariable e.name)

end RequestFlow
