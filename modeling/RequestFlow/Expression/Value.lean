import RequestFlow.Expression.Error
import RequestFlow.Json.Printer
import RequestFlow.Markup.JsonText

/-!
# What values mean

The value of an expression decides a guard by its truth, chooses a case by its equality with
another value, goes into a variable as text, and yields the items of a loop.
-/

namespace RequestFlow.Json

/-- The text of a value: a string is its own text, null has none, and other values have their
JSON text. -/
def text : Json → String
  | null => ""
  | string s => s
  | value => value.compact

/-- A text in lower case, as far as its letters are ASCII. -/
def lowerAscii (s : String) : List Char := s.toList.map Char.toLower

/-- Whether a text counts as true: all do but blank ones, `0`, `null` and `false` in any case. -/
def textTruthy (s : String) : Bool :=
  let core := Text.trimmed s
  !(core == "" || lowerAscii core == ['f', 'a', 'l', 's', 'e'] || core == "0" || core == "null")

/-- Whether a value counts as true. -/
def truthy : Json → Bool
  | null => false
  | bool flag => flag
  | number n => !n.isZero
  | string s => textTruthy s
  | array items => !items.isEmpty
  | object members => !members.isEmpty

/-- Null, false, zero and what is empty count as false, and so do texts that are blank or say so. -/
theorem truthy_eq_false_iff {value : Json} :
    value.truthy = false ↔
      value = null ∨ value = bool false ∨ value = array [] ∨ value = object [] ∨
        (∃ n : Number, value = number n ∧ n.toDouble.isZero = true) ∨
        ∃ s, value = string s ∧ (Text.trimmed s ∈ ["", "0", "null"] ∨
          lowerAscii (Text.trimmed s) = "false".toList) := by
  cases value with
  | string s =>
    have hfalse : "false".toList = ['f', 'a', 'l', 's', 'e'] := rfl
    simp only [truthy, textTruthy, hfalse, Bool.not_eq_false', Bool.or_eq_true, beq_iff_eq,
      List.mem_cons, List.not_mem_nil, or_false, reduceCtorEq, false_or, false_and,
      string.injEq, exists_eq_left']
    grind
  | _ => simp [truthy, Number.isZero]

/-- Equality of values: like with like, and otherwise by text. -/
def same : Json → Json → Bool
  | number m, number n => m.same n
  | string s, string t => s == t
  | bool a, bool b => a == b
  | null, null => true
  | left, right => left.text == right.text

/-- Numbers are the same where they come to the same double, and other values, also of different
kinds, where they have the same text. -/
theorem same_iff {left right : Json} :
    left.same right = true ↔
      match left, right with
      | number m, number n => m.toDouble.same n.toDouble = true
      | _, _ => left.text = right.text := by
  have hflags (a b : Bool) : (bool a).text = (bool b).text ↔ a = b := by
    cases a <;> cases b <;> decide
  unfold same
  split
  · rfl
  · simp [text]
  · simp [hflags]
  · simp
  · rename_i hnumbers _ _ _
    split
    · exact absurd rfl (hnumbers _ _ rfl)
    · exact beq_iff_eq

/-- The parts of a text between the commas. -/
def commaParts : List Char → List (List Char)
  | [] => [[]]
  | c :: rest =>
    if c = ',' then [] :: commaParts rest
    else match commaParts rest with
      | [] => [[c]]
      | part :: parts => (c :: part) :: parts

/-- The items of a list that is written with commas; blank ones do not count. -/
def commaItems (cs : List Char) : List String :=
  (((commaParts cs).map Text.trim).filter (!·.isEmpty)).map String.ofList

/-- The items that a value stands for: those of a list, of a text that holds a JSON list, or of a
text with commas. Null and blank texts have none. -/
def items : Json → Except EvalError (List String)
  | null => .ok []
  | array values => .ok (values.map text)
  | string s =>
    let core := Text.trim s.toList
    match core with
    | '[' :: _ =>
      match JsonText.parse core with
      | .ok (array values) => .ok (values.map text)
      | .ok value => .error (.notAList value)
      | .error fault => .error (.invalidItems fault)
    | core => .ok (commaItems core)
  | value => .error (.notAList value)

end RequestFlow.Json
