import RequestFlow.Proofs.Expression.Seams

/-!
# Evaluation as a recursion on texts

The value of a text is found by taking the text apart at its outermost operator and calling for the
values of its parts, from left to right and no further than the result needs. Nothing is assumed of
these calls: each may come back with a value or an error, or not at all. Every call is on a shorter
text, whatever the text is, so that all of them come back.

* `marks`: the exclamation marks at the front of a text, none of them half of a `!=`;
* `outermost`: a text taken apart step by step, which is its shape (`outermost_eq_shape`);
* `evaluateOnce`: one call, given what becomes of the calls that it makes in turn;
* `evaluateWithin`: the recursion, with so many calls inside one another at most;
* `evaluateWithin_eq`: no more of them are needed than the text has characters, and one;
* `splits_and_descends`: how a text is split, and that its evaluation ends.
-/

namespace RequestFlow

open Text

namespace Expression

/-! ## Taking a text apart -/

/-- The text after the exclamation marks at its front, with the number of them. One that begins a
`!=` is not among them. -/
def marks : List Char → Nat × List Char
  | [] => (0, [])
  | c :: rest =>
    if c = '!' then
      if rest.head? = some '=' then (0, c :: rest)
      else ((marks rest).1 + 1, (marks rest).2)
    else if isBlank c then marks rest
    else (0, c :: rest)

/-- The parts of a text that has the operator, and what else it is if it does not. -/
def joinedShape (op : Operator) (shape : List (List Char) → Shape) (otherwise : Shape)
    (cs : List Char) : Shape :=
  match parts? op cs with
  | .error e => .malformed e
  | .ok (some parts) => shape parts
  | .ok none => otherwise

/-- The two sides of the first such operator, and what else the text is if it does not have it. -/
def sidesShape (op : Operator) (otherwise : Shape) (core : List Char) : Shape :=
  match cut op .start core with
  | some (left, right) => comparisonShape op (trim left) (trim right)
  | none => otherwise

/-- A text without operators between operands: marks and what follows them. -/
def markedShape (core : List Char) : Shape := negatedShape (marks core).1 (trim (marks core).2)

/-- A text taken apart at its outermost operator, which is looked for from the loosest one on. -/
def outermost (cs : List Char) : Shape :=
  let core := trim cs
  joinedShape .or .any
    (joinedShape .and .all
      (sidesShape .differs (sidesShape .equals (markedShape core) core) core) cs) cs

/-- Where no `!=` is at the top level, none is met among the exclamation marks at the front. -/
theorem marks_eq_negations {cs : List Char} (h : cut .differs .start cs = none) :
    marks cs = negations cs := by
  induction cs with
  | nil => rfl
  | cons c rest ih =>
    rw [marks, negations]
    split
    · rename_i hmark
      subst hmark
      have hrest : cut .differs .start rest = none := by
        rw [cut] at h
        split at h
        · cases h
        · exact Option.map_eq_none_iff.1 h
      have hhead : rest.head? ≠ some '=' := by
        intro hhead
        obtain ⟨more, rfl⟩ := List.head?_eq_some_iff.1 hhead
        simp [cut, startsWith, Scan.outside, Scan.start, Operator.symbol] at h
      rw [if_neg hhead, ih hrest]
    · split
      · rename_i hblank
        have hleading : cut .differs .start ([c] ++ rest) =
            (cut .differs .start rest).map fun parts => ([c] ++ parts.1, parts.2) :=
          cut_leading (List.forall_mem_singleton.2 hblank) rest
        exact ih (Option.map_eq_none_iff.1 (hleading.symm.trans h))
      · rfl

theorem joinedShape_eq (op : Operator) (f : List (List Char) → Shape) (otherwise : Shape)
    (cs : List Char) :
    joinedShape op f otherwise cs =
      if (cut op .start cs).isSome then partsShape op f cs else otherwise := by
  rw [joinedShape, parts?]
  cases hcut : cut op .start cs with
  | none => rfl
  | some parts =>
    show _ = partsShape op f cs
    rw [partsShape, Option.isNone_some, if_neg Bool.false_ne_true]
    cases ((split op cs).map trim).any List.isEmpty <;> rfl

theorem comparedShape_eq (core : List Char) :
    sidesShape .differs (sidesShape .equals (markedShape core) core) core = comparedShape core := by
  rw [sidesShape, sidesShape, comparedShape]
  cases hdiffers : cut .differs .start core with
  | some parts => rfl
  | none =>
    rw [markedShape, marks_eq_negations hdiffers]
    rfl

theorem outermost_eq_shape (cs : List Char) : outermost cs = shape cs := by
  rw [outermost, joinedShape_eq, joinedShape_eq, comparedShape_eq]
  rfl

/-! ## One call -/

/-- What a call comes to: a value or an error, or nothing if it never comes back. -/
abbrev Outcome := ExceptT EvalError Option

/-- The truth of terms that are joined; none is called for after the first one that decides. -/
def Junction.ask (j : Junction) (call : List Char → Outcome Json) :
    List (List Char) → Outcome Bool
  | [] => return !j.decisive
  | part :: rest => do
    let value ← call part
    if value.truthy = j.decisive then return j.decisive else j.ask call rest

/-- The value of a text taken apart, where `call` stands for the values of its parts. -/
def Shape.answer (scope : TextMap) (call : List Char → Outcome Json) : Shape → Outcome Json
  | any parts => return .bool (← Junction.or.ask call parts)
  | all parts => return .bool (← Junction.and.ask call parts)
  | comparison op left right => do
    let l ← call left
    let r ← call right
    return .bool (l.same r == (op == .equals))
  | negation count inner => do
    let value ← call inner
    return .bool (value.truthy != (count % 2 == 1))
  | group inner => call inner
  | operand value => .mk (some (value.eval scope))
  | malformed cause => throw cause

/-- One call: what the text comes to, where `call` stands for the calls that it makes in turn. -/
def evaluateOnce (scope : TextMap) (call : List Char → Outcome Json) (cs : List Char) :
    Outcome Json :=
  (outermost cs).answer scope call

/-- Evaluation with at most so many calls inside one another; a call too deep does not come back. -/
def evaluateWithin (scope : TextMap) : Nat → List Char → Outcome Json
  | 0, _ => .mk none
  | depth + 1, cs => evaluateOnce scope (evaluateWithin scope depth) cs

section

variable {scope : TextMap} {call other : List Char → Outcome Json} {cs : List Char}

theorem ask_congr (j : Junction) {parts : List (List Char)}
    (h : ∀ part ∈ parts, call part = other part) : j.ask call parts = j.ask other parts := by
  induction parts with
  | nil => rfl
  | cons part rest ih =>
    obtain ⟨hpart, hrest⟩ := List.forall_mem_cons.1 h
    rw [Junction.ask, Junction.ask, hpart, ih hrest]

/-- Nothing is called for but what the text was taken apart into. -/
theorem answer_congr {whole : Shape} (h : ∀ text ∈ whole.texts, call text = other text) :
    whole.answer scope call = whole.answer scope other := by
  cases whole with
  | any parts =>
    have hask : Junction.or.ask call parts = Junction.or.ask other parts := ask_congr .or h
    rw [Shape.answer, Shape.answer, hask]
  | all parts =>
    have hask : Junction.and.ask call parts = Junction.and.ask other parts := ask_congr .and h
    rw [Shape.answer, Shape.answer, hask]
  | comparison op left right =>
    obtain ⟨hleft, hrest⟩ := List.forall_mem_cons.1 h
    rw [Shape.answer, Shape.answer, hleft, hrest right List.mem_cons_self]
  | negation count inner => rw [Shape.answer, Shape.answer, h inner List.mem_cons_self]
  | group inner => exact h inner List.mem_cons_self
  | operand value => rfl
  | malformed cause => rfl

/-- What a text is taken apart into is shorter. -/
theorem length_outermost {text : List Char} (h : text ∈ (outermost cs).texts) :
    text.length < cs.length :=
  length_shape (outermost_eq_shape cs ▸ h)

/-- Calls on other than shorter texts might as well never come back: none is made. -/
theorem evaluateOnce_shorter (scope : TextMap) (call : List Char → Outcome Json) (cs : List Char) :
    evaluateOnce scope call cs =
      evaluateOnce scope (fun text => if text.length < cs.length then call text else .mk none) cs :=
  answer_congr fun _ htext => (if_pos (length_outermost htext)).symm

/-! ## All calls -/

theorem ask_answered (j : Junction) (scope : TextMap) (parts : List (List Char)) :
    j.ask (fun text => .mk (some ((Expr.parse text).eval scope))) parts =
      .mk (some (j.truth scope (parts.map Expr.parse))) := by
  induction parts with
  | nil => cases j <;> simp [Junction.ask, Junction.truth, Expr.evalAny, Expr.evalAll] <;> rfl
  | cons part rest ih =>
    rw [Junction.ask, ih, List.map_cons, Junction.truth_cons]
    cases (Expr.parse part).eval scope with
    | error e => rfl
    | ok value =>
      show (if value.truthy = j.decisive then _ else _) = _
      simp only [Except.bind]
      split <;> rfl

/-- If the calls give the values of the parts, the value is that of the text. -/
theorem answer_answered (scope : TextMap) (cs : List Char) :
    (shape cs).answer scope (fun text => .mk (some ((Expr.parse text).eval scope))) =
      .mk (some ((Expr.parse cs).eval scope)) := by
  have hjoined (j : Junction) (parts : List (List Char)) :
      (do return .bool (← j.ask
        (fun text => .mk (some ((Expr.parse text).eval scope))) parts) : Outcome Json) =
        .mk (some ((j.expr (parts.map Expr.parse)).eval scope)) := by
    rw [ask_answered, Junction.eval_expr]
    cases j.truth scope (parts.map Expr.parse) <;> rfl
  rw [parse_eq]
  cases shape cs with
  | any parts => exact hjoined .or parts
  | all parts => exact hjoined .and parts
  | comparison op left right =>
    rw [Shape.answer, Expr.eval]
    cases (Expr.parse left).eval scope with
    | error e => rfl
    | ok l => cases (Expr.parse right).eval scope <;> rfl
  | negation count inner =>
    rw [Shape.answer, Expr.eval]
    cases (Expr.parse inner).eval scope <;> rfl
  | group inner => rfl
  | operand value => rw [Shape.answer, Expr.eval]
  | malformed cause =>
    rw [Expr.eval]
    rfl

/-- With as many calls inside one another as the text has characters, and one, every call comes
back, and the value is that of the text. -/
theorem evaluateWithin_eq (scope : TextMap) {depth : Nat} {cs : List Char}
    (h : cs.length < depth) :
    evaluateWithin scope depth cs = .mk (some ((Expr.parse cs).eval scope)) := by
  induction depth generalizing cs with
  | zero => exact absurd h (Nat.not_lt_zero _)
  | succ depth ih =>
    have hparts : ∀ text ∈ (outermost cs).texts, evaluateWithin scope depth text =
        .mk (some ((Expr.parse text).eval scope)) := by
      intro text htext
      have hshorter := length_outermost htext
      exact ih (by omega)
    rw [evaluateWithin, evaluateOnce, answer_congr hparts, outermost_eq_shape, answer_answered]

/-- The value of an expression, which may not be blank, with so many calls inside one another at
most. -/
def evaluateText (scope : TextMap) (depth : Nat) (text : String) : Outcome Json :=
  let core := trim text.toList
  if core.isEmpty then throw .emptyExpression else evaluateWithin scope depth core

theorem evaluateText_eq (scope : TextMap) {depth : Nat} {text : String}
    (h : text.toList.length < depth) :
    evaluateText scope depth text = .mk (some (evaluate text scope)) := by
  have hcore : (trim text.toList).length < depth := Nat.lt_of_le_of_lt (length_trim_le _) h
  rw [evaluateText, evaluate, evaluateWithin_eq scope hcore]
  cases (trim text.toList).isEmpty <;> rfl

end

/-- What evaluation of a text comes to, as a recursion on texts. -/
structure Descends (cs : List Char) : Prop where
  /-- A text is taken apart in the steps of the reader. -/
  apart : outermost cs = shape cs
  /-- What it is taken apart into is shorter, whatever the text is. -/
  shorter : ∀ text ∈ (outermost cs).texts, text.length < cs.length
  /-- Only on shorter texts does a call depend on what becomes of the calls that it makes. -/
  calls : ∀ scope call, evaluateOnce scope call cs =
    evaluateOnce scope (fun text => if text.length < cs.length then call text else .mk none) cs
  /-- No more calls inside one another are needed than there are characters, and one. -/
  returns : ∀ scope depth, cs.length < depth →
    evaluateWithin scope depth cs = .mk (some ((Expr.parse cs).eval scope))
  /-- So evaluation ends, with the value or the error of the expression. -/
  ends : ∀ scope depth, cs.length < depth →
    evaluateText scope depth (String.ofList cs) = .mk (some (evaluate (String.ofList cs) scope))

/-- Whatever a text is, splitting it at an operator finds exactly what one pass over the text finds
and loses nothing of it; and its evaluation calls for the values of shorter texts only, so that it
ends, with a value or with an error. -/
theorem splits_and_descends (cs : List Char) : (∀ op, Splits op cs) ∧ Descends cs := by
  refine ⟨fun op => splits op cs, outermost_eq_shape cs, fun _ => length_outermost,
    fun scope call => evaluateOnce_shorter scope call cs,
    fun scope _ => evaluateWithin_eq scope, fun scope depth h => ?_⟩
  exact evaluateText_eq scope (by rwa [String.toList_ofList])

end Expression

end RequestFlow
