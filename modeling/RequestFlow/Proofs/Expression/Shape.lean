import RequestFlow.Proofs.Expression.Scan

/-!
# What an expression's text is taken apart into

The reader finds the loosest operator of a text, takes the text apart there and goes on with the
parts. A text that is put together from parts with an operator that the parts hide is taken apart
into these parts again.

* `Junction`: disjunction and conjunction, which join any number of terms;
* `parse_joined`, `parse_comparison`, `parse_marked`, `parse_group`, `parse_operand`: the expression
  that a text of each kind spells, from those that its parts spell.
-/

namespace RequestFlow

open Text

namespace Expression

/-- The expression of a text, from its shape. -/
theorem parse_eq (cs : List Char) :
    Expr.parse cs =
      match shape cs with
      | .any parts => .any (parts.map Expr.parse)
      | .all parts => .all (parts.map Expr.parse)
      | .comparison op left right => .comparison op (Expr.parse left) (Expr.parse right)
      | .negation count inner => .negation count (Expr.parse inner)
      | .group inner => Expr.parse inner
      | .operand value => .operand value
      | .malformed cause => .malformed cause := by
  rw [Expr.parse]
  split <;> simp [*]

/-! ## Terms that are joined -/

/-- The two operators that join any number of terms. -/
inductive Junction where
  | or
  | and

namespace Junction

/-- The operator between the terms. -/
def operator : Junction → Operator
  | or => .or
  | and => .and

/-- The truth of a term that decides the truth of the whole. -/
def decisive : Junction → Bool
  | or => true
  | and => false

/-- The expression of its terms. -/
def expr : Junction → List Expr → Expr
  | or => .any
  | and => .all

/-- The truth of terms that are joined. -/
def truth (j : Junction) (scope : TextMap) : List Expr → Except EvalError Bool :=
  match j with
  | or => Expr.evalAny scope
  | and => Expr.evalAll scope

theorem eval_expr (j : Junction) (scope : TextMap) (parts : List Expr) :
    (j.expr parts).eval scope = (j.truth scope parts).map .bool := by
  cases j <;> simp [expr, truth, Expr.eval]

theorem truth_cons (j : Junction) (scope : TextMap) (part : Expr) (rest : List Expr) :
    j.truth scope (part :: rest) = (part.eval scope).bind fun value =>
      if value.truthy = j.decisive then .ok j.decisive else j.truth scope rest := by
  cases j with
  | or => simp only [truth, decisive, Expr.evalAny]; rfl
  | and =>
    simp only [truth, decisive, Expr.evalAll]
    refine congrArg _ (funext fun value => ?_)
    cases value.truthy <;> rfl

theorem truth_one (j : Junction) (scope : TextMap) (part : Expr) :
    j.truth scope [part] = (part.eval scope).map Json.truthy := by
  have hnil : j.truth scope [] = .ok (!j.decisive) := by
    cases j <;> simp [truth, decisive, Expr.evalAny, Expr.evalAll]
  rw [truth_cons, hnil]
  cases part.eval scope with
  | error e => rfl
  | ok value => cases j <;> cases h : value.truthy <;> simp [Except.bind, Except.map, decisive, h]

end Junction

section

variable {op : Operator} {cs others : List Char} {parts : List (List Char)}

theorem partsShape_of_terms (f : List (List Char) → Shape) (h : Terms op cs parts) :
    partsShape op f cs = f parts := by
  have hsplit : (split op cs).map trim = parts := @Terms.split op cs [] parts h Passes.nil (by simp)
  have hparts : parts.any List.isEmpty = false := by
    simpa using fun part hpart => (h.framed part hpart).ne_nil
  simp [partsShape, hsplit, hparts]

/-- Terms with the operator between them that each of them hides. -/
theorem parse_joined (j : Junction) (hides : Hides j.operator 0 cs) (framed : Framed cs)
    (rest : Terms j.operator others parts)
    (hor : j.operator ≠ .or → Hides .or 0 (spaced j.operator cs others)) :
    Expr.parse (spaced j.operator cs others) = j.expr ((cs :: parts).map Expr.parse) := by
  have hterms := Terms.more hides framed rest
  cases j with
  | or =>
    have hcut : cut .or .start (spaced .or cs others) = some (cs ++ [' '], ' ' :: others) :=
      hides.cut_spaced
    have hshape : shape (spaced .or cs others) = .any (cs :: parts) := by
      unfold shape
      rw [if_pos (Option.isSome_of_eq_some hcut)]
      exact partsShape_of_terms .any hterms
    rw [Junction.operator, parse_eq, hshape]
    rfl
  | and =>
    have hnone : cut .or .start (spaced .and cs others) = none := (hor (by decide)).cut_eq_none
    have hcut : cut .and .start (spaced .and cs others) = some (cs ++ [' '], ' ' :: others) :=
      hides.cut_spaced
    have hshape : shape (spaced .and cs others) = .all (cs :: parts) := by
      unfold shape
      rw [if_neg (by simp [hnone]), if_pos (Option.isSome_of_eq_some hcut)]
      exact partsShape_of_terms .all hterms
    rw [Junction.operator, parse_eq, hshape]
    rfl

end

/-! ## Comparisons -/

/-- The operator of a comparison: for equality or for difference. -/
def comparator (equal : Bool) : Operator := if equal then .equals else .differs

section

variable {cs left right : List Char}

theorem shape_of_hides (hor : Hides .or 0 cs) (hand : Hides .and 0 cs) (hf : Framed cs) :
    shape cs = comparedShape cs := by
  unfold shape
  rw [if_neg (by simp [hor.cut_eq_none]), if_neg (by simp [hand.cut_eq_none]), hf.trim_eq]

theorem parse_comparison (equal : Bool) (hl : ∀ op, Hides op 0 left) (hr : ∀ op, Hides op 0 right)
    (fl : Framed left) (fr : Framed right) :
    Expr.parse (spaced (comparator equal) left right) =
      .comparison (comparator equal) (Expr.parse left) (Expr.parse right) := by
  have hother : ∀ op, op ≠ .equals → (equal = true ∨ op ≠ .differs) →
      Hides op 0 (spaced (comparator equal) left right) := by
    intro op he hd
    refine hides_spaced (hl op) (hr op) (.inr ?_)
    cases equal <;> cases op <;> simp_all [comparator, Operator.symbol]
  have hcut := @Hides.cut_spaced (comparator equal) left right (hl _)
  have hleft : trim (left ++ [' ']) = left := @trim_framed [] [' '] left fl (by simp) blank_space
  have hright : trim (' ' :: right) = right := by
    simpa using @trim_framed [' '] [] right fr blank_space (by simp)
  have hsides : comparisonShape (comparator equal) left right =
      .comparison (comparator equal) left right := by
    simp [comparisonShape, fl.ne_nil, fr.ne_nil]
  have hshape : shape (spaced (comparator equal) left right) =
      .comparison (comparator equal) left right := by
    rw [shape_of_hides (hother .or (by decide) (.inr (by decide)))
      (hother .and (by decide) (.inr (by decide))) (fl.spaced fr), comparedShape]
    cases equal with
    | false =>
      rw [comparator, if_neg (by decide)] at hcut ⊢
      rw [hcut]
      simpa [hleft, hright, comparator] using hsides
    | true =>
      have hnone := (hother .differs (by decide) (.inl rfl)).cut_eq_none
      rw [comparator, if_pos rfl] at hcut hnone ⊢
      rw [hnone, hcut]
      simpa [hleft, hright, comparator] using hsides
  rw [parse_eq, hshape]

end

/-! ## Texts without operators between operands -/

section

variable {cs : List Char} {count : Nat}

theorem comparedShape_of_hides (h : ∀ op, Hides op 0 cs) : comparedShape cs = unaryShape cs := by
  rw [comparedShape, (h .differs).cut_eq_none, (h .equals).cut_eq_none]

theorem shape_of_hidesAll (h : ∀ op, Hides op 0 cs) (hf : Framed cs) : shape cs = unaryShape cs :=
  (shape_of_hides (h .or) (h .and) hf).trans (comparedShape_of_hides h)

/-- All exclamation marks at the front are taken. -/
theorem negations_replicate (hf : Framed cs) (hm : cs.head? ≠ some '!') (count : Nat) :
    negations (List.replicate count '!' ++ cs) = (count, cs) := by
  induction count with
  | zero =>
    obtain ⟨c, rest, rfl, hc, -⟩ := hf.head
    have hmark : c ≠ '!' := by simpa using hm
    simp [negations, hmark, hc]
  | succ count ih => simp [List.replicate_succ, negations, ih]

theorem unaryShape_replicate (hf : Framed cs) (hm : cs.head? ≠ some '!') (count : Nat) :
    unaryShape (List.replicate count '!' ++ cs) = negatedShape count cs := by
  rw [unaryShape, negations_replicate hf hm]
  simp only [hf.trim_eq]

theorem hides_replicate {op : Operator} {depth : Nat} (h : Hides op depth cs) (hf : Framed cs)
    (count : Nat) :
    Hides op depth (List.replicate count '!' ++ cs) ∧ Framed (List.replicate count '!' ++ cs) := by
  induction count with
  | zero => exact ⟨h, hf⟩
  | succ count ih =>
    rw [List.replicate_succ, List.cons_append]
    exact ⟨ih.1.marked ih.2, ih.2.marked⟩

theorem parse_marked (h : ∀ op, Hides op 0 cs) (hf : Framed cs) (hm : cs.head? ≠ some '!')
    (count : Nat) :
    Expr.parse (List.replicate (count + 1) '!' ++ cs) = .negation (count + 1) (Expr.parse cs) := by
  have hides : ∀ op, Hides op 0 (List.replicate (count + 1) '!' ++ cs) :=
    fun op => (hides_replicate (h op) hf (count + 1)).1
  have framed := (hides_replicate (h .or) hf (count + 1)).2
  have hshape : shape (List.replicate (count + 1) '!' ++ cs) = .negation (count + 1) cs := by
    rw [shape_of_hidesAll hides framed, unaryShape_replicate hf hm]
    simp [negatedShape, hf.ne_nil]
  rw [parse_eq, hshape]

theorem shape_of_head (h : ∀ op, Hides op 0 cs) (hf : Framed cs) (hm : cs.head? ≠ some '!') :
    shape cs = negatedShape 0 cs :=
  (shape_of_hidesAll h hf).trans (unaryShape_replicate hf hm 0)

theorem parse_group (h : ∀ op, Hides op 1 cs) (hb : Balanced cs) :
    Expr.parse ('(' :: (cs ++ [')'])) = Expr.parse cs := by
  have hides : ∀ op, Hides op 0 ('(' :: (cs ++ [')'])) :=
    fun op => hides_bracketed (by decide) (by decide) (h op)
  have framed : Framed ('(' :: (cs ++ [')'])) := Framed.enclosed (by decide) (by decide)
  have hshape : shape ('(' :: (cs ++ [')'])) = .group cs := by
    rw [shape_of_head hides framed (by simp), negatedShape, if_pos rfl, hb.group?]
  rw [parse_eq, hshape]

theorem parse_operand (h : ∀ op, Hides op 0 cs) (hf : Framed cs) (hm : cs.head? ≠ some '!')
    (hg : cs.head? ≠ some '(') : Expr.parse cs = .operand (Operand.parse cs) := by
  have hgroup : group? cs = none := by
    obtain ⟨c, rest, rfl, -⟩ := hf.head
    unfold group?
    split
    · rename_i heq
      cases heq
      simp at hg
    · rfl
  have hshape : shape cs = .operand (Operand.parse cs) := by
    rw [shape_of_head h hf hm, negatedShape, if_pos rfl, hgroup]
    simp [hf.ne_nil]
  rw [parse_eq, hshape]

end

end Expression

end RequestFlow
