import RequestFlow.Proofs.Expression.Operand
import RequestFlow.Proofs.Expression.Shape
import RequestFlow.Proofs.Markup.Printed
import RequestFlow.Proofs.Template
import RequestFlow.Run.Attempt

/-!
# Lists that are written out

A list of strings, written as JSON, is an operand of the expression language. Before it is read as
JSON the search for operators goes over it, and that search knows quotes and brackets but not the
backslash in front of a quote. So a string with a quote in it can put the brackets after it in the
open, and then an operator after them.

* `Shape.Flagged`, `eval_flagged`: what has an operator at its top level has a flag for its value;
* `listing`: a list of strings as it is written;
* `not_exposed_listing`: lists in which no operator can come to stand in the open;
* `evaluate_strings`: when a list has its strings for its value;
* `evaluate_strings_exposed`: a list that has not.
-/

namespace RequestFlow

open Text

namespace Expression

/-! ## Expressions with an operator -/

/-- The shapes of texts with an operator between operands: their values are flags. -/
inductive Shape.Flagged : Shape → Prop where
  | any (parts : List (List Char)) : Flagged (.any parts)
  | all (parts : List (List Char)) : Flagged (.all parts)
  | comparison (op : Operator) (left right : List Char) : Flagged (.comparison op left right)
  | malformed (cause : EvalError) : Flagged (.malformed cause)

theorem flagged_partsShape (op : Operator) {f : List (List Char) → Shape}
    (hf : ∀ parts, (f parts).Flagged) (cs : List Char) : (partsShape op f cs).Flagged := by
  unfold partsShape
  dsimp only
  split
  · exact .malformed _
  · exact hf _

theorem flagged_comparisonShape (op : Operator) (left right : List Char) :
    (comparisonShape op left right).Flagged := by
  unfold comparisonShape
  split
  · exact .malformed _
  · exact .comparison ..

/-- An operator that is exposed is the operator of the text, unless another one is. -/
theorem flagged_shape {op : Operator} {cs : List Char} (h : Exposed op .start cs)
    (htrim : trim cs = cs) : (shape cs).Flagged := by
  unfold shape
  split
  · exact flagged_partsShape _ .any _
  · rename_i hor
    split
    · exact flagged_partsShape _ .all _
    · rename_i hand
      rw [htrim, comparedShape]
      split
      · exact flagged_comparisonShape ..
      · rename_i hdiffers
        split
        · exact flagged_comparisonShape ..
        · rename_i hequals
          refine absurd (cut_isSome_iff.2 h) ?_
          cases op <;> simp_all

theorem eval_flagged {cs : List Char} (h : (shape cs).Flagged) {scope : TextMap} {value : Json}
    (heval : (Expr.parse cs).eval scope = .ok value) : ∃ flag, value = .bool flag := by
  have hmap {result : Except EvalError Bool} (hresult : result.map Json.bool = .ok value) :
      ∃ flag, value = .bool flag := by
    cases result <;> cases hresult
    exact ⟨_, rfl⟩
  rw [parse_eq] at heval
  generalize shape cs = spelled at h heval
  cases h with
  | any parts =>
    rw [Expr.eval] at heval
    exact hmap heval
  | all parts =>
    rw [Expr.eval] at heval
    exact hmap heval
  | comparison op left right =>
    rw [Expr.eval] at heval
    cases hleft : (Expr.parse left).eval scope with
    | error e => simp [hleft, bind, Except.bind] at heval
    | ok l =>
      cases hright : (Expr.parse right).eval scope with
      | error e => simp [hleft, hright, bind, Except.bind] at heval
      | ok r =>
        simp only [hleft, hright, bind, Except.bind, pure, Except.pure, Except.ok.injEq] at heval
        exact ⟨_, heval.symm⟩
  | malformed cause => cases heval

/-! ## Lists of strings -/

/-- The list as it is written. -/
def listing (items : List String) : List Char := (Json.strings items).chars

theorem listing_eq (items : List String) :
    listing items = '[' :: (Json.itemChars (items.map .string) ++ [']']) := by
  rw [listing, Json.strings, Json.chars]

/-- A character that only stands in an escape: the backslash, a letter or a digit. -/
def inEscape (c : Char) : Bool := c == '\\' || c.isAlphanum

theorem inEscape_hexDigit : ∀ n < 16, inEscape (Json.hexDigit n) = true := by decide

/-- Of the characters that an escape may be written with, no other one stands for itself. -/
theorem eq_of_mem_escapeChar {c d : Char} (h : d ∈ Json.escapeChar c) (hd : inEscape d = false) :
    d = c := by
  have hne {e : Char} (he : inEscape e = true) : d ≠ e := by
    rintro rfl
    cases hd.symm.trans he
  have hslash : d ≠ '\\' := hne (by decide)
  have hescapes : ['n', 'r', 't', 'b', 'f', 'u', '0'].all inEscape = true := by decide
  have hletters : ∀ e ∈ ['n', 'r', 't', 'b', 'f', 'u', '0'], d ≠ e :=
    fun e he => hne (List.all_eq_true.1 hescapes e he)
  simp only [List.forall_mem_cons] at hletters
  unfold Json.escapeChar at h
  split at h
  · simp_all
  split at h
  · simp_all
  split at h
  · simp_all
  split at h
  · simp_all
  split at h
  · simp_all
  split at h
  · simp_all
  split at h
  · simp_all
  split at h
  · rename_i hcontrol
    have hhigh := hne (inEscape_hexDigit (c.toNat / 16) (by omega))
    have hlow := hne (inEscape_hexDigit (c.toNat % 16) (by omega))
    simp [hslash, hletters, hhigh, hlow] at h
  · exact List.mem_singleton.1 h

theorem mem_quoted {text : String} {d : Char} (h : d ∈ Json.quoted text)
    (hd : inEscape d = false) : d = '"' ∨ d ∈ text.toList := by
  simp only [Json.quoted, Json.escape, List.mem_cons, List.mem_append, List.mem_flatMap,
    List.not_mem_nil, or_false] at h
  rcases h with h | ⟨c, hc, hmem⟩ | h
  · exact .inl h
  · exact .inr (eq_of_mem_escapeChar hmem hd ▸ hc)
  · exact .inl h

/-- The strings of a list with commas between them. -/
def listed (items : List String) : List Char := Json.itemChars (items.map .string)

theorem listed_one (item : String) : listed [item] = Json.quoted item := by
  simp [listed, Json.itemChars, Json.chars]

theorem listed_more (item next : String) (rest : List String) :
    listed (item :: next :: rest) = Json.quoted item ++ ',' :: listed (next :: rest) := by
  simp [listed, Json.itemChars, Json.chars]

/-- A character between the brackets of a list is one of a string in it, or one that strings and
lists are written with. -/
theorem mem_listed {items : List String} {d : Char} (h : d ∈ listed items)
    (hd : inEscape d = false) : d = '"' ∨ d = ',' ∨ ∃ item ∈ items, d ∈ item.toList := by
  induction items with
  | nil => simp [listed, Json.itemChars] at h
  | cons item rest ih =>
    have hitem (hquoted : d ∈ Json.quoted item) :
        d = '"' ∨ d = ',' ∨ ∃ other ∈ item :: rest, d ∈ other.toList :=
      (mem_quoted hquoted hd).imp_right fun hmem => .inr ⟨item, List.mem_cons_self, hmem⟩
    cases rest with
    | nil => exact hitem (listed_one item ▸ h)
    | cons next rest =>
      rw [listed_more, List.mem_append, List.mem_cons] at h
      rcases h with h | h | h
      · exact hitem h
      · exact .inr (.inl h)
      · rcases ih h with h | h | ⟨other, hother, hmem⟩
        · exact .inl h
        · exact .inr (.inl h)
        · exact .inr (.inr ⟨other, List.mem_cons_of_mem item hother, hmem⟩)

theorem hides_listed {items : List String} (h : ∀ item ∈ items, '"' ∉ item.toList) (op : Operator)
    (depth : Nat) : Hides op (depth + 1) (listed items) := by
  have hquoted {item : String} (hitem : '"' ∉ item.toList) :
      Hides op (depth + 1) (Json.quoted item) := by
    refine hides_quoted rfl fun hmem => ?_
    obtain ⟨c, hc, hescape⟩ := List.mem_flatMap.1 hmem
    exact hitem (eq_of_mem_escapeChar hescape (by decide) ▸ hc)
  induction items with
  | nil => exact Passes.nil
  | cons item rest ih =>
    obtain ⟨hitem, hrest⟩ := List.forall_mem_cons.1 h
    cases rest with
    | nil => exact listed_one item ▸ hquoted hitem
    | cons next rest =>
      rw [listed_more]
      have hcomma : Hides op (depth + 1) [','] := hides_char (by decide) (.inl (Nat.succ_pos depth))
      exact (hquoted hitem).append (hcomma.cons (ih hrest))

/-- Where nothing closes, the scan stays as many brackets deep as it is. -/
theorem depth_le_foldl {cs : List Char} (h : ∀ c ∈ cs, Scan.closes c = false) (s : Scan) :
    s.depth ≤ (cs.foldl Scan.step s).depth := by
  induction cs generalizing s with
  | nil => exact Nat.le_refl _
  | cons c cs ih =>
    obtain ⟨hc, hcs⟩ := List.forall_mem_cons.1 h
    refine Nat.le_trans ?_ (ih hcs (s.step c))
    unfold Scan.step
    split
    · split <;> exact Nat.le_refl _
    · rw [hc]
      split
      · exact Nat.le_refl _
      · split
        · exact Nat.le_succ _
        · exact Nat.le_refl _

theorem not_exposed_bracketed {cs : List Char} (h : ∀ c ∈ cs, Scan.closes c = false)
    (op : Operator) :
    ¬ Exposed op .start ('[' :: (cs ++ [']'])) := by
  rintro ⟨front, rest, heq, houtside⟩
  cases front with
  | nil =>
    have hhead := (List.cons.inj heq).1
    cases op <;> exact absurd hhead (by decide)
  | cons a front =>
    obtain ⟨rfl, hafter⟩ := List.cons.inj heq
    have hfront : front <+: cs := by
      rcases List.prefix_concat_iff.1 ⟨_, hafter.symm⟩ with hwhole | hfront
      · rw [hwhole] at hafter
        simp at hafter
      · exact hfront
    have hdepth : 1 ≤ (front.foldl Scan.step ⟨none, 1⟩).depth :=
      depth_le_foldl (fun c hc => h c (hfront.subset hc)) ⟨none, 1⟩
    simp only [Scan.outside, Bool.and_eq_true, beq_iff_eq] at houtside
    have hzero : (front.foldl Scan.step ⟨none, 1⟩).depth = 0 := houtside.2
    omega

/-! ## The value of a list -/

theorem parse_listing {cs : List Char} (h : ∀ op, ¬ Exposed op .start cs) (framed : Framed cs)
    (hhead : cs.head? = some '[') : Expr.parse cs = .operand (.list (String.ofList cs)) := by
  obtain ⟨rest, rfl⟩ : ∃ rest, cs = '[' :: rest := by
    cases cs <;> simp_all
  have hcut (op : Operator) : cut op .start ('[' :: rest) = none := cut_eq_none_iff.2 (h op)
  have hoperand : Operand.parse ('[' :: rest) = .list (String.ofList ('[' :: rest)) := by
    have hunquoted : Operand.unquoted? ('[' :: rest) = none := by
      simp [Operand.unquoted?, Scan.isQuote]
    rw [Operand.parse, placeholder_of_head (by decide), hunquoted]
    simp
  have hshape : shape ('[' :: rest) = .operand (.list (String.ofList ('[' :: rest))) := by
    have hunary : unaryShape ('[' :: rest) = negatedShape 0 ('[' :: rest) :=
      unaryShape_replicate framed (by simp) 0
    simp only [shape, hcut, framed.trim_eq, comparedShape, hunary]
    simp [negatedShape, group?, hoperand]
  rw [parse_eq, hshape]

theorem toJson_strings (items : List String) :
    (Node.ofJson (Json.strings items)).toJson = Json.strings items := by
  have hitems : Node.toJsonItems (Node.ofJsonItems (items.map .string)) = items.map .string := by
    induction items with
    | nil => rfl
    | cons item rest ih =>
      rw [List.map_cons, Node.ofJsonItems, Node.toJsonItems, ih, Node.ofJson, Node.toJson]
  rw [Json.strings, Node.ofJson, Node.toJson, hitems]

theorem parse_strings (items : List String) :
    JsonText.parse (listing items) = .ok (Json.strings items) := by
  have hprinted : Json.Printed JsonText.maxDepth (Json.strings items) := by
    refine @Json.printed_array 126 _ fun item hitem => ?_
    obtain ⟨text, -, rfl⟩ := List.mem_map.1 hitem
    exact Json.printed_string text
  have hread := Json.read_compact hprinted
  rw [Json.compact, String.toList_ofList] at hread
  rw [JsonText.parse, listing, hread]
  exact congrArg Except.ok (toJson_strings items)

theorem framed_listing (items : List String) : Framed (listing items) := by
  rw [listing_eq]
  exact Framed.enclosed (by decide) (by decide)

section

variable {items : List String}

theorem plain_listing (braceless : ∀ item ∈ items, ∀ c ∈ item.toList, Template.isBrace c = false) :
    Template.Plain (listing items) := by
  refine Template.plain_of_braceless fun c hc => ?_
  cases hbrace : Template.isBrace c with
  | false => rfl
  | true =>
    have hc' : c = '{' ∨ c = '}' := by simpa [Template.isBrace] using hbrace
    have hescape : inEscape c = false ∧ c ∉ ['[', ']', '"', ','] := by
      rcases hc' with rfl | rfl <;> decide
    simp only [List.mem_cons, List.not_mem_nil, or_false, not_or] at hescape
    have hlisted : c ∈ listed items := by simpa [listing_eq, listed, hescape] using hc
    obtain ⟨item, hitem, hmem⟩ : ∃ item ∈ items, c ∈ item.toList := by
      simpa [hescape] using mem_listed hlisted hescape.1
    cases hbrace.symm.trans (braceless item hitem c hmem)

/-- A list has its strings for its value if no operator is exposed in it. -/
theorem evaluate_listing (braceless : ∀ item ∈ items, ∀ c ∈ item.toList, Template.isBrace c = false)
    (h : ∀ op, ¬ Exposed op .start (listing items)) (scope : TextMap) :
    evaluate (String.ofList (listing items)) scope = .ok (Json.strings items) := by
  have framed := framed_listing items
  have hhead : (listing items).head? = some '[' := by
    rw [listing_eq]
    rfl
  have hcore : (listing items).isEmpty = false := by simpa using framed.ne_nil
  have hlist : (Operand.list (String.ofList (listing items))).eval scope =
      .ok (Json.strings items) := by
    rw [Operand.eval, Template.render_plain scope (plain_listing braceless)]
    have hrendered : EvalError.ofLookup (.ok (String.ofList (listing items))) =
        .ok (String.ofList (listing items)) := rfl
    simp only [hrendered, bind, Except.bind, String.toList_ofList, parse_strings]
    rfl
  simp only [evaluate, String.toList_ofList, framed.trim_eq, hcore, Bool.false_eq_true, if_false]
  rw [parse_listing h framed hhead, Expr.eval, hlist]

/-- Where an operator is exposed it has a flag for its value, if any. -/
theorem evaluate_exposed {op : Operator} (h : Exposed op .start (listing items)) (scope : TextMap) :
    evaluate (String.ofList (listing items)) scope ≠ .ok (Json.strings items) := by
  intro heval
  have framed := framed_listing items
  have hcore : (listing items).isEmpty = false := by simpa using framed.ne_nil
  simp only [evaluate, String.toList_ofList, framed.trim_eq, hcore, Bool.false_eq_true,
    if_false] at heval
  obtain ⟨flag, hflag⟩ := eval_flagged (flagged_shape h framed.trim_eq) heval
  cases hflag

/-- No operator is exposed in a list whose strings have no quotes of its kind, or close nothing. -/
theorem not_exposed_listing
    (braceless : ∀ item ∈ items, ∀ c ∈ item.toList, Template.isBrace c = false)
    (h : (∀ item ∈ items, '"' ∉ item.toList) ∨
      ∀ item ∈ items, ']' ∉ item.toList ∧ ')' ∉ item.toList) (op : Operator) :
    ¬ Exposed op .start (listing items) := by
  rw [listing_eq]
  rcases h with h | h
  · have hides : Hides op 0 ('[' :: (listed items ++ [']'])) :=
      hides_bracketed (by decide) (by decide) (hides_listed h op 0)
    exact cut_eq_none_iff.1 hides.cut_eq_none
  · refine not_exposed_bracketed (fun c hc => ?_) op
    cases hcloses : Scan.closes c with
    | false => rfl
    | true =>
      have hc' : c = ')' ∨ c = ']' ∨ c = '}' := by simpa [Scan.closes, or_assoc] using hcloses
      have hescape : inEscape c = false ∧ c ∉ ['"', ','] := by
        rcases hc' with rfl | rfl | rfl <;> decide
      simp only [List.mem_cons, List.not_mem_nil, or_false, not_or] at hescape
      obtain ⟨item, hitem, hmem⟩ : ∃ item ∈ items, c ∈ item.toList := by
        simpa [hescape] using mem_listed hc hescape.1
      rcases hc' with rfl | rfl | rfl
      · exact absurd hmem (h item hitem).2
      · exact absurd hmem (h item hitem).1
      · cases braceless item hitem '}' hmem

/-- A loop over a list goes over its strings. -/
theorem attemptLoop_listing
    (h : evaluate (String.ofList (listing items)) = fun _ => .ok (Json.strings items))
    (hne : items ≠ []) (run : Run) (vars : TextMap) (requests : RequestIndex) (request : Request)
    (var : String) :
    run.attemptLoop ⟨vars, requests, evaluate⟩ request ⟨String.ofList (listing items), var⟩ =
      .looping { run with
        loop := some {
          step := run.index, items, var := trimmed var, binds := run.origin == .workflow } } := by
  have hitems : Json.items (Json.strings items) = .ok items := by
    simp [Json.strings, Json.items, Json.text, Function.comp_def]
  simp only [Run.attemptLoop, h, Except.bind, hitems]

end

/-- A list that is written out has its strings for its value, and a loop over it goes over them, if
and only if the search for operators finds none in it. It finds none where no string holds a quote,
and none where no string holds a bracket that closes. -/
theorem evaluate_strings (items : List String)
    (braceless : ∀ item ∈ items, ∀ c ∈ item.toList, Template.isBrace c = false)
    (scope : TextMap) :
    let literal := (Json.strings items).compact
    (evaluate literal scope = .ok (Json.strings items) ↔
      ∀ op, ¬ Exposed op .start literal.toList) ∧
    ((∀ item ∈ items, '"' ∉ item.toList) ∨
        (∀ item ∈ items, ']' ∉ item.toList ∧ ')' ∉ item.toList) →
      ∀ op, ¬ Exposed op .start literal.toList) ∧
    ((∀ op, ¬ Exposed op .start literal.toList) → items ≠ [] →
      ∀ (run : Run) (vars : TextMap) (requests : RequestIndex) (request : Request) (var : String),
        run.attemptLoop ⟨vars, requests, evaluate⟩ request ⟨literal, var⟩ =
          .looping { run with
            loop := some {
              step := run.index, items, var := trimmed var
              binds := run.origin == .workflow } }) := by
  have hliteral : (Json.strings items).compact = String.ofList (listing items) := rfl
  simp only [hliteral, String.toList_ofList]
  refine ⟨⟨fun heval op hexposed => ?_, fun h => ?_⟩, fun h => ?_, fun h hne => ?_⟩
  · exact evaluate_exposed hexposed scope heval
  · exact evaluate_listing braceless h scope
  · exact not_exposed_listing braceless h
  · exact attemptLoop_listing (funext fun scope => evaluate_listing braceless h scope) hne

/-- A list of strings with brackets, operators and backslashes, and one of strings with quotes. -/
theorem evaluate_strings_hidden :
    evaluate (Json.strings ["]||\\", "(a == 'b'"]).compact .empty =
        .ok (Json.strings ["]||\\", "(a == 'b'"]) ∧
      evaluate (Json.strings ["say \"(||\"", "!= '"]).compact .empty =
        .ok (Json.strings ["say \"(||\"", "!= '"]) := by
  have hfirst := evaluate_strings ["]||\\", "(a == 'b'"] (by simp [Template.isBrace]) .empty
  have hsecond := evaluate_strings ["say \"(||\"", "!= '"] (by simp [Template.isBrace]) .empty
  exact ⟨hfirst.1.2 (hfirst.2.1 (.inl (by decide))), hsecond.1.2 (hsecond.2.1 (.inr (by decide)))⟩

/-- A string that is lost: the quote in it ends the quotation for the search, the bracket after it
closes the list, and what is behind them is taken for an operator. -/
theorem evaluate_strings_exposed : ∃ items : List String,
    (∀ item ∈ items, ∀ c ∈ item.toList, Template.isBrace c = false) ∧
      evaluate (Json.strings items).compact .empty ≠ .ok (Json.strings items) := by
  refine ⟨["\"]||"], by simp [Template.isBrace], ?_⟩
  have hexposed : Exposed .or .start (listing ["\"]||"]) :=
    ⟨['[', '"', '\\', '"', ']'], ['"', ']'], by decide, by decide⟩
  exact evaluate_exposed hexposed .empty

end Expression

end RequestFlow
