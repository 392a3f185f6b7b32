import RequestFlow.Proofs.Expression.Operand
import RequestFlow.Proofs.Expression.Shape
import RequestFlow.Proofs.Template
import RequestFlow.Proofs.Text.Blanks

/-!
# Expressions in round brackets

Round brackets around an expression are meant to leave its value as it is. Two scans have to agree
for that: the search for operators, which passes over quotes and counts brackets of every kind
outside of them, and the search for the bracket that closes a group, which counts round brackets
only and does not know of quotes. So the value stays the same if and only if the round brackets of
the expression are nested with those in its quotes counted as well; otherwise the brackets and all
that is in them are taken for a text.

* `parse_surrounded`: blanks around an expression make no difference;
* `Nested`: the texts whose quotes and brackets are closed in order;
* `Rounded`: the texts whose round brackets are, those in quotes included;
* `evaluate_grouped`: the value of an expression in round brackets;
* `evaluate_ungrouped`: a quotation whose value is lost in round brackets.
-/

namespace RequestFlow

open Text

namespace Expression

/-! ## Blanks around an expression -/

section

variable {op : Operator} {depth : Nat} {as bs cs : List Char} {c d : Char}

theorem ne_of_isBlank (hc : isBlank c = true) (hd : isBlank d = false) : c ≠ d := by
  rintro rfl
  cases hc.symm.trans hd

theorem isBlank_symbol (op : Operator) :
    isBlank op.symbol.1 = false ∧ isBlank op.symbol.2 = false := by
  cases op <;> decide

theorem isNeutral_of_isBlank (h : isBlank c = true) : isNeutral c = true := by
  have hne : ∀ d, isBlank d = false → c ≠ d := fun d hd => ne_of_isBlank h hd
  simp [isNeutral, Scan.isQuote, Scan.opens, Scan.closes, hne '"' (by decide), hne '\'' (by decide),
    hne '(' (by decide), hne '[' (by decide), hne '{' (by decide), hne ')' (by decide),
    hne ']' (by decide), hne '}' (by decide)]

theorem hides_blanks (h : ∀ c ∈ as, isBlank c = true) : Hides op depth as :=
  hides_of_all (fun c hc => isNeutral_of_isBlank (h c hc))
    (.inr fun c hc => ne_of_isBlank (h c hc) (isBlank_symbol op).1)

theorem startsWith_blanks (h : ∀ c ∈ bs, isBlank c = true) (c : Char) (cs : List Char) :
    startsWith op (c :: (cs ++ bs)) = startsWith op (c :: cs) := by
  match cs, bs, h with
  | _ :: _, _, _ => rfl
  | [], [], _ => rfl
  | [], b :: _, h =>
    have hb : b ≠ op.symbol.2 := ne_of_isBlank (h b List.mem_cons_self) (isBlank_symbol op).2
    simp [startsWith, hb]

theorem cut_blanks (h : ∀ c ∈ bs, isBlank c = true) (s : Scan) : cut op s bs = none := by
  induction bs generalizing s with
  | nil => rfl
  | cons b bs ih =>
    obtain ⟨hb, hbs⟩ := List.forall_mem_cons.1 h
    rw [cut, startsWith_of_ne (ne_of_isBlank hb (isBlank_symbol op).1), ih hbs]
    simp

theorem cut_trailing (h : ∀ c ∈ bs, isBlank c = true) (s : Scan) (cs : List Char) :
    cut op s (cs ++ bs) = (cut op s cs).map fun parts => (parts.1, parts.2 ++ bs) := by
  induction cs generalizing s with
  | nil => exact cut_blanks h s
  | cons c cs ih =>
    rw [List.cons_append, cut, cut, startsWith_blanks h, ih]
    split
    · rename_i hfound
      cases cs with
      | nil => simp [startsWith] at hfound
      | cons => rfl
    · cases cut op (s.step c) cs <;> rfl

theorem cut_leading (h : ∀ c ∈ as, isBlank c = true) (cs : List Char) :
    cut op .start (as ++ cs) = (cut op .start cs).map fun parts => (as ++ parts.1, parts.2) :=
  hides_blanks h cs

/-- Blanks around a text neither hide nor add an operator. -/
theorem isSome_cut_surrounded (has : ∀ c ∈ as, isBlank c = true) (hbs : ∀ c ∈ bs, isBlank c = true)
    (op : Operator) (cs : List Char) :
    (cut op .start (as ++ (cs ++ bs))).isSome = (cut op .start cs).isSome := by
  rw [cut_leading has, cut_trailing hbs, Option.isSome_map, Option.isSome_map]

theorem split_eq (op : Operator) (cs : List Char) :
    split op cs = match cut op .start cs with
      | none => [cs]
      | some (before, after) => before :: split op after := by
  rw [split]
  split <;> simp [*]

theorem split_trailing (h : ∀ c ∈ bs, isBlank c = true) (cs : List Char) :
    (split op (cs ++ bs)).map trim = (split op cs).map trim := by
  fun_induction split op cs with
  | case1 cs hcut =>
    have htrim : trim (cs ++ bs) = trim cs := @trim_surrounded [] bs (by simp) h cs
    rw [split_eq, cut_trailing h, hcut]
    simp [htrim]
  | case2 cs before after hcut ih =>
    rw [split_eq, cut_trailing h, hcut]
    simp [ih]

theorem split_leading (h : ∀ c ∈ as, isBlank c = true) (cs : List Char) :
    (split op (as ++ cs)).map trim = (split op cs).map trim := by
  have htrim (cs : List Char) : trim (as ++ cs) = trim cs := by
    simpa using @trim_surrounded as [] h (by simp) cs
  rw [split_eq, split_eq op cs, cut_leading h]
  cases cut op .start cs <;> simp [htrim]

/-- Blanks around an expression make no difference. -/
theorem parse_surrounded (has : ∀ c ∈ as, isBlank c = true) (hbs : ∀ c ∈ bs, isBlank c = true)
    (cs : List Char) : Expr.parse (as ++ (cs ++ bs)) = Expr.parse cs := by
  have hparts (op : Operator) (f : List (List Char) → Shape) :
      partsShape op f (as ++ (cs ++ bs)) = partsShape op f cs := by
    rw [partsShape, partsShape, split_leading has, split_trailing hbs]
  have hshape : shape (as ++ (cs ++ bs)) = shape cs := by
    simp only [shape, isSome_cut_surrounded has hbs, hparts, trim_surrounded has hbs]
  rw [parse_eq, parse_eq cs, hshape]

theorem parse_trim (cs : List Char) : Expr.parse (trim cs) = Expr.parse cs := by
  obtain ⟨as, bs, has, hbs, heq⟩ := surrounds_trim cs
  have hparse := parse_surrounded has hbs (trim cs)
  rw [← heq] at hparse
  exact hparse.symm

end

/-! ## Nested texts -/

/-- The brackets that belong to each other. -/
def brackets : List (Char × Char) := [('(', ')'), ('[', ']'), ('{', '}')]

/-- Every quote that is opened outside another is closed, and the brackets outside quotes are
nested, each closed by the one that belongs to it. -/
inductive Nested : List Char → Prop where
  | nil : Nested []
  | char {c : Char} {rest : List Char} (neutral : isNeutral c = true) (h : Nested rest) :
    Nested (c :: rest)
  | quoted {mark : Char} {body rest : List Char} (isMark : Scan.isQuote mark = true)
    (unmarked : mark ∉ body) (h : Nested rest) : Nested (mark :: (body ++ [mark]) ++ rest)
  | bracketed {a b : Char} {inner rest : List Char} (pair : (a, b) ∈ brackets)
    (hinner : Nested inner) (h : Nested rest) : Nested (a :: (inner ++ [b]) ++ rest)

theorem opens_of_brackets {a b : Char} (h : (a, b) ∈ brackets) :
    Scan.opens a = true ∧ Scan.closes b = true := by
  simp only [brackets, List.mem_cons, Prod.mk.injEq, List.not_mem_nil, or_false] at h
  rcases h with ⟨rfl, rfl⟩ | ⟨rfl, rfl⟩ | ⟨rfl, rfl⟩ <;> decide

/-- In brackets a nested text hides every operator. -/
theorem Nested.hides {cs : List Char} (h : Nested cs) (op : Operator) (depth : Nat) :
    Hides op (depth + 1) cs := by
  induction h generalizing depth with
  | nil => exact Passes.nil
  | char neutral _ ih => exact (hides_char neutral (.inl (Nat.succ_pos depth))).cons (ih depth)
  | quoted isMark unmarked _ ih => exact (hides_quoted isMark unmarked).append (ih depth)
  | bracketed pair _ _ ihInner ih =>
    obtain ⟨hopens, hcloses⟩ := opens_of_brackets pair
    exact (hides_bracketed hopens hcloses (ihInner (depth + 1))).append (ih depth)

/-! ## Round brackets -/

/-- Round brackets, those in quotes included, are nested. -/
def Rounded (cs : List Char) : Prop :=
  cs.count '(' = cs.count ')' ∧ ∀ front, front <+: cs → front.count ')' ≤ front.count '('

theorem forall_prefix_cons {α : Type} {p : List α → Prop} {x : α} {xs : List α} :
    (∀ front, front <+: x :: xs → p front) ↔ p [] ∧ ∀ front, front <+: xs → p (x :: front) := by
  simp only [List.prefix_cons_iff]
  constructor
  · exact fun h => ⟨h [] (.inl rfl), fun front hfront => h _ (.inr ⟨front, rfl, hfront⟩)⟩
  · rintro ⟨hnil, hcons⟩ front (rfl | ⟨front, rfl, hfront⟩)
    · exact hnil
    · exact hcons front hfront

theorem groupDepth_eq_some_iff {cs : List Char} {depth final : Nat} :
    groupDepth depth cs = some final ↔
      depth + cs.count '(' = final + cs.count ')' ∧
        ∀ front, front <+: cs → front.count ')' ≤ depth + front.count '(' := by
  induction cs generalizing depth with
  | nil => simp [groupDepth]
  | cons c cs ih =>
    rw [groupDepth, forall_prefix_cons]
    split
    · subst c
      have hdeeper (n : Nat) : depth + 1 + n = depth + (n + 1) := by omega
      simp [ih, hdeeper]
    · rename_i hopen
      split
      · subst c
        cases depth with
        | zero =>
          refine iff_of_false (by simp) fun h => ?_
          simpa using h.2.2 [] List.nil_prefix
        | succ depth =>
          have hdeeper (n : Nat) : depth + 1 + n = depth + n + 1 := by omega
          have hfinal (n : Nat) : final + (n + 1) = final + n + 1 := by omega
          simp [ih, hdeeper, hfinal]
      · rename_i hclose
        simp [ih, hopen, hclose]

theorem groupDepth_eq_zero {cs : List Char} : groupDepth 0 cs = some 0 ↔ Rounded cs := by
  simp [groupDepth_eq_some_iff, Rounded]

theorem groupDepth_append (depth : Nat) (cs tail : List Char) :
    groupDepth depth (cs ++ tail) =
      (groupDepth depth cs).bind fun depth => groupDepth depth tail := by
  induction cs generalizing depth with
  | nil => rfl
  | cons c cs ih =>
    rw [List.cons_append, groupDepth, groupDepth]
    split
    · exact ih (depth + 1)
    · split
      · split
        · rfl
        · exact ih (depth - 1)
      · exact ih depth

theorem Rounded.balanced {cs : List Char} (h : Rounded cs) : Balanced cs := by
  intro depth tail
  have hdepth : groupDepth depth cs = some depth :=
    groupDepth_eq_some_iff.2 ⟨by rw [h.1], fun front hfront => by have := h.2 front hfront; omega⟩
  rw [groupDepth_append, hdepth]
  rfl

/-! ## Expressions in round brackets -/

/-- What is in round brackets that are not nested with those in its quotes is not seen as a group,
and the whole is a text as it stands. -/
theorem parse_ungrouped {cs : List Char} (nested : Nested cs) (h : ¬ Rounded cs) :
    Expr.parse ('(' :: (cs ++ [')'])) =
      .operand (.template (String.ofList ('(' :: (cs ++ [')'])))) := by
  have hides : ∀ op, Hides op 0 ('(' :: (cs ++ [')'])) :=
    fun op => hides_bracketed (by decide) (by decide) (nested.hides op 0)
  have framed : Framed ('(' :: (cs ++ [')'])) := Framed.enclosed (by decide) (by decide)
  have hgroup : group? ('(' :: (cs ++ [')'])) = none := by
    simp [group?, groupDepth_eq_zero, h]
  have hoperand : Operand.parse ('(' :: (cs ++ [')'])) =
      .template (String.ofList ('(' :: (cs ++ [')']))) := by
    have hunquoted : Operand.unquoted? ('(' :: (cs ++ [')'])) = none := by
      simp [Operand.unquoted?, Scan.isQuote]
    rw [Operand.parse, placeholder_of_head (by decide), hunquoted]
    simp [Operand.number?, Operand.isName, Operand.startsName]
  have hshape : shape ('(' :: (cs ++ [')'])) =
      .operand (.template (String.ofList ('(' :: (cs ++ [')'])))) := by
    rw [shape_of_head hides framed (by simp), negatedShape, if_pos rfl, hgroup, ← hoperand]
    simp
  rw [parse_eq, hshape]

theorem trim_ne_nil {text : String} (visible : isBlankText text = false) :
    trim text.toList ≠ [] := by
  intro hnil
  have hblank : isBlankText text = true := List.all_eq_true.2 (trim_eq_nil_iff.1 hnil)
  cases visible.symm.trans hblank

theorem toList_enclosed (text : String) :
    ("(" ++ text ++ ")").toList = '(' :: (text.toList ++ [')']) := by
  simp

theorem evaluate_enclosed (text : String) (scope : TextMap) :
    evaluate ("(" ++ text ++ ")") scope =
      (Expr.parse ('(' :: (text.toList ++ [')']))).eval scope := by
  have framed : Framed ('(' :: (text.toList ++ [')'])) := Framed.enclosed (by decide) (by decide)
  simp [evaluate, framed.trim_eq]

/-- An expression in round brackets has the value that it has without them, if its round brackets
are nested with those in its quotes; otherwise it is a text, brackets and quotes included. -/
theorem evaluate_grouped (text : String) (nested : Nested text.toList)
    (visible : isBlankText text = false) (scope : TextMap) :
    (Rounded text.toList → evaluate ("(" ++ text ++ ")") scope = evaluate text scope) ∧
    (¬ Rounded text.toList → evaluate ("(" ++ text ++ ")") scope =
      (EvalError.ofLookup (Template.render scope ("(" ++ text ++ ")"))).map .string) := by
  have hcore : (trim text.toList).isEmpty = false := by
    simpa using trim_ne_nil visible
  rw [evaluate_enclosed]
  refine ⟨fun h => ?_, fun h => ?_⟩
  · rw [parse_group (fun op => nested.hides op 0) h.balanced]
    simp only [evaluate, hcore, Bool.false_eq_true, if_false, parse_trim]
  · rw [parse_ungrouped nested h, Expr.eval, Operand.eval, ← toList_enclosed, String.ofList_toList]

/-- A quotation that holds two round brackets, in either order. -/
theorem evaluate_grouped_quotation :
    (Nested "'()'".toList ∧ isBlankText "'()'" = false ∧ Rounded "'()'".toList ∧
      evaluate ("(" ++ "'()'" ++ ")") .empty = evaluate "'()'" .empty) ∧
    (Nested "')('".toList ∧ isBlankText "')('" = false ∧ ¬ Rounded "')('".toList ∧
      evaluate ("(" ++ "')('" ++ ")") .empty =
        (EvalError.ofLookup (Template.render .empty ("(" ++ "')('" ++ ")"))).map .string) := by
  have hnested (body : List Char) (h : '\'' ∉ body) : Nested ('\'' :: (body ++ ['\'']) ++ []) :=
    .quoted rfl h .nil
  have hrounded : Rounded "'()'".toList := groupDepth_eq_zero.1 (by decide)
  have hcrossed : ¬ Rounded "')('".toList := fun h => by
    have hdepth := groupDepth_eq_zero.2 h
    revert hdepth
    decide
  have hfirst : Nested "'()'".toList := hnested ['(', ')'] (by decide)
  have hsecond : Nested "')('".toList := hnested [')', '('] (by decide)
  exact ⟨⟨hfirst, by decide, hrounded, (evaluate_grouped _ hfirst (by decide) _).1 hrounded⟩,
    ⟨hsecond, by decide, hcrossed, (evaluate_grouped _ hsecond (by decide) _).2 hcrossed⟩⟩

/-- A quotation whose value is lost in round brackets: a round bracket in it stands alone. -/
theorem evaluate_ungrouped : ∃ text, Nested text.toList ∧ isBlankText text = false ∧
    evaluate ("(" ++ text ++ ")") .empty ≠ evaluate text .empty := by
  let quotation : Quotation false := ⟨'"', [')'], rfl, by decide, nofun⟩
  have nested : Nested "\")\"".toList := .quoted rfl quotation.unmarked .nil
  have hcrossed : ¬ Rounded "\")\"".toList := fun h => by
    have hdepth := groupDepth_eq_zero.2 h
    revert hdepth
    decide
  have hplain (cs : List Char) (h : cs.all (!Template.isBrace ·) = true) :
      Template.render .empty (String.ofList cs) = .ok (String.ofList cs) :=
    Template.render_plain .empty (Template.plain_of_braceless (by simpa using h))
  have hwhole : evaluate ("(" ++ "\")\"" ++ ")") .empty = .ok (.string "(\")\")") := by
    rw [evaluate_enclosed, parse_ungrouped nested hcrossed, Expr.eval, Operand.eval,
      hplain _ (by decide)]
    rfl
  have hquotation : evaluate "\")\"" .empty = .ok (.string ")") := by
    have hparse : Expr.parse quotation.text = .operand (.template (String.ofList [')'])) := by
      have hides : ∀ op, Hides op 0 quotation.text := fun _ => hides_quoted rfl quotation.unmarked
      rw [parse_operand hides quotation.framed (by decide) (by decide), parse_quotation]
    have htrim : trim "\")\"".toList = quotation.text := quotation.framed.trim_eq
    rw [evaluate, htrim, hparse, Expr.eval, Operand.eval, hplain _ (by decide)]
    rfl
  refine ⟨"\")\"", nested, by decide, ?_⟩
  rw [hwhole, hquotation]
  simp

end Expression

end RequestFlow
