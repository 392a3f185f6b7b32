import RequestFlow.Proofs.Expression.Grouping
import RequestFlow.Proofs.Expression.Listing
import RequestFlow.Proofs.Expression.Tree
import RequestFlow.Proofs.Faults

/-!
# The items of a loop

The items of a loop come from the value of an expression. Whoever writes a workflow has three ways
to write them down: as a list, as a text that holds a list, and as a text with commas between the
items. Each gives back the items that were written, whatever they hold, and a text does so too when
it reaches the loop through a variable.

* `commaParts_eq_splitOn`, `commaItems_trim`: parting at commas, and the blanks around the whole;
* `Separable`, `Entries`: what can be written with commas, and how;
* `parse_bracket`: a text that begins with a bracket spells a list, if it spells anything;
* `itemsWithin`, `itemsWithin_succ`: the items, by looking again at a value that a text holds, which
  happens once at most;
* `items_of_blank`: a loop lacks an expression for its items where the expression is blank;
* `items_written`: the items are those that were written, by every way.
-/

namespace RequestFlow

open Text

namespace JsonText

/-- A value whose text begins with a bracket is a list. -/
theorem parse_bracket {rest : List Char} {spelled : Json} (h : parse ('[' :: rest) = .ok spelled) :
    ∃ values, spelled = .array values := by
  have hvalue : value maxDepth ('[' :: rest) =
      ((items 126 true rest).map .array).widen (Nat.le_succ _) := by
    rw [value, skipSpace_of_not_space (by decide)]
    cases hitems : items 126 true rest <;>
      simp [maxDepth, hitems, Outcome.map, Outcome.widen]
  obtain ⟨node, hread, rfl⟩ : ∃ node, read ('[' :: rest) = (node, none) ∧
      node.toJson = spelled := by
    unfold parse at h
    split at h
    · rename_i node hread
      cases h
      exact ⟨node, hread, rfl⟩
    · cases h
  rw [read, hvalue] at hread
  cases hitems : items 126 true rest with
  | cut nodes fault => simp [hitems, Outcome.map, Outcome.widen] at hread
  | done nodes more hshort =>
    simp only [hitems, Outcome.map, Outcome.widen] at hread
    split at hread
    · cases hread
      exact ⟨_, by rw [Node.toJson]⟩
    · cases hread

end JsonText

namespace Json

/-! ## Commas -/

theorem commaParts_eq_splitOn (cs : List Char) : commaParts cs = cs.splitOn ',' := by
  induction cs with
  | nil => rfl
  | cons c rest ih =>
    rw [commaParts, List.splitOn_cons_eq_if_modifyHead, ih]
    simp only [beq_iff_eq]
    split
    · rfl
    · cases hparts : rest.splitOn ',' with
      | nil => exact (List.splitOn_ne_nil _ _ hparts).elim
      | cons part parts => rfl

section

variable {before after : List Char}

theorem comma_not_mem (h : ∀ c ∈ before, isBlank c = true) : ',' ∉ before :=
  fun hmem => absurd (h ',' hmem) (by decide)

/-- What stands in front of a text without a comma belongs to its first part. -/
theorem splitOn_leading (h : ',' ∉ before) (cs : List Char) :
    (before ++ cs).splitOn ',' = (cs.splitOn ',').modifyHead (before ++ ·) := by
  induction before with
  | nil => cases h : cs.splitOn ',' <;> simp [h]
  | cons c before ih =>
    obtain ⟨hc, hbefore⟩ : ',' ≠ c ∧ ',' ∉ before := by simpa using h
    rw [List.cons_append, List.splitOn_cons_eq_if_modifyHead, ih hbefore,
      if_neg (by simpa using hc.symm)]
    cases cs.splitOn ',' <;> rfl

/-- What stands behind a text without a comma belongs to its last part. -/
theorem splitOn_trailing (h : ',' ∉ after) (cs : List Char) : ∃ front last,
    cs.splitOn ',' = front ++ [last] ∧ (cs ++ after).splitOn ',' = front ++ [last ++ after] := by
  induction cs with
  | nil => exact ⟨[], [], rfl, List.splitOn_eq_singleton h⟩
  | cons c cs ih =>
    obtain ⟨front, last, hcs, hafter⟩ := ih
    rw [List.cons_append, List.splitOn_cons_eq_if_modifyHead, List.splitOn_cons_eq_if_modifyHead,
      hcs, hafter]
    split
    · exact ⟨[] :: front, last, rfl, rfl⟩
    · cases front with
      | nil => exact ⟨[], c :: last, rfl, rfl⟩
      | cons part front => exact ⟨(c :: part) :: front, last, rfl, rfl⟩

/-- Blanks around a text make no difference to the items in it. -/
theorem commaItems_surrounded (hbefore : ∀ c ∈ before, isBlank c = true)
    (hafter : ∀ c ∈ after, isBlank c = true) (cs : List Char) :
    commaItems (before ++ (cs ++ after)) = commaItems cs := by
  have hleading (part : List Char) : trim (before ++ part) = trim part := by
    simpa using @trim_surrounded before [] hbefore (by simp) part
  have htrailing (part : List Char) : trim (part ++ after) = trim part := by
    simpa using @trim_surrounded [] after (by simp) hafter part
  have hparts : ((commaParts (before ++ (cs ++ after))).map trim) = (commaParts cs).map trim := by
    obtain ⟨front, last, hcs, hsurrounded⟩ := splitOn_trailing (comma_not_mem hafter) cs
    rw [commaParts_eq_splitOn, commaParts_eq_splitOn, splitOn_leading (comma_not_mem hbefore), hcs,
      hsurrounded]
    cases front <;> simp [hleading, htrailing]
  rw [commaItems, commaItems, hparts]

theorem commaItems_trim (cs : List Char) : commaItems (trim cs) = commaItems cs := by
  obtain ⟨before, after, hbefore, hafter, hcs⟩ := surrounds_trim cs
  have hitems := commaItems_surrounded hbefore hafter (trim cs)
  rw [← hcs] at hitems
  exact hitems.symm

end

/-- An item that commas can keep apart from others. -/
structure Separable (item : String) : Prop where
  /-- What is blank does not count as an item. -/
  ne_empty : item ≠ ""
  comma_not_mem : ',' ∉ item.toList
  /-- The blanks at its ends would be lost. -/
  trim_eq : trim item.toList = item.toList

/-- What stands between the commas of a text that is written for the items: each of them with
blanks around it, in order, and anywhere entries with nothing but blanks in them. -/
inductive Entries : List String → List (List Char) → Prop where
  | done : Entries [] []
  | blank {items : List String} {entries : List (List Char)} {gap : List Char}
      (gaps : ∀ c ∈ gap, isBlank c = true) (rest : Entries items entries) :
      Entries items (gap :: entries)
  | item {items : List String} {entries : List (List Char)} {item : String}
      {before after : List Char} (separable : Separable item)
      (leads : ∀ c ∈ before, isBlank c = true) (trails : ∀ c ∈ after, isBlank c = true)
      (rest : Entries items entries) :
      Entries (item :: items) ((before ++ (item.toList ++ after)) :: entries)

section

variable {items : List String} {entries : List (List Char)}

theorem Entries.comma_not_mem (h : Entries items entries) : ∀ entry ∈ entries, ',' ∉ entry := by
  induction h with
  | done => simp
  | blank gaps _ ih => exact List.forall_mem_cons.2 ⟨Json.comma_not_mem gaps, ih⟩
  | item separable leads trails _ ih =>
    refine List.forall_mem_cons.2 ⟨?_, ih⟩
    simp [Json.comma_not_mem leads, Json.comma_not_mem trails, separable.comma_not_mem]

/-- The entries that are not blank are the items. -/
theorem Entries.filter_eq (h : Entries items entries) :
    ((entries.map trim).filter (!·.isEmpty)).map String.ofList = items := by
  induction h with
  | done => rfl
  | blank gaps _ ih => simpa [trim_eq_nil_iff.2 gaps] using ih
  | @item items entries item before after separable leads trails _ ih =>
    have hentry : trim (before ++ (item.toList ++ after)) = item.toList := by
      rw [trim_surrounded leads trails, separable.trim_eq]
    have hne : item.toList.isEmpty = false := by simpa using separable.ne_empty
    simp only [List.map_cons, hentry]
    rw [List.filter_cons_of_pos (by simp [hne]), List.map_cons, ih, String.ofList_toList]

theorem commaItems_entries (h : Entries items entries) :
    commaItems ([','].intercalate entries) = items := by
  cases entries with
  | nil =>
    cases h
    rfl
  | cons entry rest =>
    rw [commaItems, commaParts_eq_splitOn,
      List.splitOn_intercalate ',' h.comma_not_mem (by simp), h.filter_eq]

/-! ## Every way to write items -/

theorem items_strings (items : List String) : (strings items).items = .ok items := by
  simp [strings, Json.items, text, Function.comp_def]

theorem items_listing {before after : List Char} (hbefore : ∀ c ∈ before, isBlank c = true)
    (hafter : ∀ c ∈ after, isBlank c = true) (items : List String) :
    (string (String.ofList (before ++ (Expression.listing items ++ after)))).items = .ok items := by
  have hcore : trim (before ++ (Expression.listing items ++ after)) = Expression.listing items := by
    rw [trim_surrounded hbefore hafter, (Expression.framed_listing items).trim_eq]
  have hparse := Expression.parse_strings items
  have hstrings := items_strings items
  rw [Json.items, String.toList_ofList, hcore]
  rw [Expression.listing_eq] at hparse ⊢
  simpa [hparse, strings, Json.items] using hstrings

theorem items_commas {cs : List Char} (h : (trim cs).head? ≠ some '[') :
    (string (String.ofList cs)).items = .ok (commaItems cs) := by
  rw [Json.items, String.toList_ofList, ← commaItems_trim cs]
  split
  · rename_i hcs
    simp [hcs] at h
  · rfl

end

/-! ## Looking again at what a text holds -/

/-- The items of a value, where a text that holds a value has the items of that. Nothing comes of it
if there are more than so many texts to look into. -/
def itemsWithin : Nat → Json → Option (Except EvalError (List String))
  | _, null => some (.ok [])
  | _, array values => some (.ok (values.map text))
  | entries, string s =>
    let core := trim s.toList
    if core.isEmpty then some (.ok [])
    else if core.head? = some '[' then
      match JsonText.parse core with
      | .error fault => some (.error (.invalidItems fault))
      | .ok value =>
        match entries with
        | 0 => none
        | entries + 1 => itemsWithin entries value
    else some (.ok (commaItems core))
  | _, value => some (.error (.notAList value))

/-- It never takes more than one look into a text. -/
theorem itemsWithin_succ (entries : Nat) (value : Json) :
    itemsWithin (entries + 1) value = some value.items := by
  cases value with
  | string s =>
    rw [itemsWithin, Json.items]
    generalize trim s.toList = core
    split
    · rename_i hempty
      rw [List.isEmpty_iff.1 hempty]
      rfl
    split
    · rename_i hhead
      obtain ⟨rest, rfl⟩ : ∃ rest, core = '[' :: rest := by cases core <;> simp_all
      cases hparse : JsonText.parse ('[' :: rest) with
      | error fault => simp
      | ok value =>
        obtain ⟨values, rfl⟩ := JsonText.parse_bracket hparse
        simp [itemsWithin]
    · rename_i hhead
      split
      · simp at hhead
      · rfl
  | _ => simp [itemsWithin, Json.items]

end Json

namespace Expression

/-! ## Blank expressions -/

/-- A text that cannot be read lacks a part of it, not the whole. -/
theorem cause_of_shape {cs : List Char} {cause : EvalError} (h : shape cs = .malformed cause) :
    cause ≠ .emptyExpression := by
  rintro rfl
  have hparts (op : Operator) {f : List (List Char) → Shape}
      (hf : ∀ parts, f parts ≠ .malformed .emptyExpression) :
      partsShape op f cs ≠ .malformed .emptyExpression := by
    unfold partsShape
    dsimp only
    split
    · nofun
    · exact hf _
  have hcomparison (op : Operator) (left right : List Char) :
      comparisonShape op left right ≠ .malformed .emptyExpression := by
    unfold comparisonShape
    split <;> nofun
  unfold shape at h
  split at h
  · exact hparts .or (f := .any) (fun _ => nofun) h
  split at h
  · exact hparts .and (f := .all) (fun _ => nofun) h
  unfold comparedShape at h
  split at h
  · exact hcomparison _ _ _ h
  split at h
  · exact hcomparison _ _ _ h
  unfold unaryShape negatedShape at h
  split at h
  · split at h
    · cases h
    · split at h <;> cases h
  · split at h <;> cases h

/-- Terms that are joined fail for no reason but that of a term. -/
theorem truth_ne_error {j : Junction} {scope : TextMap} {cause : EvalError} {parts : List Expr}
    (h : ∀ part ∈ parts, part.eval scope ≠ .error cause) : j.truth scope parts ≠ .error cause := by
  induction parts with
  | nil => cases j <;> simp [Junction.truth, Expr.evalAny, Expr.evalAll]
  | cons part rest ih =>
    obtain ⟨hpart, hrest⟩ := List.forall_mem_cons.1 h
    rw [Junction.truth_cons]
    refine bind_ne_error hpart fun value => ?_
    split
    · rintro ⟨⟩
    · exact ih hrest

/-- An operand has no value for want of a variable or of a list. -/
theorem operand_ne_emptyExpression (operand : Operand) (scope : TextMap) :
    operand.eval scope ≠ .error .emptyExpression := by
  have hlookup {α : Type} (found : Except UnknownVariable α) :
      EvalError.ofLookup found ≠ .error .emptyExpression := by
    cases found <;> nofun
  unfold Operand.eval
  split
  · exact map_ne_error (hlookup _) _
  · exact map_ne_error (hlookup _) _
  · refine bind_ne_error (hlookup _) fun rendered => ?_
    split <;> nofun
  · nofun

/-- A text that is taken apart has a value, or none for a reason in its parts. -/
theorem eval_ne_emptyExpression (cs : List Char) (scope : TextMap) :
    (Expr.parse cs).eval scope ≠ .error .emptyExpression := by
  have hpart (text : List Char) (_ : text ∈ (shape cs).texts) :
      (Expr.parse text).eval scope ≠ .error .emptyExpression := eval_ne_emptyExpression text scope
  have hjoined (j : Junction) {parts : List (List Char)} (h : (shape cs).texts = parts) :
      (j.expr (parts.map Expr.parse)).eval scope ≠ .error .emptyExpression := by
    rw [Junction.eval_expr]
    exact map_ne_error (truth_ne_error (List.forall_mem_map.2 fun part h' => hpart part (h ▸ h'))) _
  rw [parse_eq]
  cases hshape : shape cs with
  | any parts => exact hjoined .or (by rw [hshape, Shape.texts])
  | all parts => exact hjoined .and (by rw [hshape, Shape.texts])
  | comparison op left right =>
    have hleft := hpart left (by simp [hshape, Shape.texts])
    have hright := hpart right (by simp [hshape, Shape.texts])
    rw [Expr.eval]
    exact bind_ne_error hleft fun l => bind_ne_error hright fun r => by rintro ⟨⟩
  | negation count inner =>
    have hinner := hpart inner (by simp [hshape, Shape.texts])
    rw [Expr.eval]
    exact bind_ne_error hinner fun value => by rintro ⟨⟩
  | group inner => exact hpart inner (by simp [hshape, Shape.texts])
  | operand operand =>
    rw [Expr.eval]
    exact operand_ne_emptyExpression operand scope
  | malformed cause =>
    simp only [Expr.eval, ne_eq, Except.error.injEq]
    exact cause_of_shape hshape
termination_by cs.length
decreasing_by exact length_shape ‹_›

theorem items_ne_emptyExpression (value : Json) : value.items ≠ .error .emptyExpression := by
  unfold Json.items
  split
  · nofun
  · nofun
  · dsimp only
    split
    · split <;> nofun
    · nofun
  · nofun

/-- A loop has no items for want of an expression if and only if there is none. -/
theorem items_of_blank (text : String) (scope : TextMap) :
    (evaluate text scope).bind Json.items = .error .emptyExpression ↔
      isBlankText text = true := by
  cases hblank : isBlankText text with
  | true =>
    have hcore : trim text.toList = [] := trim_eq_nil_iff.2 (List.all_eq_true.1 hblank)
    refine iff_of_true ?_ rfl
    simp only [evaluate, hcore]
    rfl
  | false =>
    have hcore : (trim text.toList).isEmpty = false := by simpa using trim_ne_nil hblank
    refine iff_of_false ?_ Bool.false_ne_true
    simp only [evaluate, hcore, Bool.false_eq_true, if_false]
    exact bind_ne_error (eval_ne_emptyExpression _ scope) items_ne_emptyExpression

/-! ## Items through a variable -/

/-- The value of a name is that of the variable, which gives a loop its items. -/
theorem evaluate_name {name : Name} (h : ∀ w : Word, name.letters ≠ w.letters) (scope : TextMap) :
    evaluate (String.ofList name.letters) scope = Meaning.lookup name scope :=
  evaluate_text (.term .or (.term .and (.side (.negation 0 (.name name h))))) scope

theorem evaluate_placeholder (name : Name) (scope : TextMap) :
    evaluate (String.ofList name.placeholder) scope = Meaning.lookup name scope :=
  evaluate_text (.term .or (.term .and (.side (.negation 0 (.placeholder name))))) scope

/-- A list that is written out has its strings for its items, where none of them holds a brace or a
quote. -/
theorem evaluate_items {items : List String}
    (plain : (items.all fun item =>
      item.toList.all fun c => !Template.isBrace c && c != '"') = true)
    (scope : TextMap) :
    (evaluate (String.ofList (listing items)) scope).bind Json.items = .ok items := by
  have hplain : ∀ item ∈ items, ∀ c ∈ item.toList, Template.isBrace c = false ∧ c ≠ '"' := by
    simpa using plain
  have braceless : ∀ item ∈ items, ∀ c ∈ item.toList, Template.isBrace c = false :=
    fun item hitem c hc => (hplain item hitem c hc).1
  have quoteless : ∀ item ∈ items, '"' ∉ item.toList :=
    fun item hitem hc => (hplain item hitem _ hc).2 rfl
  have hvalue := evaluate_listing braceless (not_exposed_listing braceless (.inl quoteless)) scope
  rw [hvalue]
  exact Json.items_strings items

/-- The items of a loop are those that were written, as a list, as a text that holds the list, as
the variable with that text, and as a text with commas, as far as commas can keep them apart. A text
is looked into once at most. -/
theorem items_written (items : List String) :
    (Json.strings items).items = .ok items ∧
    (∀ before after : List Char, (∀ c ∈ before, isBlank c = true) →
      (∀ c ∈ after, isBlank c = true) →
      let text := String.ofList (before ++ ((Json.strings items).compact.toList ++ after))
      (Json.string text).items = .ok items ∧
      ∀ (name : Name) (scope : TextMap), scope.lookup (String.ofList name.letters) = .ok text →
        ((∀ w : Word, name.letters ≠ w.letters) →
          (evaluate (String.ofList name.letters) scope).bind Json.items = .ok items) ∧
        (evaluate (String.ofList name.placeholder) scope).bind Json.items = .ok items) ∧
    (∀ entries, Json.Entries items entries → (trim ([','].intercalate entries)).head? ≠ some '[' →
      (Json.string (String.ofList ([','].intercalate entries))).items = .ok items) ∧
    ∀ value : Json, Json.itemsWithin 1 value = some value.items := by
  refine ⟨Json.items_strings items, fun before after hbefore hafter => ?_,
    fun entries h hhead => ?_, Json.itemsWithin_succ 0⟩
  · intro text
    have htext : (Json.string text).items = .ok items := by
      simpa [text, listing, Json.compact] using Json.items_listing hbefore hafter items
    refine ⟨htext, fun name scope hscope => ?_⟩
    have hlookup : (Meaning.lookup name scope).bind Json.items = .ok items := by
      rw [Meaning.lookup, hscope]
      exact htext
    exact ⟨fun h => by rw [evaluate_name h, hlookup], by rw [evaluate_placeholder, hlookup]⟩
  · rw [Json.items_commas hhead, Json.commaItems_entries h]

/-- Items with quotes, commas, brackets and blanks at their ends, in a list that is the text of a
variable, and items with operators and quotes between commas. -/
theorem items_written_of_every_kind :
    let scope : TextMap := .insert .empty "ids" " [\"a,\\\"]\",\" b\",\"\"]\n"
    (evaluate "ids" scope).bind Json.items = .ok ["a,\"]", " b", ""] ∧
      (evaluate "\x7b\x7bids\x7d\x7d" scope).bind Json.items = .ok ["a,\"]", " b", ""] ∧
      (Json.string " , a || \"b,,][ ,").items = .ok ["a || \"b", "]["] := by
  intro scope
  have hnone : ∀ c ∈ ([] : List Char), isBlank c = true := by simp
  have hspace : ∀ c ∈ [' '], isBlank c = true := List.all_eq_true.1 (by decide)
  have hline : ∀ c ∈ ['\n'], isBlank c = true := List.all_eq_true.1 (by decide)
  have htext := (items_written ["a,\"]", " b", ""]).2.1 [' '] ['\n'] hspace hline
  have hids := htext.2 ⟨['i', 'd', 's'], rfl⟩ scope rfl
  have hspaced : Json.Separable "a || \"b" := ⟨by decide, by decide, by decide⟩
  have hbrackets : Json.Separable "][" := ⟨by decide, by decide, by decide⟩
  have hentries : Json.Entries ["a || \"b", "]["]
      [[' '], " a || \"b".toList, [], "][ ".toList, []] :=
    .blank hspace (.item hspaced hspace hnone
      (.blank hnone (.item hbrackets hnone hspace (.blank hnone .done))))
  exact ⟨hids.1 (by rintro ⟨⟩ <;> decide), hids.2,
    (items_written ["a || \"b", "]["]).2.2.1 _ hentries (by decide)⟩

end Expression

end RequestFlow
