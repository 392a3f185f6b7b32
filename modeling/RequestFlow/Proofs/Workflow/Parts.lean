import RequestFlow.Proofs.Text.Legible
import RequestFlow.Workflow.Directives

/-!
# Parts of directives

The parts of which the lines of a workflow are made are legible. A value ends at the first blank or
at the end of its line, unless it is in quotes; then it ends at the quote that closes it, and blanks
and lines inside it end nothing. A part that may be left out begins with a blank and its key, so
that it is told from other parts of its line and from further lines.

* `legible_quote`: a value, in quotes or without them;
* `legible_pair`, `legible_pairs`: an assignment, and a line of them;
* `legible_common`: a name and a policy;
* `legible_choice`: a condition or a value, and what is done then.
-/

namespace RequestFlow

open Text Directive

namespace Directive

variable {after : List String}

/-! ## Values -/

/-- What follows a value, a blank or a new line, need not be told any further. -/
theorem legible_bounded {α : Type} {middle : List String} {valid : α → Prop}
    {write : α → List Char} (hmiddle : Led [' ', '\n'] middle)
    (h : Legible middle after valid write) : Legible [" ", "\n"] after valid write := by
  refine h.loosen fun mark hmark => ?_
  obtain ⟨c, hc, cs, hcs⟩ := hmiddle.head hmark
  rcases List.mem_cons.1 hc with rfl | hc
  · exact ⟨" ", by simp, cs, hcs.symm⟩
  · cases List.mem_singleton.1 hc
    exact ⟨"\n", by simp, cs, hcs.symm⟩

/-- A value as it is written. -/
def valueText (value : String) : List Char := (quote value).toList

/-- A key with its value, as it is written. -/
def pairText (entry : String × String) : List Char := (pair entry.1 entry.2).toList

/-- An escaped character does not begin with a quote, and says which character it is. -/
theorem escapeChar_unique {c d : Char} {cs ds : List Char}
    (h : escapeChar c ++ cs = escapeChar d ++ ds) : c = d ∧ cs = ds := by
  unfold escapeChar at h
  grind

theorem escapeChar_ne_quote (c : Char) (cs ds : List Char) : '"' :: cs ≠ escapeChar c ++ ds := by
  unfold escapeChar
  grind

theorem escaped_unique {cs ds rest rest' : List Char}
    (h : cs.flatMap escapeChar ++ '"' :: rest = ds.flatMap escapeChar ++ '"' :: rest') :
    cs = ds ∧ rest = rest' := by
  induction cs generalizing ds with
  | nil =>
    cases ds with
    | nil => exact ⟨rfl, List.tail_eq_of_cons_eq h⟩
    | cons d ds =>
      rw [List.flatMap_cons, List.append_assoc] at h
      exact absurd h (escapeChar_ne_quote d _ _)
  | cons c cs ih =>
    cases ds with
    | nil =>
      rw [List.flatMap_cons, List.append_assoc] at h
      exact absurd h.symm (escapeChar_ne_quote c _ _)
    | cons d ds =>
      rw [List.flatMap_cons, List.flatMap_cons, List.append_assoc, List.append_assoc] at h
      obtain ⟨rfl, htail⟩ := escapeChar_unique h
      obtain ⟨rfl, hrest⟩ := ih htail
      exact ⟨rfl, hrest⟩

/-- A character of a value that needs no quotes. -/
def isBareChar (c : Char) : Bool := !isBlank c && c != '"' && c != '=' && c != '#'

theorem isBareChar_of_isBare {cs : List Char} (h : isBare cs = true) :
    ∀ c ∈ cs, isBareChar c = true :=
  List.all_eq_true.1 (Bool.and_eq_true_iff.1 h).2

theorem bare_ne_quote {cs rest tail : List Char} (h : isBare cs = true) :
    cs ++ rest ≠ '"' :: tail := by
  cases cs with
  | nil => cases h
  | cons c cs =>
    rintro hsame
    obtain ⟨rfl, -⟩ := List.cons.inj hsame
    simp [isBare] at h

/-- A value is legible, in quotes or without them. -/
theorem legible_quote (h : Led [' ', '\n'] after) :
    Legible [""] after (fun _ => True) valueText := by
  refine ⟨fun _ _ => begins_append List.mem_cons_self _, ?_⟩
  intro value value' rest rest' _ _ hrest hrest' hsame
  have hends {rest : List Char} (hrest : Begins after rest) :
      ∀ c ∈ rest.head?, isBareChar c = false := by
    intro c hc
    have hstop : c = ' ' ∨ c = '\n' := by simpa using h.of_begins hrest c hc
    rcases hstop with rfl | rfl <;> decide
  -- the first character tells whether there are quotes: a value without them does not begin so
  unfold valueText quote at hsame
  split at hsame
  · rename_i hbare
    split at hsame
    · rename_i hbare'
      obtain ⟨hvalue, htail⟩ := append_unique (isBareChar_of_isBare hbare)
        (isBareChar_of_isBare hbare') (hends hrest) (hends hrest') hsame
      exact ⟨String.toList_injective hvalue, htail⟩
    · rw [String.toList_ofList, List.cons_append] at hsame
      exact absurd hsame (bare_ne_quote hbare)
  · split at hsame
    · rename_i hbare'
      rw [String.toList_ofList, List.cons_append] at hsame
      exact absurd hsame.symm (bare_ne_quote hbare')
    · simp only [String.toList_ofList, List.cons_append, List.append_assoc, List.nil_append,
        List.cons.injEq, true_and] at hsame
      obtain ⟨hvalue, htail⟩ := escaped_unique hsame
      exact ⟨String.toList_injective hvalue, htail⟩

/-- An assignment is legible if its key does not hold the sign that ends it. -/
theorem legible_pair (h : Led [' ', '\n'] after) :
    Legible [""] after (fun entry : String × String => '=' ∉ entry.1.toList)
      pairText := by
  have hkey : Legible [""] ["="] (fun key : String => ∀ c ∈ ['='], c ∉ key.toList)
      String.toList :=
    legible_until (by decide)
  refine ((hkey.pair ((legible_quote h).marked "=")).mono ?_).congr ?_
  · simp
  · simp [pairText, valueText, pair]

/-! ## Parts of a line -/

/-- A policy as it is written. -/
def policyText (policy : Policy) : List Char := policy.text.toList

theorem legible_policy (h : Led [' ', '\n'] after) : Legible [""] after (fun _ => True) policyText := by
  refine (legible_until h).comap Policy.text ?_ ?_
  · intro policy _
    cases policy <;> simp [Policy.text]
  · intro policy other _ _
    cases policy <;> cases other <;> simp [Policy.text]

/-- A value that may be left out, with a mark that is part of a line. -/
theorem legible_part (mark : String) (h : Led [' ', '\n'] (mark :: after))
    (hmark : Distinct mark after) :
    Legible (mark :: after) after (fun _ => True)
      fun part : Option String => each mark valueText part.toList :=
  ((legible_quote h).optional hmark).mono (by simp)

/-- A name and a policy, as they are written in a header. -/
def commonText (common : Option String × Option Policy) : List Char :=
  each " name=" valueText common.1.toList ++ each " on-failure=" policyText common.2.toList

theorem legible_common (h : Led ['\n'] after) :
    Legible (" name=" :: " on-failure=" :: after) after (fun _ => True) commonText := by
  have hled : Led [' ', '\n'] (" on-failure=" :: after) := (h.mono (by simp)).cons (by decide)
  have hpolicy : Distinct " on-failure=" after := h.distinct rfl (by decide)
  have hname : Distinct " name=" (" on-failure=" :: after) :=
    .cons (by decide) (h.distinct rfl (by decide))
  exact ((legible_part " name=" (hled.cons (by decide)) hname).pair
    ((legible_policy hled).optional hpolicy)).mono (by simp)

/-- What a branch does, as it is written. -/
def actionText (action : Action) : List Char :=
  each " run=" valueText action.run.toList ++ each " fail=" valueText action.fail.toList

theorem legible_action (h : Led [' ', '\n'] after) (hrun : Distinct " run=" after)
    (hfail : Distinct " fail=" after) :
    Legible (" run=" :: " fail=" :: after) after (fun _ => True) actionText := by
  have hled : Led [' ', '\n'] (" fail=" :: after) := h.cons (by decide)
  have hdistinct : Distinct " run=" (" fail=" :: after) := .cons (by decide) hrun
  refine ((legible_part " run=" (hled.cons (by decide)) hdistinct).pair
    (legible_part " fail=" hled hfail)).comap
    (fun action : Action => (action.run, action.fail)) (by simp) ?_
  rintro ⟨run, fail⟩ ⟨run', fail'⟩ - - hsame
  cases hsame
  rfl

/-- A condition or a value of a switch, and what is done then, as they are written. -/
def choiceText (choice : String × Action) : List Char := valueText choice.1 ++ actionText choice.2

theorem legible_choice (h : Led [' ', '\n'] after) (hrun : Distinct " run=" after)
    (hfail : Distinct " fail=" after) : Legible [""] after (fun _ => True) choiceText := by
  have hled : Led [' ', '\n'] (" run=" :: " fail=" :: after) :=
    (h.cons (by decide)).cons (by decide)
  exact ((legible_quote hled).pair (legible_action h hrun hfail)).mono (by simp)

/-! ## Lines -/

/-- The keys do not hold the sign that ends them. -/
def Keyed (pairs : TextMap) : Prop := ∀ entry ∈ pairs.entries, '=' ∉ entry.1.toList

instance (pairs : TextMap) : Decidable (Keyed pairs) :=
  inferInstanceAs (Decidable (∀ entry ∈ pairs.entries, '=' ∉ entry.1.toList))

/-- Pairs on a line of their own, as they are written. -/
def pairsText (mark : String) (pairs : TextMap) : List Char :=
  joined mark " " pairText pairs.entries

theorem legible_pairs {mark : String} (h : Led ['\n'] after) (hmark : Distinct mark after) :
    Legible (mark :: after) after Keyed (pairsText mark) := by
  have hpair : Legible [""] (" " :: after) _ pairText :=
    legible_pair ((h.mono (by simp)).cons (by decide))
  have hsep : Distinct " " after := h.distinct rfl (by decide)
  exact (hpair.joined hmark hsep).comap OrderedMap.entries (fun _ hkeyed => hkeyed)
    fun _ _ _ _ => OrderedMap.ext

/-- The lines, each behind the character that ends the line before it. -/
def lines : List String → List Char := each "\n" String.toList

theorem lines_cons (text : String) (texts : List String) :
    lines (text :: texts) = '\n' :: (text.toList ++ lines texts) := each_cons ..

theorem lines_append (texts more : List String) :
    lines (texts ++ more) = lines texts ++ lines more := List.flatMap_append

theorem lines_pairLines (directive mark : String) (hmark : "\n# @" ++ directive ++ " " = mark)
    (pairs : TextMap) : lines (pairLines directive pairs) = pairsText mark pairs := by
  subst hmark
  unfold pairLines pairsText
  split
  · rename_i hempty
    rw [List.isEmpty_iff.1 hempty]
    rfl
  · rename_i hnonempty
    have hpairs : pairText = fun entry => (pair entry.1 entry.2).toList := rfl
    rw [joined_eq_intercalate _ _ _ fun hnil => hnonempty (by simp [OrderedMap.isEmpty, hnil])]
    simp [lines, each, String.toList_intercalate, hpairs, Function.comp_def]

theorem toList_part (key mark : String) (hmark : " " ++ key ++ "=" = mark)
    (value : Option String) :
    (part (pair key) value).toList = each mark valueText value.toList := by
  subst hmark
  cases value <;> simp [part, each, pair, valueText]

/-- A text that is left out or is not blank. -/
def Shown (text : Option String) : Prop := ∀ shown, text = some shown → isBlankText shown = false

theorem Shown.nonBlank? {text : Option String} (h : Shown text) : nonBlank? text = text := by
  cases text with
  | none => rfl
  | some shown => simp [Text.nonBlank?, h shown rfl]

theorem toList_common {name : Option String} (h : Shown name) (policy : Option Policy) :
    (common name policy).toList = commonText (name, policy) := by
  rw [common, String.toList_append, h.nonBlank?, toList_part "name" " name=" (by decide)]
  cases policy <;> simp [part, commonText, each, policyText]

theorem toList_action (action : Action) : action.directive.toList = actionText action := by
  rw [Action.directive, String.toList_append, toList_part "run" " run=" (by decide),
    toList_part "fail" " fail=" (by decide), actionText]

end Directive

end RequestFlow
