import RequestFlow.History.Store
import RequestFlow.Proofs.Redaction
import RequestFlow.Workflow.Directives

/-!
# Secrets in the history

The history keeps the directives of every workflow that ran, redacted. A value under a key that
tells of a secret is replaced there up to its first blank or ampersand; what follows is kept, also
where the value is written in quotes. So the entries of two workflows that differ in such a value
only are the same if the two values show the same, and otherwise they need not be.

* `Telling`: the keys of secrets;
* `shown`: what is kept of a value;
* `scrub_secret`: a line with a secret on it, redacted;
* `History.push_of_secrets`: the history after a run of a workflow with a secret in it;
* `History.push_of_secrets_leaks`: two workflows whose secrets can be told apart.
-/

namespace RequestFlow

open Redaction Directive

/-! ## Keys and values -/

/-- The key ends, in any letters, in a word that tells of a secret. -/
def Telling (key : String) : Prop :=
  ∃ word ∈ ["key", "token", "secret", "password"], word.toList <:+ key.toList.map foldLetter

/-- What is kept of a value under the key of a secret: all from its first blank or ampersand on, as
it is written. -/
def shown (value : String) : List Char := (quote value).toList.dropWhile parameter.covers

/-- The value does not begin with an ampersand and holds no credentials of a header. -/
structure Redactable (value : String) : Prop where
  begins : value.toList.head? ≠ some '&'
  free : header.Free (quote value).toList

/-- No credentials of a header begin in an assignment that is followed by others on its line. -/
structure Calm (key value : String) : Prop where
  key : header.Free key.toList
  value : ¬ "authorization:".toList <:+ value.toList.map foldLetter

/-! ## An assignment as it is written -/

theorem quote_cases (value : String) :
    (isBare value.toList = true ∧ quote value = value) ∨
      ∃ inner, (quote value).toList = inner ++ ['"'] ∧ (quote value).toList.head? = some '"' := by
  unfold quote
  split
  · rename_i hbare
    exact .inl ⟨hbare, rfl⟩
  · refine .inr ⟨'"' :: value.toList.flatMap escapeChar, ?_, ?_⟩
    · rw [String.toList_ofList]
      rfl
    · rw [String.toList_ofList]
      rfl

/-- A value as it is written begins with a character that is replaced. -/
theorem Redactable.covered {value : String} (h : Redactable value) :
    (quote value).toList.head?.any parameter.covers = true := by
  rcases quote_cases value with ⟨hbare, heq⟩ | ⟨inner, -, hhead⟩
  · rw [heq]
    have hbegins := h.begins
    cases hchars : value.toList with
    | nil => simp [isBare, hchars] at hbare
    | cons c cs =>
      simp only [isBare, hchars, List.isEmpty_cons, List.all_cons, Bool.not_false, Bool.true_and,
        Bool.and_eq_true, Bool.not_eq_true', bne_iff_ne] at hbare
      simp only [hchars, List.head?_cons, ne_eq, Option.some.injEq] at hbegins
      simp [parameter, hbare.1, hbegins]
  · rw [hhead]
    decide

theorem toList_pair (key value : String) :
    (pair key value).toList = key.toList ++ '=' :: (quote value).toList := by
  simp [pair]

/-! ## Credentials -/

/-- Credentials have one mark. -/
theorem header_free_iff {cs : List Char} :
    header.Free cs ↔ ¬ "authorization: ".toList <:+: cs.map foldLetter := by
  simp [Rule.Free, header]

/-- A text that holds no mark of credentials, up to a character that does not go on with one. -/
theorem header_append {cs : List Char} {c : Char} (h : header.Free (cs ++ [c]))
    (hc : foldLetter c ∉ "authorization: ".toList.dropLast) (rest : List Char) :
    header.apply (cs ++ c :: rest) = cs ++ c :: header.apply rest := by
  refine Rule.apply_append_of_free (fun mark hmem => ?_) h rest
  obtain rfl : mark = "authorization: " := by simpa [header] using hmem
  exact hc

/-- A text without credentials in front of a character that is no part of their mark. -/
theorem header_apply {cs : List Char} {c : Char} (h : header.Free cs)
    (hc : foldLetter c ∉ "authorization: ".toList) (rest : List Char) :
    header.apply (cs ++ c :: rest) = cs ++ c :: header.apply rest := by
  refine header_append (header_free_iff.2 fun hinfix => ?_)
    (fun hmem => hc (List.dropLast_subset _ hmem)) rest
  rw [List.map_append] at hinfix
  rcases List.infix_concat_iff.1 hinfix with hsuffix | hinfix
  · rcases List.suffix_concat_iff.1 hsuffix with hnil | ⟨front, heq, -⟩
    · cases hnil
    · exact hc (heq ▸ List.mem_append_right _ (List.mem_singleton_self _))
  · exact header_free_iff.1 h hinfix

theorem bars_quote : header.Bars '"' := ⟨by decide +kernel, by decide⟩

theorem foldLetter_eq_space {c : Char} (h : foldLetter c = ' ') : c = ' ' := by
  rcases foldLetter_cases c with hsame | ⟨-, hnone⟩
  · exact hsame.symm.trans h
  · rw [h] at hnone
    exact absurd hnone (by decide)

/-- A text without blanks holds no credentials. -/
theorem header_free_of_plain {cs : List Char} (h : ∀ c ∈ cs, Text.isBlank c = false) :
    header.Free cs := by
  refine header_free_iff.2 fun hinfix => ?_
  have hspace : ' ' ∈ cs.map foldLetter := hinfix.subset (by decide)
  obtain ⟨c, hc, hfold⟩ := List.mem_map.1 hspace
  rw [foldLetter_eq_space hfold] at hc
  have hplain := h ' ' hc
  revert hplain
  decide

/-- A bare value in front of a blank. -/
theorem header_bare {value : String} (hbare : isBare value.toList = true)
    (hvalue : ¬ "authorization:".toList <:+ value.toList.map foldLetter) (rest : List Char) :
    header.apply (value.toList ++ ' ' :: rest) = value.toList ++ ' ' :: header.apply rest := by
  refine header_append (header_free_iff.2 fun hinfix => ?_) (by decide) rest
  have hmark : "authorization: ".toList = "authorization:".toList ++ [' '] := rfl
  rw [List.map_append, hmark] at hinfix
  rcases List.infix_concat_iff.1 hinfix with hsuffix | hinfix
  · rcases List.suffix_concat_iff.1 hsuffix with hnil | ⟨front, heq, hfront⟩
    · cases hnil
    · obtain ⟨rfl, -⟩ := List.append_inj' heq rfl
      exact hvalue hfront
  · have hplain : ∀ c ∈ value.toList, Text.isBlank c = false := fun c hc => by
      have hc := List.all_eq_true.1 (Bool.and_eq_true_iff.1 hbare).2 c hc
      simp only [Bool.and_eq_true, Bool.not_eq_true'] at hc
      exact hc.1.1.1
    exact header_free_iff.1 (header_free_of_plain hplain) hinfix

theorem apply_space (rest : List Char) : header.apply (' ' :: rest) = ' ' :: header.apply rest :=
  @header_append [] ' ' (header_free_iff.2 (by decide)) (by decide) rest

/-- An assignment without credentials on the way is redacted by itself, with the blank after it. -/
theorem Calm.closes {key value : String} (h : Calm key value) :
    header.Closes ((pair key value).toList ++ [' ']) := by
  have hkey : header.Closes (key.toList ++ ['=']) := Rule.closes_of_apply fun rest => by
    rw [List.append_assoc, List.append_assoc]
    exact header_apply h.key (by decide) rest
  have hvalue : header.Closes ((quote value).toList ++ [' ']) := by
    rcases quote_cases value with ⟨hbare, heq⟩ | ⟨inner, heq, -⟩
    · rw [heq]
      refine Rule.closes_of_apply fun rest => ?_
      rw [List.append_assoc, List.append_assoc]
      exact header_bare hbare h.value rest
    · rw [heq]
      exact (Rule.closes_of_bars bars_quote inner).append (Rule.closes_of_apply apply_space)
  have heq : (pair key value).toList ++ [' '] =
      key.toList ++ ['='] ++ ((quote value).toList ++ [' ']) := by
    simp [toList_pair]
  rw [heq]
  exact hkey.append hvalue

/-! ## A line with a secret -/

/-- The front of a line up to a value under the key of a secret. -/
theorem exists_tells {key : String} (h : Telling key) (before : List Char) :
    ∃ mark, Tells mark ∧ mark <:+ before ++ (key.toList ++ ['=']) := by
  obtain ⟨word, hword, front, hfront⟩ := h
  obtain ⟨first, last, hkey, -, hlast⟩ := List.map_eq_append_iff.1 hfront.symm
  have hmarks : ∀ word ∈ ["key", "token", "secret", "password"], ∃ mark ∈ parameter.marks,
      mark.toList = word.toList ++ ['='] := by decide
  obtain ⟨mark, hmark, htext⟩ := hmarks word hword
  refine ⟨last ++ ['='], ⟨mark, hmark, ?_⟩, before ++ first, ?_⟩
  · rw [List.map_append, hlast, htext]
    rfl
  · rw [hkey, List.append_assoc, List.append_assoc]

/-- What is before and after a secret on its line is not mistaken for its part, and the other way
round. -/
structure Apart (before : List Char) (key value : String) (after : List Char) : Prop where
  before : header.Closes before
  key : header.Free key.toList
  value : header.apply ((quote value).toList ++ after) = (quote value).toList ++ header.apply after

/-- Two lines with secrets that show the same are the same once they are redacted. -/
theorem scrub_secret {before after : List Char} {key first second : String} (telling : Telling key)
    (hfirst : Redactable first) (hsecond : Redactable second) (same : shown first = shown second)
    (apart : Apart before key first after) (apart' : Apart before key second after) :
    scrub (before ++ ((pair key first).toList ++ after)) =
      scrub (before ++ ((pair key second).toList ++ after)) := by
  obtain ⟨mark, htells, hmark⟩ := exists_tells telling (header.apply before)
  obtain ⟨out, hout⟩ := apply_marked hmark htells
  have hline {value : String} (hvalue : Redactable value) (apart : Apart before key value after) :
      parameter.apply (header.apply (before ++ ((pair key value).toList ++ after))) =
        out ++ parameter.apply
          (((quote value).toList ++ header.apply after).dropWhile parameter.covers) := by
    have hcovered : ((quote value).toList ++ header.apply after).head?.any parameter.covers =
        true := by
      have hhead := hvalue.covered
      cases hquote : (quote value).toList with
      | nil => simp [hquote] at hhead
      | cons c cs => simpa [hquote] using hhead
    rw [← hout _ hcovered, apart.before, toList_pair, List.append_assoc, List.cons_append,
      header_apply apart.key (by decide), apart.value]
    simp
  have hshown (value : String) :
      ((quote value).toList ++ header.apply after).dropWhile parameter.covers =
        if (shown value).isEmpty then (header.apply after).dropWhile parameter.covers
        else shown value ++ header.apply after := List.dropWhile_append
  have hparameter := (hline hfirst apart).trans (Eq.trans ?_ (hline hsecond apart').symm)
  · simp only [scrub, rules, List.foldl_cons, List.foldl_nil, hparameter]
  · rw [hshown, hshown, same]

/-! ## Options -/

/-- A directive in front of its assignments. -/
theorem closes_directive {directive : String} (hspace : directive.toList.getLast? = some ' ')
    (hfree : header.Free directive.toList) : header.Closes directive.toList := by
  obtain ⟨before, heq⟩ := List.getLast?_eq_some_iff.1 hspace
  rw [heq] at hfree ⊢
  refine Rule.closes_of_apply fun rest => ?_
  rw [List.append_assoc, List.append_assoc]
  exact header_append hfree (by decide) rest

theorem redact_option {key first second : String} (telling : Telling key)
    (free : header.Free key.toList) (hfirst : Redactable first) (hsecond : Redactable second)
    (same : shown first = shown second) :
    redact ("# @option " ++ pair key first) = redact ("# @option " ++ pair key second) := by
  have hfree : header.Free "# @option ".toList := header_free_iff.2 (by decide +kernel)
  have hbefore : header.Closes "# @option ".toList := closes_directive rfl hfree
  have happart {value : String} (h : Redactable value) : Apart "# @option ".toList key value [] := by
    refine ⟨hbefore, free, ?_⟩
    rw [List.append_nil, Rule.apply_nil, List.append_nil]
    exact Rule.apply_of_free h.free
  have hline := scrub_secret telling hfirst hsecond same (happart hfirst) (happart hsecond)
  simp only [List.append_nil] at hline
  simp only [redact, String.toList_append]
  exact congrArg String.ofList hline

/-! ## Variables of a step -/

theorem intercalate_append_cons {α : Type} (sep : List α) (before : List (List α)) (item : List α)
    (after : List (List α)) :
    sep.intercalate (before ++ item :: after) =
      before.flatMap (· ++ sep) ++ (item ++ after.flatMap (sep ++ ·)) := by
  induction before with
  | nil =>
    induction after generalizing item with
    | nil => simp
    | cons next after ih =>
      have hrest := ih next
      rw [List.nil_append] at hrest ⊢
      rw [List.intercalate_cons_cons, hrest]
      simp
  | cons first before ih =>
    obtain ⟨next, rest, hrest⟩ : ∃ next rest, before ++ item :: after = next :: rest :=
      List.exists_cons_of_ne_nil (by simp)
    rw [List.cons_append, hrest, List.intercalate_cons_cons, ← hrest, ih]
    simp

/-- Putting a value leaves the entries before it and after it. -/
theorem exists_put (key : String) (entries : List (String × String)) :
    ∃ before after, ∀ value, OrderedMap.put key value entries = before ++ (key, value) :: after := by
  induction entries with
  | nil => exact ⟨[], [], fun _ => rfl⟩
  | cons entry rest ih =>
    obtain ⟨k, v⟩ := entry
    by_cases hk : k = key
    · exact ⟨[], rest, fun value => by simp [OrderedMap.put, hk]⟩
    · obtain ⟨before, after, hput⟩ := ih
      exact ⟨(k, v) :: before, after, fun value => by simp [OrderedMap.put, hk, hput]⟩

/-- Assignments without credentials on the way are redacted by themselves. -/
theorem closes_entries {entries : List (String × String)}
    (h : ∀ entry ∈ entries, Calm entry.1 entry.2) :
    header.Closes ((entries.map fun entry => (pair entry.1 entry.2).toList).flatMap
      (· ++ [' '])) := by
  induction entries with
  | nil => exact Rule.closes_nil header
  | cons entry rest ih =>
    exact (h entry List.mem_cons_self).closes.append
      (ih fun later hlater => h later (List.mem_cons_of_mem _ hlater))

/-- A value with nothing or a blank after it. -/
theorem apply_value {key value : String} (hvalue : Redactable value) (hcalm : Calm key value)
    {after : List Char} (hafter : after = [] ∨ ∃ rest, after = ' ' :: rest) :
    header.apply ((quote value).toList ++ after) =
      (quote value).toList ++ header.apply after := by
  rcases hafter with rfl | ⟨rest, rfl⟩
  · rw [List.append_nil, Rule.apply_nil, List.append_nil]
    exact Rule.apply_of_free hvalue.free
  · rcases quote_cases value with ⟨hbare, heq⟩ | ⟨inner, heq, -⟩
    · rw [heq, header_bare hbare hcalm.value, apply_space]
    · have hfree := hvalue.free
      rw [heq] at hfree ⊢
      rw [List.append_assoc, List.append_assoc]
      exact header_append hfree (by decide) _

/-- The line of a step's variables with a secret among them. -/
theorem redact_vars {key first second : String} {vars : TextMap} (telling : Telling key)
    (hfirst : Redactable first) (hsecond : Redactable second) (same : shown first = shown second)
    (calm : ∀ value ∈ [first, second], ∀ entry ∈ (vars.insert key value).entries,
      Calm entry.1 entry.2) :
    (pairLines "vars" (vars.insert key first)).map redact =
      (pairLines "vars" (vars.insert key second)).map redact := by
  obtain ⟨earlier, later, hput⟩ := exists_put key vars.entries
  let write (entry : String × String) : List Char := (pair entry.1 entry.2).toList
  let before := "# @vars ".toList ++ (earlier.map write).flatMap (· ++ [' '])
  let after := (later.map write).flatMap ([' '] ++ ·)
  have hfree : header.Free "# @vars ".toList := header_free_iff.2 (by decide +kernel)
  have hafter : after = [] ∨ ∃ rest, after = ' ' :: rest := by
    cases later with
    | nil => exact .inl rfl
    | cons entry rest => exact .inr ⟨_, rfl⟩
  have hline (value : String) : pairLines "vars" (vars.insert key value) =
      [String.ofList (before ++ ((pair key value).toList ++ after))] := by
    have hentries : (vars.insert key value).entries = earlier ++ (key, value) :: later := hput value
    have hnonempty : (vars.insert key value).isEmpty = false := by
      rw [OrderedMap.isEmpty, hentries]
      simp
    rw [pairLines, hnonempty, if_neg Bool.false_ne_true, hentries]
    refine congrArg (fun line => [line]) (String.toList_inj.1 ?_)
    rw [String.toList_ofList, String.toList_append, String.toList_intercalate, List.map_map,
      List.map_append, List.map_cons, String.toList_append, String.toList_append]
    exact (congrArg ("# @vars ".toList ++ ·)
      (intercalate_append_cons [' '] (earlier.map write) _ (later.map write))).trans
        (List.append_assoc ..).symm
  have happart {value : String} (hmem : value ∈ [first, second]) (hvalue : Redactable value) :
      Apart before key value after := by
    have hentries : (vars.insert key value).entries = earlier ++ (key, value) :: later := hput value
    have hcalm := calm value hmem
    rw [hentries] at hcalm
    have hown : Calm key value :=
      hcalm (key, value) (List.mem_append_right _ List.mem_cons_self)
    refine ⟨?_, hown.key, apply_value hvalue hown hafter⟩
    exact (closes_directive rfl hfree).append
      (closes_entries fun entry hentry => hcalm entry (List.mem_append_left _ hentry))
  have hsame := scrub_secret telling hfirst hsecond same (happart (by simp) hfirst)
    (happart (by simp) hsecond)
  rw [hline, hline]
  simp only [List.map_cons, List.map_nil, redact, String.toList_ofList]
  exact congrArg (fun line => [String.ofList line]) hsame

/-! ## Values that are not kept at all -/

/-- A value that is covered to its end is replaced whole. -/
theorem shown_of_plain {value : String} (h : ∀ c ∈ value.toList, parameter.covers c = true) :
    Redactable value ∧ shown value = [] := by
  have hquote : ∀ c ∈ (quote value).toList, parameter.covers c = true := by
    unfold quote
    split
    · exact h
    · simp only [String.toList_ofList, List.mem_cons, List.mem_append, List.mem_flatMap,
        List.not_mem_nil, or_false]
      rintro c (rfl | ⟨d, hd, hc⟩ | rfl)
      · decide
      · unfold escapeChar at hc
        split at hc
        · simp only [List.mem_cons, List.not_mem_nil, or_false] at hc
          rcases hc with rfl | rfl
          · decide
          · exact h c hd
        · obtain rfl := List.mem_singleton.1 hc
          exact h c hd
      · decide
  have hblank : ∀ c ∈ (quote value).toList, Text.isBlank c = false := by
    intro c hc
    have hcovers : Text.isBlank c = false ∧ c ≠ '&' := by simpa [parameter] using hquote c hc
    exact hcovers.1
  refine ⟨⟨?_, header_free_of_plain hblank⟩, ?_⟩
  · intro hhead
    exact absurd (h '&' (List.mem_of_head? hhead)) (by decide)
  · have hdropped : ((quote value).toList ++ []).dropWhile parameter.covers = [] :=
      List.dropWhile_append_of_pos hquote
    rwa [List.append_nil] at hdropped

/-! ## Workflows -/

/-- The workflow with a value for an option. -/
def Workflow.withOption (workflow : Workflow) (key value : String) : Workflow :=
  { workflow with options := workflow.options.insert key value }

/-- The step with a value for a variable. -/
def Step.withVar (key value : String) : Step → Step
  | request step => request { step with vars := step.vars.insert key value }
  | conditional step => conditional { step with vars := step.vars.insert key value }
  | switch step => switch { step with vars := step.vars.insert key value }
  | forEach step loop => forEach { step with vars := step.vars.insert key value } loop

/-- The workflow with a value for a variable of one step. -/
def Workflow.withVar (workflow : Workflow) (index : Nat) (key value : String) : Workflow :=
  { workflow with steps := workflow.steps.modify index (Step.withVar key value) }

/-- Only the line of its variables changes in a step. -/
theorem redact_step {requests : RequestIndex} {step : Step} {key first second : String}
    (h : (pairLines "vars" (step.vars.insert key first)).map redact =
      (pairLines "vars" (step.vars.insert key second)).map redact) :
    ((step.withVar key first).directives requests).map redact =
      ((step.withVar key second).directives requests).map redact := by
  cases step <;>
    simp only [Step.withVar, Step.directives, RequestStep.directives, ConditionalStep.directives,
      SwitchStep.directives, List.map_cons, List.map_append, Step.vars] at h ⊢ <;>
    rw [h]

theorem flatMap_modify_congr {α β : Type} {f g : α → α} {h : α → List β} {index : Nat}
    {items : List α} (same : ∀ item, items[index]? = some item → h (f item) = h (g item)) :
    (items.modify index f).flatMap h = (items.modify index g).flatMap h := by
  induction items generalizing index with
  | nil => simp
  | cons item rest ih =>
    cases index with
    | zero => simp [same item rfl]
    | succ index => simp [ih fun later hlater => same later hlater]

/-- The history keeps of a value under the key of a secret what follows its first blank or
ampersand, and nothing else: runs of two workflows that differ in such a value only, of an option or
of a variable of a step, leave the same entry if the two values show the same. -/
theorem History.push_of_secrets (requests : RequestIndex) (workflow : Workflow) (limit : Nat)
    (entry : Entry) (entries : List Entry) {key first second : String} (telling : Telling key)
    (hfirst : Redactable first) (hsecond : Redactable second) (same : shown first = shown second) :
    let stored (workflow : Workflow) : List Entry :=
      History.push limit { entry with definition := workflow.directives requests } entries
    (header.Free key.toList →
      stored (workflow.withOption key first) = stored (workflow.withOption key second)) ∧
    ∀ index,
      (∀ step, workflow.steps[index]? = some step → ∀ value ∈ [first, second],
        ∀ assignment ∈ (step.vars.insert key value).entries,
          Calm assignment.1 assignment.2) →
      stored (workflow.withVar index key first) = stored (workflow.withVar index key second) := by
  intro stored
  have hstored {one other : Workflow}
      (h : (one.directiveLines requests).map redact = (other.directiveLines requests).map redact) :
      stored one = stored other := by
    have hdirectives : redact (one.directives requests) = redact (other.directives requests) := by
      rw [Workflow.directives, Workflow.directives, redact_lines, redact_lines, h]
    simp only [stored, History.push, Entry.sanitized, hdirectives]
  refine ⟨fun free => hstored ?_, fun index calm => hstored ?_⟩
  · obtain ⟨before, after, hput⟩ := exists_put key workflow.options.entries
    have hline := redact_option telling free hfirst hsecond same
    simp only [Workflow.directiveLines, Workflow.headerDirectives, Workflow.withOption,
      OrderedMap.insert, hput, List.map_append, List.map_cons, hline]
  · simp only [Workflow.directiveLines, Workflow.headerDirectives, Workflow.withVar,
      List.map_append, List.map_flatMap, List.map_cons]
    refine congrArg _ (flatMap_modify_congr fun step hstep => ?_)
    rw [redact_step (redact_vars telling hfirst hsecond same (calm step hstep))]

/-- An option and a variable of a step, each with two plain values. -/
theorem History.push_of_secrets_plain :
    let workflow : Workflow :=
      { name := "deploy", steps := [.request { target := "ping", vars := .ofList [("host", "a b")] }] }
    let stored (workflow : Workflow) : List Entry :=
      History.push 1 { (default : Entry) with definition := workflow.directives .empty } []
    stored (workflow.withOption "API_KEY" "alpha") = stored (workflow.withOption "API_KEY" "b#") ∧
      stored (workflow.withVar 0 "token" "alpha") = stored (workflow.withVar 0 "token" "b#") := by
  intro workflow stored
  obtain ⟨hfirst, hshown⟩ := @shown_of_plain "alpha" (List.all_eq_true.1 (by decide))
  obtain ⟨hsecond, hshown'⟩ := @shown_of_plain "b#" (List.all_eq_true.1 (by decide))
  have hplain : ∀ cs : List Char, cs.all (!Text.isBlank ·) = true → header.Free cs :=
    fun cs h => header_free_of_plain (by simpa using h)
  have same : shown "alpha" = shown "b#" := hshown.trans hshown'.symm
  have hoption : Telling "API_KEY" := ⟨"key", by decide, by decide +kernel⟩
  have hvar : Telling "token" := ⟨"token", by decide, by decide +kernel⟩
  have hvars : ∀ step, workflow.steps[0]? = some step → ∀ value ∈ ["alpha", "b#"],
      ∀ assignment ∈ (step.vars.insert "token" value).entries,
        Calm assignment.1 assignment.2 := by
    rintro _ ⟨⟩ value hvalue assignment hmem
    have hentries : assignment ∈ [("host", "a b"), ("token", value)] := hmem
    simp only [List.mem_cons, List.not_mem_nil, or_false] at hentries hvalue
    rcases hentries with rfl | rfl
    · exact ⟨hplain _ (by decide), by decide +kernel⟩
    · rcases hvalue with rfl | rfl <;> exact ⟨hplain _ (by decide), by decide +kernel⟩
  exact ⟨(History.push_of_secrets .empty workflow 1 default [] hoption hfirst hsecond same).1
      (hplain _ (by decide)),
    (History.push_of_secrets .empty workflow 1 default [] hvar hfirst hsecond same).2 0 hvars⟩

/-- Two workflows whose secrets can be told apart: a value with a blank in it is kept from there on.
-/
theorem History.push_of_secrets_leaks : ∃ (workflow : Workflow) (key first second : String),
    Telling key ∧
      History.push 1 { (default : Entry) with
        definition := (workflow.withOption key first).directives .empty } [] ≠
      History.push 1 { (default : Entry) with
        definition := (workflow.withOption key second).directives .empty } [] := by
  refine ⟨{ name := "deploy" }, "API_KEY", "alpha beta", "x", ⟨"key", by decide, by decide +kernel⟩, ?_⟩
  decide +kernel

end RequestFlow
