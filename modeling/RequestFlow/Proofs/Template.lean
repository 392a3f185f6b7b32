import Mathlib.Data.List.TakeWhile
import RequestFlow.Template

/-!
# What templates are filled in with

An author writes a template as literal texts with placeholders between them. Braces may stand in a
literal text in any way but as a placeholder, right before a placeholder and right behind one
included. The reader finds the placeholders that were meant and no others, whatever stands beside
them, and what a value holds is not looked at again.

* `Plain`: the literal texts; `Slot`: the placeholders; `source`: a template made of them;
* `parse_plain`, `parse_slot`: what the reader finds in each;
* `Gives`: the value of a name in a scope;
* `render_plain`: a literal text is its own text;
* `render_source`: the text of a template in a scope, or the first name that the scope lacks.
-/

namespace RequestFlow

open Text

namespace Template

/-! ## Templates as they are written -/

/-- No placeholder stands anywhere in the text. -/
def Plain (cs : List Char) : Prop :=
  ∀ inner, (∀ c ∈ inner, isBrace c = false) → ¬ '{' :: '{' :: (inner ++ ['}', '}']) <:+: cs

/-- A name without braces, in double braces and with any blanks around it. -/
structure Slot where
  before : List Char
  name : String
  after : List Char
  blankBefore : ∀ c ∈ before, isBlank c = true
  blankAfter : ∀ c ∈ after, isBlank c = true
  braceless : ∀ c ∈ name.toList, isBrace c = false
  trimmed : trim name.toList = name.toList

/-- What stands between the braces. -/
def Slot.inner (slot : Slot) : List Char := slot.before ++ (slot.name.toList ++ slot.after)

/-- A placeholder as it is written. -/
def Slot.text (slot : Slot) : List Char := '{' :: '{' :: (slot.inner ++ ['}', '}'])

/-- A literal text, which may be empty, and the placeholder behind it. -/
structure Part where
  lead : List Char
  slot : Slot
  plain : Plain lead

/-- A template: its parts in turn, and a literal text at its end. -/
def source (parts : List Part) (last : List Char) : List Char :=
  parts.flatMap (fun part => part.lead ++ part.slot.text) ++ last

/-- The same with values in the places of the placeholders. -/
def filled (value : String → String) (parts : List Part) (last : List Char) : List Char :=
  parts.flatMap (fun part => part.lead ++ (value part.slot.name).toList) ++ last

theorem isBrace_of_isBlank {c : Char} (h : isBlank c = true) : isBrace c = false := by
  cases hbrace : isBrace c with
  | false => rfl
  | true =>
    simp only [isBrace, Bool.or_eq_true, beq_iff_eq] at hbrace
    rcases hbrace with rfl | rfl <;> exact absurd h (by decide)

theorem Slot.inner_braceless (slot : Slot) : ∀ c ∈ slot.inner, isBrace c = false := by
  intro c hc
  simp only [inner, List.mem_append] at hc
  rcases hc with hc | hc | hc
  · exact isBrace_of_isBlank (slot.blankBefore c hc)
  · exact slot.braceless c hc
  · exact isBrace_of_isBlank (slot.blankAfter c hc)

theorem Slot.trim_inner (slot : Slot) : trim slot.inner = slot.name.toList :=
  (trim_surrounded slot.blankBefore slot.blankAfter slot.name.toList).trans slot.trimmed

/-- A placeholder has four braces. -/
theorem plain_of_length {cs : List Char} (h : cs.length < 4) : Plain cs := by
  intro inner _ hinside
  have hle := hinside.length_le
  simp only [List.length_cons, List.length_append, List.length_nil] at hle
  omega

/-- A text without braces is plain. -/
theorem plain_of_braceless {cs : List Char} (h : ∀ c ∈ cs, isBrace c = false) : Plain cs := by
  intro inner _ hinside
  cases h '{' (hinside.subset List.mem_cons_self)

/-! ## What the reader finds -/

section

variable {c : Char} {cs rest : List Char}

/-- Where the rest of a placeholder is found, it is there. -/
theorem inner_of_hole? {found : String × { rest : List Char // rest.length ≤ cs.length }}
    (h : hole? cs = some found) :
    ∃ inner, (∀ c ∈ inner, isBrace c = false) ∧ inner ++ ['}', '}'] <+: cs := by
  unfold hole? at h
  split at h
  · rename_i after heq
    refine ⟨cs.takeWhile fun c => !isBrace c, fun c hc => by simpa using List.mem_takeWhile_imp hc,
      after, ?_⟩
    have hcs := List.takeWhile_append_dropWhile (p := fun c => !isBrace c) (l := cs)
    rw [heq] at hcs
    simpa using hcs
  · cases h

theorem hole?_inner {inner : List Char} (h : ∀ c ∈ inner, isBrace c = false) (rest : List Char) :
    ∃ hle, hole? (inner ++ '}' :: '}' :: rest) = some (String.ofList (trim inner), ⟨rest, hle⟩) := by
  have hinner : ∀ c ∈ inner, (!isBrace c) = true := by simpa using h
  have hdrop : (inner ++ '}' :: '}' :: rest).dropWhile (fun c => !isBrace c) =
      '}' :: '}' :: rest := by
    rw [List.dropWhile_append_of_pos hinner]
    rfl
  have htake : (inner ++ '}' :: '}' :: rest).takeWhile (fun c => !isBrace c) = inner := by
    rw [List.takeWhile_append_of_pos hinner]
    simp [isBrace]
  refine ⟨by simp; omega, ?_⟩
  unfold hole?
  split
  · rename_i after heq
    cases hdrop.symm.trans heq
    rw [htake]
  · rename_i hne
    exact absurd hdrop (hne rest)

/-- A character that begins no placeholder stands for itself. -/
theorem parse_char (h : ∀ rest, c :: cs = '{' :: '{' :: rest → hole? rest = none) :
    parse (c :: cs) = .char c :: parse cs := by
  by_cases hopens : ∃ rest, c :: cs = '{' :: '{' :: rest
  · obtain ⟨rest, heq⟩ := hopens
    have hnone := h rest heq
    cases heq
    rw [parse, hnone]
  · rw [parse]
    rintro rest rfl rfl
    exact hopens ⟨rest, rfl⟩

/-- What may stand behind a literal text: nothing, or a placeholder. -/
def Behind (cs : List Char) : Prop := cs = [] ∨ ∃ rest, cs = '{' :: '{' :: rest

/-- No placeholder begins in a literal text and ends behind it: it would have to go on over the
braces that the next one opens with. -/
theorem hole?_of_plain {more : List Char} (h : Plain (c :: cs)) (hrest : Behind rest)
    (hmore : c :: (cs ++ rest) = '{' :: '{' :: more) : hole? more = none := by
  refine Option.eq_none_iff_forall_ne_some.2 fun found hfound => ?_
  obtain ⟨inner, hinner, tail, htail⟩ := inner_of_hole? hfound
  have hopens : '{' ∉ inner ++ ['}', '}'] := by
    intro hmem
    rcases List.mem_append.1 hmem with hmem | hmem
    · cases hinner '{' hmem
    · exact absurd hmem (by decide)
  have heq : '{' :: '{' :: (inner ++ ['}', '}']) ++ tail = c :: cs ++ rest := by
    show '{' :: '{' :: (inner ++ ['}', '}'] ++ tail) = c :: (cs ++ rest)
    rw [hmore, htail]
  rcases List.append_eq_append_iff.1 heq with ⟨more, hcs, -⟩ | ⟨rear, hhole, hrear⟩
  · exact h inner hinner ⟨[], more, by rw [hcs]; rfl⟩
  · cases rear with
    | nil => exact h inner hinner ⟨[], [], by rw [hhole]; simp⟩
    | cons o rear =>
      obtain rfl | ⟨rest, rfl⟩ := hrest
      · cases hrear
      · obtain ⟨rfl, hbehind⟩ := List.cons.inj hrear
        obtain ⟨-, hinside⟩ := List.cons.inj hhole
        refine hopens ?_
        cases cs with
        | nil =>
          obtain ⟨-, rfl⟩ := List.cons.inj hinside
          cases inner with
          | nil => cases hbehind
          | cons d inner => exact (List.cons.inj hbehind).1 ▸ List.mem_cons_self
        | cons d cs =>
          rw [(List.cons.inj hinside).2]
          exact List.mem_append_right cs List.mem_cons_self

/-- A literal text is read character by character. -/
theorem parse_plain (h : Plain cs) (hrest : Behind rest) :
    parse (cs ++ rest) = cs.map Piece.char ++ parse rest := by
  induction cs with
  | nil => rfl
  | cons c cs ih =>
    have hcs : Plain cs := fun inner hinner hinside =>
      h inner hinner (hinside.trans (List.suffix_cons c cs).isInfix)
    rw [List.cons_append, parse_char fun _ hmore => hole?_of_plain h hrest hmore, ih hcs]
    rfl

/-- A placeholder is read whole, and its name without the blanks around it. -/
theorem parse_slot (slot : Slot) (rest : List Char) :
    parse (slot.text ++ rest) = .hole slot.name :: parse rest := by
  obtain ⟨hle, hhole⟩ := hole?_inner slot.inner_braceless rest
  have htext : slot.text ++ rest = '{' :: '{' :: (slot.inner ++ '}' :: '}' :: rest) := by
    simp [Slot.text]
  rw [htext, parse]
  simp only [hhole, slot.trim_inner, String.ofList_toList]

end

/-! ## Values of names -/

/-- The scope gives the name a value: its own, or else that of the name behind the mark. -/
def Gives (scope : TextMap) (name value : String) : Prop :=
  scope.get? name = some value ∨
    scope.get? name = none ∧ ∃ short, name = "vars." ++ short ∧ scope.get? short = some value

theorem unmarked?_eq_some {name short : String} :
    unmarked? name = some short ↔ name = "vars." ++ short := by
  have hmarked : ("vars." ++ short).toList = variableMark ++ short.toList := String.toList_append ..
  simp only [unmarked?, List.isPrefixOf_iff_prefix, ← String.toList_inj, hmarked]
  constructor
  · intro h
    split at h
    · rename_i hprefix
      obtain ⟨rest, hrest⟩ := hprefix
      rw [← hrest, List.drop_left, Option.some.injEq] at h
      rw [← hrest, ← h, String.toList_ofList]
    · cases h
  · intro h
    rw [h, if_pos (List.prefix_append _ _), List.drop_left, String.ofList_toList]

section

variable {scope other : TextMap} {name value : String} {e : UnknownVariable}

theorem lookup_eq_ok : scope.lookup name = .ok value ↔ Gives scope name value := by
  simp only [Gives, ← unmarked?_eq_some, ← Option.bind_eq_some_iff]
  unfold TextMap.lookup
  cases scope.get? name <;> cases (unmarked? name).bind scope.get? <;> simp

theorem lookup_eq_error :
    scope.lookup name = .error e ↔ (∀ value, ¬ Gives scope name value) ∧ e = ⟨name⟩ := by
  simp only [← lookup_eq_ok]
  unfold TextMap.lookup
  split <;> simp [eq_comm]

/-- The value of a name depends on that name, with its mark and without. -/
theorem lookup_congr
    (h : ∀ short, name = short ∨ name = "vars." ++ short → other.get? short = scope.get? short) :
    other.lookup name = scope.lookup name := by
  have hshort : (unmarked? name).bind other.get? = (unmarked? name).bind scope.get? :=
    Option.bind_congr fun short hshort => h short (.inr (unmarked?_eq_some.1 hshort))
  rw [TextMap.lookup, TextMap.lookup, h name (.inl rfl), hshort]

end

/-! ## Filling in -/

theorem fill_chars (scope : TextMap) (cs : List Char) (pieces : List Piece) :
    fill scope (cs.map Piece.char ++ pieces) = (fill scope pieces).map (cs ++ ·) := by
  induction cs with
  | nil => cases h : fill scope pieces <;> simp [h, Except.map]
  | cons c cs ih =>
    rw [List.map_cons, List.cons_append, fill, ih]
    cases fill scope pieces <;> rfl

section

variable {parts : List Part} {last : List Char}

theorem fill_last (scope : TextMap) (plain : Plain last) :
    fill scope (parse (source [] last)) = .ok last := by
  have hparse : parse (last ++ []) = last.map Piece.char ++ parse [] := parse_plain plain (.inl rfl)
  rw [source, List.flatMap_nil, List.nil_append, ← List.append_nil last, hparse, fill_chars, parse]
  simp [fill, Except.map]

/-- A literal text alone is its own text in every scope. -/
theorem render_plain {cs : List Char} (scope : TextMap) (plain : Plain cs) :
    render scope (String.ofList cs) = .ok (String.ofList cs) := by
  rw [render, String.toList_ofList]
  exact congrArg (Except.map String.ofList) (fill_last scope plain)

/-- A part in front of others adds its literal text and its value, if it has one. -/
theorem fill_part (scope : TextMap) (part : Part) (parts : List Part) (last : List Char) :
    fill scope (parse (source (part :: parts) last)) =
      (scope.lookup part.slot.name).bind fun value =>
        (fill scope (parse (source parts last))).map fun rest =>
          part.lead ++ value.toList ++ rest := by
  have hsource : source (part :: parts) last =
      part.lead ++ (part.slot.text ++ source parts last) := by
    simp [source]
  have hbehind : Behind (part.slot.text ++ source parts last) := .inr ⟨_, rfl⟩
  rw [hsource, parse_plain part.plain hbehind, parse_slot, fill_chars, fill]
  cases scope.lookup part.slot.name with
  | error e => rfl
  | ok value =>
    cases fill scope (parse (source parts last)) with
    | error e => rfl
    | ok rest => simp [Except.bind, Except.map, bind, pure, Except.pure]

theorem fill_known {scope : TextMap} {value : String → String} (plain : Plain last)
    (h : ∀ part ∈ parts, Gives scope part.slot.name (value part.slot.name)) :
    fill scope (parse (source parts last)) = .ok (filled value parts last) := by
  induction parts with
  | nil => exact fill_last scope plain
  | cons part parts ih =>
    obtain ⟨hpart, hparts⟩ := List.forall_mem_cons.1 h
    rw [fill_part, lookup_eq_ok.2 hpart, ih hparts]
    simp [Except.bind, Except.map, filled]

/-- The first name that the scope lacks is told. -/
theorem fill_unknown {scope : TextMap} {e : UnknownVariable} (plain : Plain last) :
    fill scope (parse (source parts last)) = .error e ↔
      ∃ earlier part later, parts = earlier ++ part :: later ∧
        (∀ known ∈ earlier, ∃ value, Gives scope known.slot.name value) ∧
        (∀ value, ¬ Gives scope part.slot.name value) ∧ e = ⟨part.slot.name⟩ := by
  induction parts with
  | nil =>
    rw [fill_last scope plain]
    simp
  | cons part parts ih =>
    rw [fill_part]
    cases hlookup : scope.lookup part.slot.name with
    | error found =>
      obtain ⟨hunknown, rfl⟩ := lookup_eq_error.1 hlookup
      constructor
      · rintro ⟨⟩
        exact ⟨[], part, parts, rfl, by simp, hunknown, rfl⟩
      · rintro ⟨earlier, other, later, hparts, hearlier, -, rfl⟩
        cases earlier with
        | nil =>
          cases hparts
          rfl
        | cons first earlier =>
          cases hparts
          obtain ⟨value, hvalue⟩ := hearlier part List.mem_cons_self
          exact absurd hvalue (hunknown value)
    | ok value =>
      have hknown : Gives scope part.slot.name value := lookup_eq_ok.1 hlookup
      have hrest : (Except.ok value : Except UnknownVariable String).bind (fun value =>
            (fill scope (parse (source parts last))).map fun rest =>
              part.lead ++ value.toList ++ rest) = .error e ↔
          fill scope (parse (source parts last)) = .error e := by
        cases fill scope (parse (source parts last)) <;> simp [Except.bind, Except.map]
      rw [hrest, ih]
      constructor
      · rintro ⟨earlier, other, later, rfl, hearlier, hother⟩
        exact ⟨part :: earlier, other, later, rfl,
          List.forall_mem_cons.2 ⟨⟨value, hknown⟩, hearlier⟩, hother⟩
      · rintro ⟨earlier, other, later, hparts, hearlier, hunknown, rfl⟩
        cases earlier with
        | nil =>
          cases hparts
          exact absurd hknown (hunknown value)
        | cons first earlier =>
          cases hparts
          exact ⟨earlier, other, later, rfl, (List.forall_mem_cons.1 hearlier).2, hunknown, rfl⟩

theorem fill_congr {scope other : TextMap} (plain : Plain last)
    (h : ∀ part ∈ parts, ∀ name, part.slot.name = name ∨ part.slot.name = "vars." ++ name →
      other.get? name = scope.get? name) :
    fill other (parse (source parts last)) = fill scope (parse (source parts last)) := by
  induction parts with
  | nil => rw [fill_last other plain, fill_last scope plain]
  | cons part parts ih =>
    obtain ⟨hpart, hparts⟩ := List.forall_mem_cons.1 h
    rw [fill_part, fill_part, lookup_congr hpart, ih hparts]

end

/-- A template has its literal texts unchanged and each value as it is, in the places of the
placeholders; it fails on the first name that the scope lacks, and on that alone; and nothing else
of the scope matters to it. -/
theorem render_source (scope : TextMap) (parts : List Part) (last : List Char)
    (plain : Plain last) :
    let template := String.ofList (source parts last)
    (∀ value : String → String,
      (∀ part ∈ parts, Gives scope part.slot.name (value part.slot.name)) →
        render scope template = .ok (String.ofList (filled value parts last))) ∧
    (∀ e, render scope template = .error e ↔
      ∃ earlier part later, parts = earlier ++ part :: later ∧
        (∀ known ∈ earlier, ∃ value, Gives scope known.slot.name value) ∧
        (∀ value, ¬ Gives scope part.slot.name value) ∧ e = ⟨part.slot.name⟩) ∧
    ∀ other : TextMap,
      (∀ part ∈ parts, ∀ name, part.slot.name = name ∨ part.slot.name = "vars." ++ name →
        other.get? name = scope.get? name) →
      render other template = render scope template := by
  simp only [render, String.toList_ofList]
  refine ⟨fun value h => ?_, fun e => ?_, fun other h => ?_⟩
  · rw [fill_known plain h]
    rfl
  · rw [← fill_unknown plain]
    cases fill scope (parse (source parts last)) <;> simp [Except.map]
  · rw [fill_congr plain h]

/-- Braces right before a placeholder, right behind it, and in its value. -/
theorem render_source_adjacent :
    Plain ['}', '}'] ∧
      render (.ofList [("a", "\x7b\x7bb\x7d\x7d")]) "\x7b\x7b\x7b vars.a \x7d\x7d\x7d\x7d" =
        .ok "\x7b\x7b\x7bb\x7d\x7d\x7d\x7d" := by
  let slot : Slot :=
    { before := [' '], name := "vars.a", after := [' ']
      blankBefore := List.forall_mem_singleton.2 (by decide)
      blankAfter := List.forall_mem_singleton.2 (by decide)
      braceless := by simp [isBrace], trimmed := by decide }
  let parts : List Part := [⟨['{'], slot, plain_of_length (by decide)⟩]
  have plain : Plain ['}', '}'] := plain_of_length (by decide)
  have hsource : String.ofList (source parts ['}', '}']) =
      "\x7b\x7b\x7b vars.a \x7d\x7d\x7d\x7d" := by decide
  have hfilled : String.ofList (filled (fun _ => "\x7b\x7bb\x7d\x7d") parts ['}', '}']) =
      "\x7b\x7b\x7bb\x7d\x7d\x7d\x7d" := by decide
  have hgives : ∀ part ∈ parts,
      Gives (.ofList [("a", "\x7b\x7bb\x7d\x7d")]) part.slot.name "\x7b\x7bb\x7d\x7d" :=
    List.forall_mem_singleton.2 (.inr ⟨by decide, "a", rfl, by decide⟩)
  have hrender := (render_source _ parts _ plain).1 (fun _ => "\x7b\x7bb\x7d\x7d") hgives
  rw [hsource, hfilled] at hrender
  exact ⟨plain, hrender⟩

end Template

end RequestFlow
