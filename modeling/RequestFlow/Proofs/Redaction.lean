import RequestFlow.Proofs.Text.Blanks
import RequestFlow.Redaction

/-!
# Where redaction stops

What a rule makes of a text depends on where marks stand and on how far the secrets behind them go.
A character that is part of no mark and of no secret bars the way: what is before it and what is
after it are redacted by themselves, and so every text is redacted line by line. The secret behind a
mark is replaced whole, so that what comes of the text does not depend on it.

* `Rule.apply_of_bars`: what is before a bar and what is after it are redacted by themselves;
* `Rule.apply_of_still`: where no mark begins, nothing is replaced;
* `redact_lines`: a text is redacted line by line;
* `apply_marked`: what follows the mark of a parameter counts only from its first blank or
  ampersand on.
-/

namespace RequestFlow

namespace Redaction

/-! ## Marks -/

theorem splitMark_of_map {mark cs : List Char} (h : cs.map foldLetter = mark) (rest : List Char) :
    splitMark mark (cs ++ rest) = some (cs, rest) := by
  subst h
  induction cs with
  | nil => rfl
  | cons c cs ih => simp [splitMark, ih]

theorem map_of_splitMark {mark cs front rest : List Char}
    (h : splitMark mark cs = some (front, rest)) : front.map foldLetter = mark := by
  induction mark generalizing cs front with
  | nil => cases h; rfl
  | cons m mark ih =>
    cases cs with
    | nil => cases h
    | cons c cs =>
      simp only [splitMark] at h
      split at h
      · rename_i hfold
        obtain ⟨split, hsplit, heq⟩ := Option.map_eq_some_iff.1 h
        cases heq
        simp [hfold, ih hsplit]
      · cases h

/-- The mark does not take up all of `cs` and go on in `rest`. -/
def Parts (mark cs rest : List Char) : Prop :=
  ∀ more, mark = cs.map foldLetter ++ more → more <+: rest.map foldLetter → more = []

/-- Then it is found in `cs` or not at all. -/
theorem splitMark_append {mark cs rest : List Char} (h : Parts mark cs rest) :
    splitMark mark (cs ++ rest) =
      (splitMark mark cs).map fun split => (split.1, split.2 ++ rest) := by
  induction mark generalizing cs with
  | nil => simp [splitMark]
  | cons m mark ih =>
    cases cs with
    | nil =>
      rw [List.nil_append]
      cases hsplit : splitMark (m :: mark) rest with
      | none => rfl
      | some split =>
        have hprefix : m :: mark <+: rest.map foldLetter := by
          rw [← map_of_splitMark hsplit, ← append_of_splitMark hsplit, List.map_append]
          exact List.prefix_append _ _
        cases h (m :: mark) rfl hprefix
    | cons d cs =>
      rw [List.cons_append]
      simp only [splitMark]
      split
      · rename_i hfold
        have hparts : Parts mark cs rest := by
          intro more hmore
          refine h more ?_
          rw [hmore, List.map_cons, hfold]
          rfl
        rw [ih hparts]
        simp [Function.comp_def]
      · rfl

theorem parts_of_ends {mark : List Char} {c : Char} (h : foldLetter c ∉ mark.dropLast)
    (cs rest : List Char) : Parts mark (cs ++ [c]) rest := by
  rintro (_ | ⟨m, more⟩) hmark -
  · rfl
  · refine (h ?_).elim
    rw [hmark, List.dropLast_append_of_ne_nil (List.cons_ne_nil m more), List.map_append]
    exact List.mem_append_left _ (List.mem_append_right _ (List.mem_singleton_self _))

namespace Rule

variable {rule : Rule} {c : Char}

/-- The mark at the front of a text, and what follows it. -/
def mark? (rule : Rule) (cs : List Char) : Option (List Char × List Char) :=
  rule.marks.findSome? fun mark => splitMark mark.toList cs

theorem secret?_eq (rule : Rule) (cs : List Char) :
    rule.secret? cs = (rule.mark? cs).filter fun split => split.2.head?.any rule.covers := rfl

theorem of_mark? {cs front rest : List Char} (h : rule.mark? cs = some (front, rest)) :
    front ++ rest = cs ∧ ∃ mark ∈ rule.marks, front.map foldLetter = mark.toList := by
  obtain ⟨mark, hmem, hmark⟩ := List.exists_of_findSome?_eq_some h
  exact ⟨append_of_splitMark hmark, mark, hmem, map_of_splitMark hmark⟩

theorem mark?_append {cs rest : List Char} (h : ∀ mark ∈ rule.marks, Parts mark.toList cs rest) :
    rule.mark? (cs ++ rest) = (rule.mark? cs).map fun split => (split.1, split.2 ++ rest) := by
  unfold mark?
  rw [List.map_findSome?]
  generalize rule.marks = marks at h
  induction marks with
  | nil => rfl
  | cons mark marks ih =>
    simp only [List.findSome?_cons, Function.comp_apply, splitMark_append (h mark List.mem_cons_self),
      ih fun later hlater => h later (List.mem_cons_of_mem _ hlater)]

/-! ## One character after the other -/

theorem apply_nil (rule : Rule) : rule.apply [] = [] := by
  rw [apply]
  split
  · rename_i mark rest h
    have hempty := append_of_secret h
    simp only [List.append_eq_nil_iff] at hempty
    obtain ⟨rfl, rfl⟩ := hempty
    rw [secret?_eq, Option.filter_eq_some_iff] at h
    simp at h
  · rfl

theorem apply_of_secret {cs front rest : List Char} (h : rule.secret? cs = some (front, rest)) :
    rule.apply cs = front ++ placeholder ++ rule.apply (rest.dropWhile rule.covers) := by
  rw [apply]
  split
  · rename_i h'
    cases h.symm.trans h'
    rfl
  · rename_i h'
    cases h.symm.trans h'

theorem apply_cons {cs : List Char} (h : rule.secret? (c :: cs) = none) :
    rule.apply (c :: cs) = c :: rule.apply cs := by
  rw [apply]
  split
  · rename_i h'
    cases h.symm.trans h'
  · rfl

/-- Where no mark begins, nothing is replaced. -/
theorem apply_of_still {cs rest : List Char}
    (h : ∀ suffix, suffix ≠ [] → suffix <:+ cs → rule.secret? (suffix ++ rest) = none) :
    rule.apply (cs ++ rest) = cs ++ rule.apply rest := by
  induction cs with
  | nil => rfl
  | cons c cs ih =>
    have hfirst := h (c :: cs) (List.cons_ne_nil c cs) (List.suffix_refl _)
    rw [List.cons_append] at hfirst ⊢
    rw [apply_cons hfirst, ih fun suffix hne hsuffix =>
      h suffix hne (hsuffix.trans (List.suffix_cons c cs))]
    rfl

/-- The text holds no mark of the rule. -/
def Free (rule : Rule) (cs : List Char) : Prop :=
  ∀ mark ∈ rule.marks, ¬ mark.toList <:+: cs.map foldLetter

theorem mark?_of_free {cs suffix : List Char} (h : rule.Free cs) (hsuffix : suffix <:+ cs) :
    rule.mark? suffix = none := by
  cases hfound : rule.mark? suffix with
  | none => rfl
  | some split =>
    obtain ⟨front, more⟩ := split
    obtain ⟨happend, mark, hmem, hmark⟩ := of_mark? hfound
    refine (h mark hmem ?_).elim
    rw [← hmark]
    exact (((List.prefix_append front more).isInfix.trans (happend ▸ hsuffix.isInfix))).map _

/-- A text without a mark stays as it is. -/
theorem apply_of_free {cs : List Char} (h : rule.Free cs) : rule.apply cs = cs := by
  have hstill : rule.apply (cs ++ []) = cs ++ rule.apply [] :=
    apply_of_still fun suffix _ hsuffix => by
      rw [List.append_nil, secret?_eq, mark?_of_free h hsuffix]
      rfl
  rwa [apply_nil, List.append_nil] at hstill

/-- So does one in front of others, if it ends where marks end. -/
theorem apply_append_of_free {cs : List Char}
    (hends : ∀ mark ∈ rule.marks, foldLetter c ∉ mark.toList.dropLast)
    (h : rule.Free (cs ++ [c])) (rest : List Char) :
    rule.apply (cs ++ c :: rest) = cs ++ c :: rule.apply rest := by
  have hstill : rule.apply (cs ++ [c] ++ rest) = cs ++ [c] ++ rule.apply rest :=
    apply_of_still fun suffix hne hsuffix => by
      obtain ⟨before, heq, -⟩ := (List.suffix_concat_iff.1 hsuffix).resolve_left hne
      have hparts : ∀ mark ∈ rule.marks, Parts mark.toList suffix rest := by
        rw [heq]
        exact fun mark hmem => parts_of_ends (hends mark hmem) before rest
      rw [secret?_eq, mark?_append hparts, mark?_of_free h hsuffix]
      rfl
  simpa using hstill

/-! ## Bars -/

/-- The character is part of no mark and of no secret. -/
structure Bars (rule : Rule) (c : Char) : Prop where
  uncovered : rule.covers c = false
  strange : ∀ mark ∈ rule.marks, foldLetter c ∉ mark.toList

theorem parts_of_not_mem {mark : List Char} (h : foldLetter c ∉ mark) (cs rest : List Char) :
    Parts mark cs (c :: rest) := by
  rintro (_ | ⟨m, more⟩) hmark hprefix
  · rfl
  · rw [List.map_cons, List.cons_prefix_cons] at hprefix
    refine (h ?_).elim
    rw [hmark, ← hprefix.1]
    exact List.mem_append_right _ List.mem_cons_self

theorem dropWhile_append_of_neg {α : Type} {p : α → Bool} {x : α} (h : p x = false)
    (xs rest : List α) : (xs ++ x :: rest).dropWhile p = xs.dropWhile p ++ x :: rest := by
  induction xs with
  | nil => simp [h]
  | cons y ys ih =>
    simp only [List.cons_append, List.dropWhile_cons]
    split
    · exact ih
    · rfl

theorem secret?_of_bars (h : rule.Bars c) (cs rest : List Char) :
    rule.secret? (cs ++ c :: rest) =
      (rule.secret? cs).map fun split => (split.1, split.2 ++ c :: rest) := by
  rw [secret?_eq, secret?_eq, mark?_append fun mark hmem =>
    parts_of_not_mem (h.strange mark hmem) cs rest]
  cases rule.mark? cs with
  | none => rfl
  | some split =>
    obtain ⟨front, later⟩ := split
    cases later with
    | nil => simp [Option.filter_some, h.uncovered]
    | cons d later => cases hd : rule.covers d <;> simp [Option.filter_some, hd]

/-- What is before a bar and what is after it are redacted by themselves. -/
theorem apply_of_bars (h : rule.Bars c) (cs rest : List Char) :
    rule.apply (cs ++ c :: rest) = rule.apply cs ++ c :: rule.apply rest := by
  have hsecret := secret?_of_bars h cs rest
  fun_induction apply rule cs with
  | case1 cs front later hfound ih =>
    rw [hfound] at hsecret
    rw [apply_of_secret hsecret, dropWhile_append_of_neg h.uncovered,
      ih (secret?_of_bars h _ rest), ← List.append_assoc]
  | case2 hfound =>
    rw [hfound] at hsecret
    exact apply_cons hsecret
  | case3 d cs hfound ih =>
    rw [hfound, List.cons_append] at hsecret
    rw [List.cons_append, apply_cons hsecret, ih (secret?_of_bars h cs rest)]
    rfl

/-- The text is redacted by itself, whatever follows it. -/
def Closes (rule : Rule) (cs : List Char) : Prop :=
  ∀ rest, rule.apply (cs ++ rest) = rule.apply cs ++ rule.apply rest

theorem closes_nil (rule : Rule) : rule.Closes [] := by
  intro rest
  rw [apply_nil]
  rfl

theorem Closes.append {first second : List Char} (h : rule.Closes first)
    (h' : rule.Closes second) : rule.Closes (first ++ second) := by
  intro rest
  rw [List.append_assoc, h, h', h second, List.append_assoc]

/-- A text that stays as it is, whatever follows it. -/
theorem closes_of_apply {cs : List Char}
    (h : ∀ rest, rule.apply (cs ++ rest) = cs ++ rule.apply rest) : rule.Closes cs := by
  intro rest
  have hself := h []
  rw [apply_nil, List.append_nil] at hself
  rw [h, hself]

/-- A text that ends in a bar. -/
theorem closes_of_bars (h : rule.Bars c) (cs : List Char) : rule.Closes (cs ++ [c]) := by
  intro rest
  rw [List.append_assoc, List.singleton_append, apply_of_bars h, apply_of_bars h, apply_nil,
    List.append_assoc]
  rfl

end Rule

/-! ## Lines -/

/-- The characters of a text with the secrets of all rules replaced. -/
def scrub (cs : List Char) : List Char := rules.foldl (fun cs rule => rule.apply cs) cs

theorem bars_newline : ∀ rule ∈ rules, rule.Bars '\n' := by
  simp only [rules, List.mem_cons, List.not_mem_nil, or_false, forall_eq_or_imp, forall_eq]
  exact ⟨⟨by decide +kernel, by decide⟩, ⟨by decide, by decide⟩, ⟨by decide, by decide⟩⟩

theorem scrub_of_bars {c : Char} (h : ∀ rule ∈ rules, rule.Bars c) (cs rest : List Char) :
    scrub (cs ++ c :: rest) = scrub cs ++ c :: scrub rest := by
  unfold scrub
  generalize rules = some at h
  induction some generalizing cs rest with
  | nil => rfl
  | cons rule later ih =>
    rw [List.foldl_cons, Rule.apply_of_bars (h rule List.mem_cons_self)]
    exact ih _ _ fun rule hrule => h rule (List.mem_cons_of_mem _ hrule)

end Redaction

open Redaction in
/-- A text is redacted line by line. -/
theorem redact_lines (lines : List String) :
    redact ("\n".intercalate lines) = "\n".intercalate (lines.map redact) := by
  have hnil : scrub [] = [] := by simp [scrub, rules, Rule.apply_nil]
  have hlines : scrub (['\n'].intercalate (lines.map String.toList)) =
      ['\n'].intercalate ((lines.map redact).map String.toList) := by
    induction lines with
    | nil => exact hnil
    | cons line rest ih =>
      cases rest with
      | nil => simp [redact, scrub]
      | cons next rest =>
        simp only [List.map_cons, List.intercalate_cons_cons, List.append_assoc,
          List.singleton_append] at ih ⊢
        rw [scrub_of_bars bars_newline, ih]
        simp [redact, scrub]
  apply String.toList_inj.1
  rw [String.toList_intercalate]
  exact Eq.trans (by simp [redact, scrub, String.toList_intercalate]) hlines

namespace Redaction

/-! ## Parameters -/

/-- With a covered character after it, a text that ends where marks end holds a secret if there is a
mark at its front and no bar behind the mark. -/
theorem Rule.secret?_append {rule : Rule} {cs rest : List Char}
    (h : ∀ mark ∈ rule.marks, Parts mark.toList cs rest)
    (hrest : rest.head?.any rule.covers = true) :
    rule.secret? (cs ++ rest) =
      ((rule.mark? cs).filter fun split => split.2.head?.all rule.covers).map
        fun split => (split.1, split.2 ++ rest) := by
  rw [secret?_eq, mark?_append h]
  cases rule.mark? cs with
  | none => rfl
  | some split =>
    obtain ⟨front, more⟩ := split
    cases more with
    | nil => simp [Option.filter_some, hrest]
    | cons d more => cases hd : rule.covers d <;> simp [Option.filter_some, hd]

/-- The mark of a parameter ends in an equals sign and holds no other. -/
theorem getLast?_mark {mark : String} (h : mark ∈ parameter.marks) :
    mark.toList.getLast? = some '=' ∧ '=' ∉ mark.toList.dropLast := by
  revert mark
  decide

/-- The mark of a parameter, in any letters. -/
def Tells (cs : List Char) : Prop := ∃ mark ∈ parameter.marks, cs.map foldLetter = mark.toList

theorem Tells.last {cs : List Char} (h : Tells cs) :
    ∃ before c, cs = before ++ [c] ∧ foldLetter c = '=' := by
  obtain ⟨mark, hmem, hmark⟩ := h
  rcases List.eq_nil_or_concat cs with rfl | ⟨before, c, rfl⟩
  · have hlast := (getLast?_mark hmem).1
    rw [← hmark] at hlast
    cases hlast
  · refine ⟨before, c, List.concat_eq_append, ?_⟩
    have hlast := (getLast?_mark hmem).1
    rw [← hmark] at hlast
    simpa using hlast

/-- A mark is not the front of another. -/
theorem Tells.mark?_eq {cs : List Char} (h : Tells cs) : parameter.mark? cs = some (cs, []) := by
  obtain ⟨mark, hmem, hmark⟩ := h
  have hself : splitMark mark.toList cs = some (cs, []) := by
    simpa using splitMark_of_map hmark []
  cases hfound : parameter.mark? cs with
  | none =>
    rw [Rule.mark?, List.findSome?_eq_none_iff] at hfound
    cases hself.symm.trans (hfound mark hmem)
  | some split =>
    obtain ⟨front, more⟩ := split
    obtain ⟨happend, other, hother, hfront⟩ := Rule.of_mark? hfound
    cases more with
    | nil => rw [← happend, List.append_nil]
    | cons d more =>
      -- The equals sign at the end of the one mark would stand inside the other.
      have hsign : '=' ∈ front.map foldLetter := by
        rw [hfront]
        exact List.mem_of_getLast? (getLast?_mark hother).1
      refine ((getLast?_mark hmem).2 ?_).elim
      rw [← hmark, ← happend, List.map_append, List.map_cons,
        List.dropLast_append_of_ne_nil (List.cons_ne_nil _ _)]
      exact List.mem_append_left _ hsign

/-- What changes when letters are compared is not blank, before and after. -/
theorem foldLetter_cases (c : Char) :
    foldLetter c = c ∨ Text.isBlank c = false ∧ Text.isBlank (foldLetter c) = false := by
  unfold foldLetter
  split
  · rename_i heq
    exact .inr ⟨by rw [heq]; decide, by decide⟩
  · split
    · rename_i heq
      exact .inr ⟨by rw [heq]; decide, by decide⟩
    · exact Text.toLower_cases c

/-- A mark is made of characters that a value may hold. -/
theorem Tells.covers {cs : List Char} (h : Tells cs) {c : Char} (hc : c ∈ cs) :
    parameter.covers c = true := by
  obtain ⟨mark, hmem, hmark⟩ := h
  have hplain : (parameter.marks.all fun mark => mark.toList.all parameter.covers) = true := by decide
  have hcovers : parameter.covers (foldLetter c) = true :=
    List.all_eq_true.1 (List.all_eq_true.1 hplain mark hmem) _ (hmark ▸ List.mem_map_of_mem hc)
  have hfold : Text.isBlank (foldLetter c) = false ∧ foldLetter c ≠ '&' := by
    simpa [parameter] using hcovers
  have hblank : Text.isBlank c = false := by
    cases hblank : Text.isBlank c with
    | false => rfl
    | true =>
      rcases foldLetter_cases c with hsame | ⟨hnone, -⟩
      · cases hblank.symm.trans (hsame ▸ hfold.1)
      · cases hblank.symm.trans hnone
  have hampersand : c ≠ '&' := by
    rintro rfl
    exact hfold.2 rfl
  simp [parameter, hblank, hampersand]

/-- What follows the mark of a parameter counts only from its first blank or ampersand on. -/
theorem apply_marked {cs mark : List Char} (hsuffix : mark <:+ cs) (htells : Tells mark) :
    ∃ out, ∀ rest : List Char, rest.head?.any parameter.covers = true →
      parameter.apply (cs ++ rest) = out ++ parameter.apply (rest.dropWhile parameter.covers) := by
  -- On the length of the text: what is found at its front does not depend on what follows.
  induction hlength : cs.length using Nat.strongRecOn generalizing cs with
  | ind n ih =>
    obtain ⟨before, c, rfl, hc⟩ := htells.last
    have hparts : ∀ rest, ∀ text ∈ parameter.marks, Parts text.toList cs rest := by
      obtain ⟨earlier, rfl⟩ := hsuffix
      intro rest text htext
      rw [← List.append_assoc]
      exact parts_of_ends (hc ▸ (getLast?_mark htext).2) _ rest
    have hsecret := fun rest hrest => Rule.secret?_append (hparts rest) hrest
    cases hfound : (parameter.mark? cs).filter fun split => split.2.head?.all parameter.covers with
    | none =>
      simp only [hfound, Option.map_none] at hsecret
      cases cs with
      | nil => simp at hsuffix
      | cons d cs =>
        rcases List.suffix_cons_iff.1 hsuffix with heq | hsuffix
        · rw [← heq, htells.mark?_eq] at hfound
          simp [Option.filter_some] at hfound
        · obtain ⟨out, hout⟩ := ih cs.length (by simp [← hlength]) hsuffix rfl
          refine ⟨d :: out, fun rest hrest => ?_⟩
          have hnone := hsecret rest hrest
          rw [List.cons_append] at hnone ⊢
          rw [Rule.apply_cons hnone, hout rest hrest]
          rfl
    | some split =>
      obtain ⟨front, more⟩ := split
      simp only [hfound, Option.map_some] at hsecret
      obtain ⟨hmark, hhead⟩ := Option.filter_eq_some_iff.1 hfound
      obtain ⟨happend, text, htext, hfront⟩ := Rule.of_mark? hmark
      cases hmore : more.dropWhile parameter.covers with
      | nil =>
        refine ⟨front ++ placeholder, fun rest hrest => ?_⟩
        rw [Rule.apply_of_secret (hsecret rest hrest), List.dropWhile_append, hmore]
        rfl
      | cons d later =>
        have hd : parameter.covers d = false := by
          have hfirst := List.head?_dropWhile_not parameter.covers more
          simpa [hmore] using hfirst
        have hlater : d :: later <:+ cs := by
          rw [← hmore, ← happend]
          exact (List.dropWhile_suffix _).trans (List.suffix_append _ _)
        have hinside : before ++ [c] <:+ d :: later := by
          rcases List.suffix_or_suffix_of_suffix hsuffix hlater with h | h
          · exact h
          · have hmem := htells.covers (h.subset List.mem_cons_self)
            rw [hd] at hmem
            cases hmem
        have hshorter : (d :: later).length < cs.length := by
          have hle := Text.length_dropWhile_le parameter.covers more
          have hlength := congrArg List.length happend
          have hfront : front.length = text.toList.length := by rw [← hfront, List.length_map]
          have hpos := List.length_pos_of_mem (List.mem_of_getLast? (getLast?_mark htext).1)
          rw [hmore] at hle
          rw [List.length_append] at hlength
          omega
        obtain ⟨out, hout⟩ := ih (d :: later).length (hlength ▸ hshorter) hinside rfl
        refine ⟨front ++ placeholder ++ out, fun rest hrest => ?_⟩
        rw [Rule.apply_of_secret (hsecret rest hrest), List.dropWhile_append, hmore]
        simp only [List.isEmpty_cons, Bool.false_eq_true, if_false]
        rw [hout rest hrest, List.append_assoc (front ++ placeholder)]

end Redaction
end RequestFlow
