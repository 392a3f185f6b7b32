import RequestFlow.Proofs.Redaction

/-!
# Redaction comes to rest

What a rule leaves behind a mark is the placeholder or nothing of a secret. No other rule brings
back a secret behind a mark of this one: marks and placeholder have no part in common, so that every
mark in the outcome stood in the text as well, with the same character after it unless that is the
placeholder. And where all marks are in this state, nothing is left to replace.

* `Rule.Settled`: the state of a text in which a rule has nothing left to replace;
* `Rule.starts_apply`: how the outcome of a rule begins;
* `Rule.settled_apply`, `Rule.Settled.apply`: a rule leaves a text settled, and others keep it so;
* `Rule.apply_of_settled`: a settled text stays as it is;
* `redact_settled`: redaction is complete, is done once for all, and touches no text without marks.
-/

namespace RequestFlow

namespace Redaction

namespace Rule

/-- The text reads as a mark of the rule. -/
def IsMark (rule : Rule) (front : List Char) : Prop :=
  ∃ mark ∈ rule.marks, front.map foldLetter = mark.toList

/-- The text does not begin with a character of a secret. -/
def Clears (rule : Rule) (cs : List Char) : Prop := cs.head?.any rule.covers = false

/-- Wherever a mark stands in the text, nothing of a secret follows it but the placeholder, with
nothing of a secret after that. -/
def Settled (rule : Rule) (cs : List Char) : Prop :=
  ∀ front rest, front ++ rest <:+ cs → rule.IsMark front → ¬ rule.Clears rest →
    ∃ after, rest = placeholder ++ after ∧ rule.Clears after

/-- What the laws of a rule rest on: its marks have no end in common with the placeholder, none
stands inside another, and the placeholder is a secret as a whole or does not begin as one. -/
structure Proper (rule : Rule) : Prop where
  left : ∀ mark ∈ rule.marks, '<' ∉ mark.toList
  right : ∀ mark ∈ rule.marks, '>' ∉ mark.toList
  outside : ∀ mark ∈ rule.marks, ¬ mark.toList <:+: placeholder
  alone : ∀ mark ∈ rule.marks, ∀ other ∈ rule.marks, ¬ mark.toList <:+: other.toList.dropLast
  whole : (∀ c ∈ placeholder, rule.covers c = true) ∨ rule.covers '<' = false

/-- No mark of the one rule is a part of a mark of the other. -/
def Apart (rule other : Rule) : Prop :=
  ∀ mark ∈ rule.marks, ∀ strange ∈ other.marks,
    ¬ mark.toList <:+: strange.toList ∧ ¬ strange.toList <:+: mark.toList

variable {rule other : Rule} {cs front rest : List Char}

/-! ## Marks -/

theorem Settled.of_suffix {later : List Char} (h : rule.Settled cs) (hsuffix : later <:+ cs) :
    rule.Settled later :=
  fun front rest hoccurs => h front rest (hoccurs.trans hsuffix)

theorem settled_nil (rule : Rule) : rule.Settled [] := by
  intro front rest hoccurs _ hcovered
  rw [List.suffix_nil, List.append_eq_nil_iff] at hoccurs
  rw [hoccurs.2] at hcovered
  exact absurd rfl hcovered

theorem isMark_of_secret (h : rule.secret? cs = some (front, rest)) : rule.IsMark front :=
  (of_mark? (Option.filter_eq_some_iff.1 h).1).2

theorem not_clears_of_secret (h : rule.secret? cs = some (front, rest)) : ¬ rule.Clears rest := by
  have hcovered : rest.head?.any rule.covers = true := (Option.filter_eq_some_iff.1 h).2
  simp [Clears, hcovered]

theorem IsMark.left (h : rule.IsMark front) (hproper : rule.Proper) : '<' ∉ front := by
  obtain ⟨mark, hmem, hmark⟩ := h
  intro hsign
  refine hproper.left mark hmem ?_
  rw [← hmark]
  exact List.mem_map_of_mem hsign

theorem IsMark.right (h : rule.IsMark front) (hproper : rule.Proper) : '>' ∉ front := by
  obtain ⟨mark, hmem, hmark⟩ := h
  intro hsign
  refine hproper.right mark hmem ?_
  rw [← hmark]
  exact List.mem_map_of_mem hsign

theorem IsMark.outside (h : rule.IsMark front) (hproper : rule.Proper) :
    ¬ front <:+: placeholder := by
  obtain ⟨mark, hmem, hmark⟩ := h
  intro hinside
  refine hproper.outside mark hmem ?_
  rw [← hmark]
  exact hinside.map foldLetter

theorem IsMark.ne_nil (h : rule.IsMark front) (hproper : rule.Proper) : front ≠ [] := by
  rintro rfl
  exact h.outside hproper (List.nil_infix)

/-- A mark stands in another only at its end. -/
theorem IsMark.at_end {mark more : List Char} (h : rule.IsMark mark) (hproper : rule.Proper)
    (hfront : rule.IsMark front) (hoccurs : mark ++ more <:+ front) : more = [] := by
  by_contra hmore
  obtain ⟨text, hmem, htext⟩ := h
  obtain ⟨whole, hwhole, hfold⟩ := hfront
  obtain ⟨before, rfl⟩ := hoccurs
  refine hproper.alone text hmem whole hwhole ?_
  rw [← htext, ← hfold, ← List.map_dropLast, ← List.append_assoc,
    List.dropLast_append_of_ne_nil hmore]
  exact (List.infix_append before mark more.dropLast).map foldLetter

/-- The mark at the front of a text is found. -/
theorem IsMark.mark?_append (h : rule.IsMark front) (hproper : rule.Proper) (rest : List Char) :
    rule.mark? (front ++ rest) = some (front, rest) := by
  cases hfound : rule.mark? (front ++ rest) with
  | none =>
    obtain ⟨mark, hmem, hmark⟩ := h
    rw [Rule.mark?, List.findSome?_eq_none_iff] at hfound
    cases (splitMark_of_map hmark rest).symm.trans (hfound mark hmem)
  | some split =>
    obtain ⟨found, more⟩ := split
    obtain ⟨happend, hmark⟩ := of_mark? hfound
    have hfoundMark : rule.IsMark found := hmark
    -- Of two marks at one place the shorter one would stand inside the longer one.
    rcases List.append_eq_append_iff.1 happend with ⟨gap, rfl, rfl⟩ | ⟨gap, rfl, rfl⟩
    · rw [hfoundMark.at_end hproper h (List.suffix_refl _), List.append_nil, List.nil_append]
    · rw [h.at_end hproper hfoundMark (List.suffix_refl _), List.append_nil, List.nil_append]

/-- Behind a mark at which there is no secret, nothing of one follows. -/
theorem IsMark.clears (h : rule.IsMark front) (hproper : rule.Proper)
    (hnone : rule.secret? (front ++ rest) = none) : rule.Clears rest := by
  rw [secret?_eq, h.mark?_append hproper] at hnone
  simpa [Option.filter_some, Clears] using hnone

/-! ## The outcome of a rule -/

/-- No mark begins in the placeholder. -/
theorem IsMark.not_inside {suffix more after : List Char} (h : rule.IsMark front)
    (hproper : rule.Proper) (hsuffix : suffix <:+ placeholder) (hne : suffix ≠ []) :
    front ++ more ≠ suffix ++ after := by
  intro heq
  rcases List.append_eq_append_iff.1 heq with ⟨gap, hgap, -⟩ | ⟨gap, hgap, -⟩
  · refine h.outside hproper ?_
    rw [hgap] at hsuffix
    exact (List.prefix_append front gap).isInfix.trans hsuffix.isInfix
  · refine h.right hproper ?_
    have hlast : suffix.getLast hne = '>' := by
      rw [hsuffix.getLast hne]
      rfl
    rw [hgap, ← hlast]
    exact List.mem_append_left gap (List.getLast_mem hne)

theorem apply_placeholder (hproper : rule.Proper) (rest : List Char) :
    rule.apply (placeholder ++ rest) = placeholder ++ rule.apply rest := by
  refine apply_of_still fun suffix hne hsuffix => ?_
  cases hfound : rule.secret? (suffix ++ rest) with
  | none => rfl
  | some split =>
    have hmark := isMark_of_secret hfound
    exact absurd (append_of_secret hfound) (hmark.not_inside hproper hsuffix hne)

theorem head?_apply (hproper : rule.Proper) (cs : List Char) :
    (rule.apply cs).head? = cs.head? := by
  fun_induction apply rule cs with
  | case1 cs front rest hfound =>
    have hne := (isMark_of_secret hfound).ne_nil hproper
    obtain ⟨c, more, rfl⟩ := List.exists_cons_of_ne_nil hne
    rw [← append_of_secret hfound]
    rfl
  | case2 => rfl
  | case3 => rfl

theorem clears_apply (hproper : rule.Proper) (h : other.Clears cs) :
    other.Clears (rule.apply cs) := by
  rw [Clears, head?_apply hproper]
  exact h

theorem clears_dropWhile (rule : Rule) (cs : List Char) :
    rule.Clears (cs.dropWhile rule.covers) := by
  have hhead := List.head?_dropWhile_not rule.covers cs
  cases hdropped : cs.dropWhile rule.covers with
  | nil => rfl
  | cons c rest =>
    rw [hdropped] at hhead
    simpa [Clears] using hhead

/-- A text without the sign that the placeholder begins with is in front of the outcome only if it
is in front of the text; and either what follows it is redacted by itself, or the mark of the first
secret begins in it and goes on for a gap. -/
theorem starts_apply (hplain : '<' ∉ front) (h : rule.apply cs = front ++ rest) :
    (∃ later, cs = front ++ later ∧ rest = rule.apply later) ∨
      ∃ part gap later, part <:+ front ∧ rule.IsMark (part ++ gap) ∧ cs = front ++ gap ++ later ∧
        rest = gap ++ placeholder ++ rule.apply (later.dropWhile rule.covers) := by
  fun_induction apply rule cs generalizing front with
  | case1 cs mark later hfound =>
    have hmark := isMark_of_secret hfound
    have hcs := append_of_secret hfound
    rw [List.append_assoc] at h
    rcases List.append_eq_append_iff.1 h with ⟨gap, hgap, hrest⟩ | ⟨gap, hgap, hrest⟩
    · cases gap with
      | nil =>
        rw [List.append_nil] at hgap
        have hpart : mark <:+ front := by simp [hgap]
        refine .inr ⟨mark, [], later, hpart, ?_, ?_, hrest.symm⟩
        · rwa [List.append_nil]
        · rw [hgap, List.append_nil, hcs]
      | cons c gap =>
        -- The sign would stand in what is in front.
        obtain ⟨rfl, -⟩ := List.cons.inj hrest
        refine absurd ?_ hplain
        rw [hgap]
        exact List.mem_append_right mark List.mem_cons_self
    · refine .inr ⟨front, gap, later, List.suffix_refl _, hgap ▸ hmark, ?_, ?_⟩
      · rw [← hgap, hcs]
      · rw [hrest, List.append_assoc]
  | case2 =>
    obtain ⟨rfl, rfl⟩ := List.append_eq_nil_iff.1 h.symm
    exact .inl ⟨[], rfl, (apply_nil rule).symm⟩
  | case3 c cs hfound ih =>
    cases front with
    | nil => exact .inl ⟨c :: cs, rfl, by rw [apply_cons hfound]; exact h.symm⟩
    | cons d front =>
      rw [List.cons_append] at h
      obtain ⟨rfl, hafter⟩ := List.cons.inj h
      rcases ih (fun hmem => hplain (List.mem_cons_of_mem c hmem)) hafter with
        ⟨later, rfl, hrest⟩ | ⟨part, gap, later, hsuffix, hmark, rfl, hrest⟩
      · exact .inl ⟨later, rfl, hrest⟩
      · exact .inr ⟨part, gap, later, hsuffix.trans (List.suffix_cons c _), hmark, rfl, hrest⟩

/-! ## Settled texts -/

/-- A mark in a text with a placeholder stands before it or after it. -/
theorem IsMark.occurs {mark more after : List Char} (h : rule.IsMark mark) (hproper : rule.Proper)
    (hoccurs : mark ++ more <:+ front ++ placeholder ++ after) :
    mark ++ more <:+ after ∨ ∃ gap, mark ++ gap <:+ front ∧ more = gap ++ placeholder ++ after := by
  obtain ⟨before, heq⟩ := hoccurs
  rw [List.append_assoc front] at heq
  rcases List.append_eq_append_iff.1 heq with ⟨part, hpart, hmore⟩ | ⟨part, -, hmore⟩
  · refine .inr ?_
    rcases List.append_eq_append_iff.1 hmore with ⟨gap, hgap, hrest⟩ | ⟨gap, hgap, hrest⟩
    · refine ⟨gap, ?_, by rw [hrest, List.append_assoc]⟩
      rw [hpart, hgap]
      exact List.suffix_append _ _
    · cases gap with
      | nil =>
        refine ⟨[], ?_, by rw [List.nil_append]; exact hrest.symm⟩
        rw [List.append_nil] at hgap ⊢
        rw [hpart, hgap]
        exact List.suffix_append _ _
      | cons c gap =>
        -- The mark would go on with the sign that the placeholder begins with.
        obtain ⟨rfl, -⟩ := List.cons.inj hrest
        refine absurd ?_ (h.left hproper)
        rw [hgap]
        exact List.mem_append_right part List.mem_cons_self
  · refine .inl ?_
    rcases List.append_eq_append_iff.1 hmore with ⟨gap, -, hafter⟩ | ⟨gap, hgap, hafter⟩
    · rw [hafter]
      exact List.suffix_append _ _
    · by_cases hnil : gap = []
      · rw [hafter, hnil]
        exact List.suffix_refl _
      · have hsuffix : gap <:+ placeholder := by
          rw [hgap]
          exact List.suffix_append _ _
        exact absurd hafter (h.not_inside hproper hsuffix hnil)

/-- What is in front of a placeholder is settled if no mark stands there but at its end. -/
theorem settled_secret {after : List Char} (hproper : rule.Proper)
    (hfront : ∀ mark gap, mark ++ gap <:+ front → rule.IsMark mark → gap = [] ∧ rule.Clears after)
    (h : rule.Settled after) : rule.Settled (front ++ placeholder ++ after) := by
  intro mark more hoccurs hmark hcovered
  rcases hmark.occurs hproper hoccurs with hafter | ⟨gap, hgap, rfl⟩
  · exact h mark more hafter hmark hcovered
  · obtain ⟨rfl, hclears⟩ := hfront mark gap hgap hmark
    exact ⟨after, rfl, hclears⟩

/-- A rule leaves every text settled. -/
theorem settled_apply (hproper : rule.Proper) (cs : List Char) : rule.Settled (rule.apply cs) := by
  fun_induction Rule.apply rule cs with
  | case1 cs front rest hfound ih =>
    have hclears := clears_apply hproper (clears_dropWhile rule rest)
    refine settled_secret hproper (fun mark gap hoccurs hmark => ?_) ih
    exact ⟨hmark.at_end hproper (isMark_of_secret hfound) hoccurs, hclears⟩
  | case2 => exact settled_nil rule
  | case3 c cs hfound ih =>
    intro front rest hoccurs hmark hcovered
    rcases List.suffix_cons_iff.1 hoccurs with heq | hsuffix
    · obtain ⟨d, front, rfl⟩ := List.exists_cons_of_ne_nil (hmark.ne_nil hproper)
      rw [List.cons_append] at heq
      obtain ⟨rfl, hout⟩ := List.cons.inj heq
      have hplain : '<' ∉ front := fun hmem =>
        hmark.left hproper (List.mem_cons_of_mem d hmem)
      rcases starts_apply hplain hout.symm with
        ⟨later, rfl, rfl⟩ | ⟨-, gap, later, -, -, rfl, rfl⟩
      · exact absurd (clears_apply hproper (hmark.clears hproper hfound)) hcovered
      · cases gap with
        | nil =>
          exact ⟨_, rfl, clears_apply hproper (clears_dropWhile rule later)⟩
        | cons e gap =>
          rw [List.append_assoc] at hfound
          exact absurd (hmark.clears hproper hfound) hcovered
    · exact ih front rest hsuffix hmark hcovered

/-- No mark of the one rule stands in a mark of the other. -/
theorem IsMark.apart {mark : List Char} (h : rule.IsMark mark) (hfront : other.IsMark front)
    (hapart : rule.Apart other) : ¬ mark <:+: front ∧ ¬ front <:+: mark := by
  obtain ⟨text, hmem, hmark⟩ := h
  obtain ⟨strange, hstrange, hfold⟩ := hfront
  have hnot := hapart text hmem strange hstrange
  rw [← hmark, ← hfold] at hnot
  exact ⟨fun hinside => hnot.1 (hinside.map foldLetter), fun hinside => hnot.2 (hinside.map foldLetter)⟩

/-- A text that is settled for one rule stays so under another. -/
theorem Settled.apply (h : rule.Settled cs) (hproper : rule.Proper) (hother : other.Proper)
    (hapart : rule.Apart other) : rule.Settled (other.apply cs) := by
  fun_induction Rule.apply other cs with
  | case1 cs front rest hfound ih =>
    have hafter : rest.dropWhile other.covers <:+ cs := by
      rw [← append_of_secret hfound]
      exact (List.dropWhile_suffix _).trans (List.suffix_append front rest)
    refine settled_secret hproper (fun mark gap hoccurs hmark => ?_) (ih (h.of_suffix hafter))
    exact absurd ((List.prefix_append mark gap).isInfix.trans hoccurs.isInfix)
      (hmark.apart (isMark_of_secret hfound) hapart).1
  | case2 => exact settled_nil rule
  | case3 c cs hfound ih =>
    intro front rest hoccurs hmark hcovered
    rcases List.suffix_cons_iff.1 hoccurs with heq | hsuffix
    · obtain ⟨d, front, rfl⟩ := List.exists_cons_of_ne_nil (hmark.ne_nil hproper)
      rw [List.cons_append] at heq
      obtain ⟨rfl, hout⟩ := List.cons.inj heq
      have hplain : '<' ∉ front := fun hmem =>
        hmark.left hproper (List.mem_cons_of_mem d hmem)
      rcases starts_apply hplain hout.symm with
        ⟨later, rfl, rfl⟩ | ⟨part, gap, later, hpart, hstrange, rfl, rfl⟩
      · -- The same mark stood in the text, with the placeholder after it.
        obtain ⟨after, rfl, hclears⟩ := h (d :: front) later (List.suffix_refl _) hmark
          fun hclears => hcovered (clears_apply hother hclears)
        exact ⟨other.apply after, apply_placeholder hother after, clears_apply hother hclears⟩
      · cases gap with
        | nil =>
          rw [List.append_nil] at hstrange
          exact absurd (hpart.trans (List.suffix_cons d front)).isInfix
            (hmark.apart hstrange hapart).2
        | cons e gap =>
          -- So it did here, and the mark of the other rule would go on with the placeholder.
          have hsame : d :: front ++ (e :: gap ++ later) <:+ d :: (front ++ e :: gap ++ later) := by
            rw [List.append_assoc]
            exact List.suffix_refl _
          obtain ⟨after, hplaceholder, -⟩ := h _ _ hsame hmark hcovered
          obtain ⟨rfl, -⟩ := List.cons.inj hplaceholder
          exact absurd (List.mem_append_right part List.mem_cons_self) (hstrange.left hother)
    · exact ih (h.of_suffix (List.suffix_cons c cs)) front rest hsuffix hmark hcovered

/-- In a settled text nothing is left to replace. -/
theorem apply_of_settled (h : rule.Settled cs) (hproper : rule.Proper) : rule.apply cs = cs := by
  fun_induction Rule.apply rule cs with
  | case1 cs front rest hfound ih =>
    have hcs := append_of_secret hfound
    obtain ⟨after, rfl, hclears⟩ := h front rest (hcs ▸ List.suffix_refl _)
      (isMark_of_secret hfound) (not_clears_of_secret hfound)
    rcases hproper.whole with hwhole | hfirst
    · have hdropped : (placeholder ++ after).dropWhile rule.covers = after := by
        rw [List.dropWhile_append_of_pos hwhole]
        cases after with
        | nil => rfl
        | cons c after =>
          have hc : rule.covers c = false := hclears
          rw [List.dropWhile_cons, hc]
          rfl
      have hafter : after <:+ cs := by
        rw [← hcs]
        exact (List.suffix_append placeholder after).trans (List.suffix_append front _)
      rw [hdropped] at ih ⊢
      rw [ih (h.of_suffix hafter), List.append_assoc, hcs]
    · exact absurd hfirst (not_clears_of_secret hfound)
  | case2 => rfl
  | case3 c cs hfound ih => rw [ih (h.of_suffix (List.suffix_cons c cs))]

/-- Rules with no part of a mark in common leave a text settled for all of them. -/
theorem settled_foldl {rules : List Rule} (hproper : ∀ rule ∈ rules, rule.Proper)
    (hapart : rules.Pairwise Apart) (cs : List Char) :
    ∀ rule ∈ rules, rule.Settled (rules.foldl (fun cs rule => rule.apply cs) cs) := by
  have keeps (rule : Rule) (hrule : rule.Proper) (later : List Rule)
      (hlater : ∀ other ∈ later, other.Proper ∧ rule.Apart other) (cs : List Char)
      (h : rule.Settled cs) : rule.Settled (later.foldl (fun cs rule => rule.apply cs) cs) := by
    induction later generalizing cs with
    | nil => exact h
    | cons other later ih =>
      obtain ⟨⟨hother, hfirst⟩, hrest⟩ := List.forall_mem_cons.1 hlater
      exact ih hrest _ (h.apply hrule hother hfirst)
  induction rules generalizing cs with
  | nil => simp
  | cons first later ih =>
    obtain ⟨hfirst, hlater⟩ := List.pairwise_cons.1 hapart
    obtain ⟨hproperFirst, hproperLater⟩ := List.forall_mem_cons.1 hproper
    rw [List.foldl_cons]
    refine List.forall_mem_cons.2 ⟨?_, ih hproperLater hlater _⟩
    exact keeps first hproperFirst later (fun other hother =>
      ⟨hproperLater other hother, hfirst other hother⟩) _ (settled_apply hproperFirst cs)

end Rule

/-! ## The rules of this program -/

theorem proper_header : header.Proper where
  left := by decide
  right := by decide
  outside := by decide +kernel
  alone := by decide +kernel
  whole := .inr (by decide +kernel)

theorem proper_parameter : parameter.Proper where
  left := by decide
  right := by decide
  outside := by decide +kernel
  alone := by decide +kernel
  whole := .inl (List.all_eq_true.1 (by decide))

theorem proper_database : database.Proper where
  left := by decide
  right := by decide
  outside := by decide +kernel
  alone := by decide +kernel
  whole := .inl (List.all_eq_true.1 (by decide))

theorem proper_rules : ∀ rule ∈ rules, rule.Proper := by
  simp only [rules, List.mem_cons, List.not_mem_nil, or_false, forall_eq_or_imp, forall_eq]
  exact ⟨proper_header, proper_parameter, proper_database⟩

theorem apart_rules : rules.Pairwise Rule.Apart := by
  have hparameter : header.Apart parameter := by
    unfold Rule.Apart
    decide +kernel
  have hdatabase : header.Apart database := by
    unfold Rule.Apart
    decide +kernel
  have hboth : parameter.Apart database := by
    unfold Rule.Apart
    decide +kernel
  simp [rules, hparameter, hdatabase, hboth]

theorem foldl_of_fixed {rules : List Rule} {cs : List Char}
    (h : ∀ rule ∈ rules, rule.apply cs = cs) : rules.foldl (fun cs rule => rule.apply cs) cs = cs := by
  induction rules with
  | nil => rfl
  | cons rule later ih =>
    obtain ⟨hrule, hlater⟩ := List.forall_mem_cons.1 h
    rw [List.foldl_cons, hrule, ih hlater]

end Redaction

open Redaction in
/-- Redaction is complete and comes to rest at once. In what it makes of a text, a header, a
parameter and the address of a database are each followed, where anything of a secret follows them
at all, by the placeholder and nothing else of a secret, in whatever case they are written; it is
the same when it is redacted again; and a text that holds none of the marks is left as it is. -/
theorem redact_settled (text : String) :
    redact (redact text) = redact text ∧
      Rule.Settled ⟨["authorization: "], isCredential⟩ (redact text).toList ∧
      Rule.Settled ⟨["key=", "token=", "secret=", "password="],
        fun c => !Text.isBlank c && c != '&'⟩ (redact text).toList ∧
      Rule.Settled ⟨["database_url="], fun c => !Text.isBlank c⟩ (redact text).toList ∧
      ((∀ mark ∈ ["authorization: ", "key=", "token=", "secret=", "password=", "database_url="],
          ¬ mark.toList <:+: text.toList.map foldLetter) → redact text = text) := by
  have hout : (redact text).toList = rules.foldl (fun cs rule => rule.apply cs) text.toList :=
    String.toList_ofList
  have hsettled := Rule.settled_foldl proper_rules apart_rules text.toList
  rw [← hout] at hsettled
  have hagain : ∀ rule ∈ rules, rule.apply (redact text).toList = (redact text).toList :=
    fun rule hrule => Rule.apply_of_settled (hsettled rule hrule) (proper_rules rule hrule)
  refine ⟨?_, hsettled header ?_, hsettled parameter ?_, hsettled database ?_, ?_⟩
  · rw [redact, foldl_of_fixed hagain, String.ofList_toList]
  · simp [rules]
  · simp [rules]
  · simp [rules]
  · intro hnone
    have hfree : ∀ rule ∈ rules, rule.Free text.toList := by
      intro rule hrule mark hmark
      refine hnone mark ?_
      revert mark
      revert rule
      decide
    rw [redact, foldl_of_fixed fun rule hrule => Rule.apply_of_free (hfree rule hrule),
      String.ofList_toList]

end RequestFlow
