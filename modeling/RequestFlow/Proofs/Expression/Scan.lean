import RequestFlow.Expression.Basic

/-!
# What a scan passes over

The search for an operator goes over a text character by character, and what it finds depends on
what is open. A text that closes what it opens, and that has the operator in quotes and brackets
only, is passed over whatever stands behind it. Texts of that kind are put together into longer
ones, and what is cut at an operator between them is the texts themselves.

* `Passes`: from what is open before a text to what is open after it;
* `Exposed`: where an operator is found, as a place in the text;
* `Hides`: nothing is found in a text that is so many brackets deep, and nothing stays open;
* `hides_quoted`, `hides_bracketed`, `hides_spaced`, `Hides.marked`: the ways to put texts together;
* `Terms.split`: what is split at an operator is the terms that it stands between;
* `Balanced.group?`: a balanced text in round brackets is a group.
-/

namespace RequestFlow

open Text

namespace Expression

/-! ## Passing over a text -/

/-- From `s` a scan goes through the text to `t` without finding the operator. -/
def Passes (op : Operator) (s : Scan) (cs : List Char) (t : Scan) : Prop :=
  ∀ tail, cut op s (cs ++ tail) = (cut op t tail).map fun parts => (cs ++ parts.1, parts.2)

section Passes

variable {op : Operator} {s t u : Scan} {as bs cs : List Char} {c : Char}

theorem Passes.nil : Passes op s [] s := by
  intro tail
  simp

theorem Passes.append (ha : Passes op s as t) (hb : Passes op t bs u) :
    Passes op s (as ++ bs) u := by
  intro tail
  rw [List.append_assoc, ha, hb, Option.map_map]
  simp [Function.comp_def]

theorem Passes.cons (hc : Passes op s [c] t) (hs : Passes op t cs u) : Passes op s (c :: cs) u :=
  hc.append hs

theorem passes_char (h : ∀ rest, (s.outside && startsWith op (c :: rest)) = false) :
    Passes op s [c] (s.step c) := by
  intro tail
  simp [cut, h]

theorem Passes.cut_eq_none (h : Passes op .start cs t) : cut op .start cs = none := by
  simpa [cut] using h []

theorem Passes.cut_eq (h : Passes op .start cs .start) (rest : List Char) :
    cut op .start (cs ++ op.symbol.1 :: op.symbol.2 :: rest) = some (cs, rest) := by
  rw [h]
  simp [cut, startsWith, Scan.outside, Scan.start]

end Passes

/-! ## Operators at the top level -/

section Exposed

variable {op : Operator} {s : Scan} {cs : List Char}

theorem startsWith_iff : startsWith op cs = true ↔
    ∃ rest, cs = op.symbol.1 :: op.symbol.2 :: rest := by
  match cs with
  | [] => simp [startsWith]
  | [_] => simp [startsWith]
  | a :: b :: rest => simp [startsWith]

/-- The operator stands somewhere in the text, and there the scan is outside quotes and brackets. -/
def Exposed (op : Operator) (s : Scan) (cs : List Char) : Prop :=
  ∃ front rest, cs = front ++ op.symbol.1 :: op.symbol.2 :: rest ∧
    (front.foldl Scan.step s).outside = true

theorem cut_isSome_iff : (cut op s cs).isSome = true ↔ Exposed op s cs := by
  induction cs generalizing s with
  | nil =>
    refine iff_of_false (by simp [cut]) ?_
    rintro ⟨front, rest, heq, -⟩
    simp at heq
  | cons c cs ih =>
    rw [cut]
    split
    · rename_i hfound
      obtain ⟨houtside, hstarts⟩ := (Bool.and_eq_true _ _).mp hfound
      obtain ⟨rest, heq⟩ := startsWith_iff.1 hstarts
      exact iff_of_true rfl ⟨[], rest, heq, houtside⟩
    · rename_i hfound
      rw [Option.isSome_map, ih]
      constructor
      · rintro ⟨front, rest, rfl, houtside⟩
        exact ⟨c :: front, rest, rfl, houtside⟩
      · rintro ⟨front, rest, heq, houtside⟩
        cases front with
        | nil =>
          refine absurd ?_ hfound
          rw [startsWith_iff.2 ⟨rest, heq⟩, Bool.and_true]
          exact houtside
        | cons d front =>
          obtain ⟨rfl, rfl⟩ := List.cons.inj heq
          exact ⟨front, rest, rfl, houtside⟩

theorem cut_eq_none_iff : cut op s cs = none ↔ ¬ Exposed op s cs := by
  rw [← cut_isSome_iff]
  simp

end Exposed

/-! ## Hiding an operator -/

/-- The operator is not found in the text, so many brackets deep, and nothing stays open. -/
def Hides (op : Operator) (depth : Nat) (cs : List Char) : Prop :=
  Passes op ⟨none, depth⟩ cs ⟨none, depth⟩

/-- A character that neither opens nor closes anything. -/
def isNeutral (c : Char) : Bool := !(Scan.isQuote c || Scan.opens c || Scan.closes c)

section Hides

variable {op other : Operator} {depth : Nat} {as bs cs body : List Char} {a b c q : Char}

theorem startsWith_of_ne (h : c ≠ op.symbol.1) (rest : List Char) :
    startsWith op (c :: rest) = false := by
  cases rest <;> simp [startsWith, h]

theorem Hides.append (ha : Hides op depth as) (hb : Hides op depth bs) :
    Hides op depth (as ++ bs) :=
  Passes.append ha hb

theorem Hides.cons (hc : Hides op depth [c]) (hs : Hides op depth cs) :
    Hides op depth (c :: cs) :=
  Passes.cons hc hs

theorem hides_of_neutral (hc : isNeutral c = true)
    (h : ∀ rest, depth = 0 → startsWith op (c :: rest) = false) : Hides op depth [c] := by
  have hstep : (Scan.step ⟨none, depth⟩ c) = ⟨none, depth⟩ := by
    simp only [isNeutral, Bool.not_eq_true', Bool.or_eq_false_iff] at hc
    simp [Scan.step, hc]
  unfold Hides
  conv => arg 4; rw [← hstep]
  refine passes_char fun rest => ?_
  rcases Nat.eq_zero_or_pos depth with hd | hd
  · simp [h rest hd]
  · simp [Scan.outside, Nat.ne_of_gt hd]

theorem hides_char (hc : isNeutral c = true) (h : 0 < depth ∨ c ≠ op.symbol.1) :
    Hides op depth [c] := by
  refine hides_of_neutral hc fun rest hd => startsWith_of_ne ?_ rest
  exact h.resolve_left (by omega)

theorem hides_of_all (hn : ∀ c ∈ cs, isNeutral c = true)
    (h : 0 < depth ∨ ∀ c ∈ cs, c ≠ op.symbol.1) : Hides op depth cs := by
  induction cs with
  | nil => exact Passes.nil
  | cons c cs ih =>
    refine Hides.cons (hides_char (hn c (by simp)) (h.imp_right fun h => h c (by simp))) ?_
    exact ih (fun d hd => hn d (by simp [hd])) (h.imp_right fun h d hd => h d (by simp [hd]))

/-- Between quotes the scan waits for the quote that opened them. -/
theorem passes_body (hq : q ∉ body) : Passes op ⟨some q, depth⟩ body ⟨some q, depth⟩ := by
  induction body with
  | nil => exact Passes.nil
  | cons c body ih =>
    simp only [List.mem_cons, not_or] at hq
    have hstep : (Scan.step ⟨some q, depth⟩ c) = ⟨some q, depth⟩ := by
      simp [Scan.step, Ne.symm hq.1]
    have hc : Passes op ⟨some q, depth⟩ [c] (Scan.step ⟨some q, depth⟩ c) :=
      passes_char fun rest => by simp [Scan.outside]
    rw [hstep] at hc
    exact hc.cons (ih hq.2)

theorem hides_quoted (hm : Scan.isQuote q = true) (hq : q ∉ body) :
    Hides op depth (q :: (body ++ [q])) := by
  have hsymbol : q ≠ op.symbol.1 := by
    rintro rfl
    cases op <;> exact absurd hm (by decide)
  have hopen : Passes op ⟨none, depth⟩ [q] (Scan.step ⟨none, depth⟩ q) :=
    passes_char fun rest => by simp [startsWith_of_ne hsymbol]
  have hclose : Passes op ⟨some q, depth⟩ [q] (Scan.step ⟨some q, depth⟩ q) :=
    passes_char fun rest => by simp [Scan.outside]
  simp only [Scan.step, hm, if_true] at hopen hclose
  exact hopen.cons ((passes_body hq).append hclose)

theorem hides_bracketed (ha : Scan.opens a = true) (hb : Scan.closes b = true)
    (h : Hides op (depth + 1) cs) : Hides op depth (a :: (cs ++ [b])) := by
  have haq : Scan.isQuote a = false := by
    simp only [Scan.opens, Bool.or_eq_true, beq_iff_eq] at ha
    rcases ha with (rfl | rfl) | rfl <;> decide
  have hbq : Scan.isQuote b = false ∧ Scan.opens b = false := by
    simp only [Scan.closes, Bool.or_eq_true, beq_iff_eq] at hb
    rcases hb with (rfl | rfl) | rfl <;> decide
  have hsymbol : a ≠ op.symbol.1 := by
    rintro rfl
    cases op <;> exact absurd ha (by decide)
  have hopen : Passes op ⟨none, depth⟩ [a] (Scan.step ⟨none, depth⟩ a) :=
    passes_char fun rest => by simp [startsWith_of_ne hsymbol]
  have hclose : Passes op ⟨none, depth + 1⟩ [b] (Scan.step ⟨none, depth + 1⟩ b) :=
    passes_char fun rest => by simp [Scan.outside]
  simp only [Scan.step, haq, ha, hbq, hb, if_true, Bool.false_eq_true, if_false,
    Nat.add_sub_cancel] at hopen hclose
  exact hopen.cons (Passes.append h hclose)

/-- Two texts with an operator between them and a space on either side of it. -/
def spaced (op : Operator) (left right : List Char) : List Char :=
  left ++ ' ' :: op.symbol.1 :: op.symbol.2 :: ' ' :: right

theorem hides_spaced (ha : Hides op depth as) (hb : Hides op depth bs)
    (h : 0 < depth ∨ other.symbol.1 ≠ op.symbol.1 ∧ other.symbol.2 ≠ op.symbol.1) :
    Hides op depth (spaced other as bs) := by
  have hspace : Hides op depth [' '] :=
    hides_char (by decide) (.inr (by cases op <;> decide))
  have hfirst : Hides op depth [other.symbol.1] :=
    hides_char (by cases other <;> decide) (h.imp_right And.left)
  have hsecond : Hides op depth [other.symbol.2] :=
    hides_char (by cases other <;> decide) (h.imp_right And.right)
  exact ha.append (hspace.cons (hfirst.cons (hsecond.cons (hspace.cons hb))))

theorem Hides.cut_spaced (ha : Hides op 0 as) :
    cut op .start (spaced op as bs) = some (as ++ [' '], ' ' :: bs) := by
  have hspace : Hides op 0 [' '] :=
    hides_char (by decide) (.inr (by cases op <;> decide))
  have h := (ha.append hspace).cut_eq (' ' :: bs)
  rwa [List.append_assoc] at h

end Hides

/-! ## The ends of a text -/

/-- The text begins and ends with characters that are not blank, and it does not begin with the
second half of a comparison. -/
structure Framed (cs : List Char) : Prop where
  head : ∃ c rest, cs = c :: rest ∧ isBlank c = false ∧ c ≠ '='
  last : ∃ front c, cs = front ++ [c] ∧ isBlank c = false

section Framed

variable {op : Operator} {depth : Nat} {as bs cs : List Char}

theorem Framed.ne_nil (h : Framed cs) : cs ≠ [] := by
  obtain ⟨c, rest, rfl, -⟩ := h.head
  simp

theorem trim_framed (h : Framed cs) (ha : ∀ c ∈ as, isBlank c = true)
    (hb : ∀ c ∈ bs, isBlank c = true) : trim (as ++ (cs ++ bs)) = cs := by
  have hstart : trimStart (as ++ (cs ++ bs)) = cs ++ bs := by
    obtain ⟨c, rest, rfl, hc, -⟩ := h.head
    rw [trimStart, List.dropWhile_append_of_pos ha, List.cons_append, List.dropWhile_cons, hc]
    rfl
  obtain ⟨front, c, rfl, hc⟩ := h.last
  have hb' : ∀ c ∈ bs.reverse, isBlank c = true := fun c hc => hb c (List.mem_reverse.1 hc)
  rw [trim, hstart, trimEnd, List.reverse_append, List.dropWhile_append_of_pos hb',
    List.reverse_append, List.reverse_singleton, List.singleton_append, List.dropWhile_cons, hc]
  simp

theorem blank_space : ∀ c ∈ [' '], isBlank c = true := List.forall_mem_singleton.2 (by decide)

theorem Framed.trim_eq (h : Framed cs) : trim cs = cs := by
  simpa using @trim_framed [] [] cs h (by simp) (by simp)

theorem Framed.spaced (ha : Framed as) (hb : Framed bs) : Framed (spaced op as bs) := by
  obtain ⟨c, rest, rfl, hc⟩ := ha.head
  obtain ⟨front, d, rfl, hd⟩ := hb.last
  refine ⟨⟨c, _, rfl, hc⟩, ⟨c :: rest ++ ' ' :: op.symbol.1 :: op.symbol.2 :: ' ' :: front, d, ?_, hd⟩⟩
  simp [Expression.spaced]

theorem Framed.enclosed {a b : Char} (ha : isBlank a = false ∧ a ≠ '=') (hb : isBlank b = false) :
    Framed (a :: (cs ++ [b])) :=
  ⟨⟨a, cs ++ [b], rfl, ha⟩, ⟨a :: cs, b, rfl, hb⟩⟩

/-- An exclamation mark begins no operator where no `=` follows it. -/
theorem Hides.marked (h : Hides op depth cs) (hf : Framed cs) : Hides op depth ('!' :: cs) := by
  intro tail
  have hstep : Scan.step ⟨none, depth⟩ '!' = ⟨none, depth⟩ := rfl
  have hmark : startsWith op ('!' :: (cs ++ tail)) = false := by
    obtain ⟨c, rest, rfl, -, hc⟩ := hf.head
    cases op <;> simp [startsWith, Operator.symbol, hc]
  rw [List.cons_append, cut, hmark, Bool.and_false, hstep, h]
  simp [Function.comp_def]

theorem Framed.marked (h : Framed cs) : Framed ('!' :: cs) := by
  obtain ⟨front, d, rfl, hd⟩ := h.last
  exact ⟨⟨'!', _, rfl, by decide, by decide⟩, ⟨'!' :: front, d, rfl, hd⟩⟩

end Framed

/-! ## Terms between operators -/

/-- The text is the terms, with the operator between them. -/
inductive Terms (op : Operator) : List Char → List (List Char) → Prop where
  | one {cs : List Char} (hides : Hides op 0 cs) (framed : Framed cs) : Terms op cs [cs]
  | more {cs others : List Char} {parts : List (List Char)} (hides : Hides op 0 cs)
    (framed : Framed cs) (rest : Terms op others parts) :
    Terms op (spaced op cs others) (cs :: parts)

section Terms

variable {op : Operator} {cs lead : List Char} {parts : List (List Char)}

theorem Terms.framed (h : Terms op cs parts) : ∀ part ∈ parts, Framed part := by
  induction h with
  | one _ hf => simpa using hf
  | more _ hf _ ih =>
    intro part hpart
    rcases List.mem_cons.1 hpart with rfl | hpart
    · exact hf
    · exact ih part hpart

/-- A text is split into its terms, the blanks around them apart. -/
theorem Terms.split (h : Terms op cs parts) (hl : Hides op 0 lead)
    (hb : ∀ c ∈ lead, isBlank c = true) : (split op (lead ++ cs)).map trim = parts := by
  induction h generalizing lead with
  | one hides hf =>
    rw [Expression.split]
    split
    · simpa using @trim_framed lead [] _ hf hb (by simp)
    · rename_i hcut
      rw [(hl.append hides).cut_eq_none] at hcut
      cases hcut
  | @more cs others parts hides hf rest ih =>
    have hspace : Hides op 0 [' '] :=
      hides_char (by decide) (.inr (by cases op <;> decide))
    have hcut := @Hides.cut_spaced op (lead ++ cs) others (hl.append hides)
    have hspaced : lead ++ spaced op cs others = spaced op (lead ++ cs) others := by
      simp [spaced]
    rw [hspaced, Expression.split]
    split
    · rename_i hnone
      rw [hnone] at hcut
      cases hcut
    · rename_i before after hsome
      cases hsome.symm.trans hcut
      have hfirst : trim (lead ++ (cs ++ [' '])) = cs := trim_framed hf hb blank_space
      have hrest : (Expression.split op ([' '] ++ others)).map trim = parts := ih hspace blank_space
      rw [List.map_cons, List.append_assoc, hfirst]
      exact congrArg (cs :: ·) hrest

end Terms

/-! ## Groups -/

/-- Round brackets in the text, those in quotes included, belong to each other. -/
def Balanced (cs : List Char) : Prop :=
  ∀ depth tail, groupDepth depth (cs ++ tail) = groupDepth depth tail

section Balanced

variable {as bs cs : List Char}

theorem Balanced.append (ha : Balanced as) (hb : Balanced bs) : Balanced (as ++ bs) := by
  intro depth tail
  rw [List.append_assoc, ha, hb]

theorem balanced_of_not_mem (ho : '(' ∉ cs) (hc : ')' ∉ cs) : Balanced cs := by
  intro depth tail
  induction cs with
  | nil => rfl
  | cons c cs ih =>
    simp only [List.mem_cons, not_or] at ho hc
    rw [List.cons_append, groupDepth, if_neg (Ne.symm ho.1), if_neg (Ne.symm hc.1)]
    exact ih ho.2 hc.2

theorem Balanced.grouped (h : Balanced cs) : Balanced ('(' :: (cs ++ [')'])) := by
  intro depth tail
  have hclose : groupDepth (depth + 1) (')' :: tail) = groupDepth depth tail := by
    simp [groupDepth]
  rw [List.cons_append, groupDepth, if_pos rfl, List.append_assoc, h]
  exact hclose

theorem Balanced.spaced {op : Operator} (ha : Balanced as) (hb : Balanced bs) :
    Balanced (spaced op as bs) := by
  have hop : Balanced [' ', op.symbol.1, op.symbol.2, ' '] :=
    balanced_of_not_mem (by cases op <;> decide) (by cases op <;> decide)
  exact ha.append (hop.append hb)

theorem Balanced.group? (h : Balanced cs) : group? ('(' :: (cs ++ [')'])) = some cs := by
  have hdepth : groupDepth 0 cs = some 0 := by simpa [groupDepth] using h 0 []
  simp [Expression.group?, hdepth]

end Balanced

end Expression

end RequestFlow
