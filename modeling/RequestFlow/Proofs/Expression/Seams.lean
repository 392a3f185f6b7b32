import RequestFlow.Proofs.Expression.Grouping

/-!
# Where a text is split

A text is split at the first operator at its top level, and what follows is searched anew, as a
text of its own. Nothing is open where an operator is found, so that the new search finds what the
old one would have found had it gone on: the text is split where one pass over the whole of it finds
the operator.

* `sweep`: the places that one pass over a text finds;
* `mem_sweep_iff`: they are those of the operator at the top level, but for the second of two that
  overlap;
* `seams_split`, `intercalate_split`: a text is split at these places and loses nothing else;
* `not_exposed_of_mem_split`: no part has the operator at its own top level;
* `parts?`: the parts as the reader asks for them, with `Splits` for what they are.
-/

namespace RequestFlow

open Text

namespace Expression

/-! ## One pass -/

/-- The places at which one pass over a text finds the operator, the first character being at
`place`. Each character takes the scan one step further, and it never starts again. The second
character of an operator that was found (`within`) begins no other. -/
def sweep (op : Operator) (s : Scan) (within : Bool) (place : Nat) : List Char → List Nat
  | [] => []
  | c :: rest =>
    if !within && s.outside && startsWith op (c :: rest) then
      place :: sweep op (s.step c) true (place + 1) rest
    else sweep op (s.step c) false (place + 1) rest

/-- The operator stands at this place, and there the scan is outside quotes and brackets. -/
def ExposedAt (op : Operator) (s : Scan) (cs : List Char) (place : Nat) : Prop :=
  ∃ front rest, cs = front ++ op.symbol.1 :: op.symbol.2 :: rest ∧ front.length = place ∧
    (front.foldl Scan.step s).outside = true

section

variable {op : Operator} {s : Scan} {before after cs part : List Char} {c : Char} {place : Nat}

theorem eq_start_of_outside (h : s.outside = true) : s = .start := by
  obtain ⟨quote, depth⟩ := s
  simpa [Scan.outside, Scan.start] using h

/-- An operator neither opens nor closes anything. -/
theorem step_symbol (op : Operator) :
    Scan.step .start op.symbol.1 = .start ∧ Scan.step .start op.symbol.2 = .start := by
  cases op <;> decide

/-! ## Cutting once -/

/-- A cut takes the operator out of the text, and nothing else. -/
theorem append_of_cut (h : cut op s cs = some (before, after)) :
    cs = before ++ op.symbol.1 :: op.symbol.2 :: after := by
  induction cs generalizing s before with
  | nil => simp [cut] at h
  | cons c rest ih =>
    rw [cut] at h
    split at h
    · rename_i hfound
      cases h
      obtain ⟨rest, heq⟩ := startsWith_iff.1 ((Bool.and_eq_true ..).mp hfound).2
      cases heq
      rfl
    · obtain ⟨⟨front, rear⟩, hcut, heq⟩ := Option.map_eq_some_iff.1 h
      cases heq
      rw [ih hcut]
      rfl

/-- Before a cut there is no operator at the top level. -/
theorem cut_before (h : cut op s cs = some (before, after)) : cut op s before = none := by
  induction cs generalizing s before with
  | nil => simp [cut] at h
  | cons c rest ih =>
    rw [cut] at h
    split at h
    · cases h
      rfl
    · rename_i hfound
      obtain ⟨⟨front, rear⟩, hcut, heq⟩ := Option.map_eq_some_iff.1 h
      cases heq
      have hnot : ¬ (s.outside && startsWith op (c :: front)) = true := by
        intro hfront
        obtain ⟨houtside, hstarts⟩ := (Bool.and_eq_true ..).mp hfront
        obtain ⟨more, heq⟩ := startsWith_iff.1 hstarts
        have hwhole : startsWith op (c :: rest) = true := by
          refine startsWith_iff.2 ⟨more ++ op.symbol.1 :: op.symbol.2 :: rear, ?_⟩
          rw [append_of_cut hcut, ← List.cons_append, heq]
          rfl
        exact hfound (by rw [houtside, hwhole]; rfl)
      rw [cut, if_neg hnot, ih hcut]
      rfl

theorem sweep_of_uncut (h : cut op s cs = none) (place : Nat) : sweep op s false place cs = [] := by
  induction cs generalizing s place with
  | nil => rfl
  | cons c rest ih =>
    rw [cut] at h
    split at h
    · cases h
    · rename_i hfound
      rw [sweep, Bool.not_false, Bool.true_and, if_neg hfound]
      exact ih (Option.map_eq_none_iff.1 h) (place + 1)

/-- A pass finds the operator where a text is cut first, and goes on behind it with nothing open. -/
theorem sweep_of_cut (h : cut op s cs = some (before, after)) (place : Nat) :
    sweep op s false place cs = (place + before.length) ::
      sweep op .start false (place + before.length + 2) after := by
  induction cs generalizing s before place with
  | nil => simp [cut] at h
  | cons c rest ih =>
    rw [cut] at h
    rw [sweep, Bool.not_false, Bool.true_and]
    split at h
    · rename_i hfound
      rw [if_pos hfound]
      cases h
      obtain ⟨houtside, hstarts⟩ := (Bool.and_eq_true ..).mp hfound
      obtain ⟨rest, heq⟩ := startsWith_iff.1 hstarts
      cases heq
      obtain ⟨hfirst, hsecond⟩ := step_symbol op
      rw [eq_start_of_outside houtside, hfirst, sweep, Bool.not_true, Bool.false_and,
        Bool.false_and, if_neg Bool.false_ne_true, hsecond]
      rfl
    · rename_i hfound
      rw [if_neg hfound]
      obtain ⟨⟨front, rear⟩, hcut, heq⟩ := Option.map_eq_some_iff.1 h
      cases heq
      have hplace : place + 1 + front.length = place + (front.length + 1) := by omega
      rw [ih hcut, hplace]
      rfl

/-! ## The places of a pass -/

theorem mem_sweep_cons {within : Bool} {rest : List Char} {n : Nat} :
    n ∈ sweep op s within place (c :: rest) ↔
      n = place ∧ (!within && s.outside && startsWith op (c :: rest)) = true ∨
        n ∈ sweep op (s.step c) (!within && s.outside && startsWith op (c :: rest)) (place + 1)
          rest := by
  rw [sweep]
  split
  · rename_i hfound
    rw [List.mem_cons, hfound]
    simp
  · rename_i hfound
    rw [eq_false_of_ne_true hfound]
    simp

theorem le_of_mem_sweep {within : Bool} {n : Nat} (h : n ∈ sweep op s within place cs) :
    place ≤ n := by
  induction cs generalizing s within place with
  | nil => cases h
  | cons c rest ih =>
    rcases mem_sweep_cons.1 h with ⟨rfl, -⟩ | h
    · exact Nat.le_refl n
    · exact Nat.le_of_succ_le (ih h)

theorem exposedAt_zero {rest : List Char} :
    ExposedAt op s (c :: rest) 0 ↔ (s.outside && startsWith op (c :: rest)) = true := by
  rw [Bool.and_eq_true, startsWith_iff]
  constructor
  · rintro ⟨front, rear, heq, hfront, houtside⟩
    cases List.length_eq_zero_iff.1 hfront
    exact ⟨houtside, rear, heq⟩
  · rintro ⟨houtside, rear, heq⟩
    exact ⟨[], rear, heq, rfl, houtside⟩

theorem exposedAt_succ {rest : List Char} :
    ExposedAt op s (c :: rest) (place + 1) ↔ ExposedAt op (s.step c) rest place := by
  constructor
  · rintro ⟨front, rear, heq, hfront, houtside⟩
    cases front with
    | nil => cases hfront
    | cons d front =>
      obtain ⟨rfl, rfl⟩ := List.cons.inj heq
      exact ⟨front, rear, rfl, Nat.succ.inj hfront, houtside⟩
  · rintro ⟨front, rear, rfl, rfl, houtside⟩
    exact ⟨c :: front, rear, rfl, rfl, houtside⟩

/-- A pass finds the operator wherever it is at the top level, but for a place right behind one that
it has found. -/
theorem mem_sweep_iff {within : Bool} {n : Nat} :
    place + n ∈ sweep op s within place cs ↔
      ExposedAt op s cs n ∧ (n = 0 → within = false) ∧
        ∀ previous, previous + 1 = n → place + previous ∉ sweep op s within place cs := by
  induction cs generalizing s within place n with
  | nil =>
    refine iff_of_false (by simp [sweep]) ?_
    rintro ⟨⟨front, rest, heq, -⟩, -⟩
    simp at heq
  | cons c rest ih =>
    generalize hfound : (!within && s.outside && startsWith op (c :: rest)) = found
    have hfirst : place ∈ sweep op s within place (c :: rest) ↔ found = true := by
      rw [mem_sweep_cons, hfound]
      refine ⟨fun h => h.elim And.right fun hlater => ?_, fun h => .inl ⟨rfl, h⟩⟩
      exact absurd (le_of_mem_sweep hlater) (Nat.not_succ_le_self place)
    have hlater (k : Nat) : place + (k + 1) ∈ sweep op s within place (c :: rest) ↔
        place + 1 + k ∈ sweep op (s.step c) found (place + 1) rest := by
      have hk : place + (k + 1) = place + 1 + k := by omega
      rw [mem_sweep_cons, hfound, hk]
      exact or_iff_right fun h => absurd h.1 (by omega)
    cases n with
    | zero =>
      rw [Nat.add_zero, hfirst, ← hfound, exposedAt_zero, Bool.and_assoc, Bool.and_eq_true,
        Bool.not_eq_true']
      simp [and_comm]
    | succ n =>
      rw [hlater, ih, exposedAt_succ]
      refine and_congr_right fun _ => ?_
      -- The place before is the first of the whole text or one of the rest.
      cases n with
      | zero =>
        simp [hfirst]
      | succ n =>
        simp [hlater]

example : sweep .or .start false 0 "a||'||'|||b||)||c".toList = [1, 7, 11, 14] := by decide

/-! ## All parts -/

/-- The places between parts that are put together again, the first part being at `place`. -/
def seams (place : Nat) : List (List Char) → List Nat
  | [] => []
  | [_] => []
  | part :: next :: rest =>
    (place + part.length) :: seams (place + part.length + 2) (next :: rest)

theorem split_eq_cons (op : Operator) (cs : List Char) :
    ∃ part rest, split op cs = part :: rest := by
  rw [split_eq]
  cases cut op .start cs <;> exact ⟨_, _, rfl⟩

/-- A text is split where one pass finds the operator. -/
theorem seams_split (op : Operator) (cs : List Char) (place : Nat) :
    seams place (split op cs) = sweep op .start false place cs := by
  fun_induction split op cs generalizing place with
  | case1 cs hcut => exact (sweep_of_uncut hcut place).symm
  | case2 cs before after hcut ih =>
    obtain ⟨part, rest, hparts⟩ := split_eq_cons op after
    rw [sweep_of_cut hcut, ← ih, hparts]
    rfl

/-- The parts of a text with the operator between them are the text. -/
theorem intercalate_split (op : Operator) (cs : List Char) :
    [op.symbol.1, op.symbol.2].intercalate (split op cs) = cs := by
  fun_induction split op cs with
  | case1 cs hcut => simp [List.intercalate]
  | case2 cs before after hcut ih =>
    obtain ⟨part, rest, hparts⟩ := split_eq_cons op after
    rw [hparts] at ih ⊢
    rw [List.intercalate_cons_cons, ih, append_of_cut hcut]
    simp

theorem cut_of_mem_split (h : part ∈ split op cs) : cut op .start part = none := by
  fun_induction split op cs with
  | case1 cs hcut => exact List.mem_singleton.1 h ▸ hcut
  | case2 cs before after hcut ih =>
    rcases List.mem_cons.1 h with rfl | h
    · exact cut_before hcut
    · exact ih h

theorem cut_trim (op : Operator) (cs : List Char) :
    (cut op .start (trim cs)).isSome = (cut op .start cs).isSome := by
  obtain ⟨as, bs, has, hbs, heq⟩ := surrounds_trim cs
  conv => rhs; rw [heq]
  exact (isSome_cut_surrounded has hbs op (trim cs)).symm

/-- No part has the operator at its own top level, with or without the blanks around it. -/
theorem not_exposed_of_mem_split (h : part ∈ split op cs) :
    ¬ Exposed op .start part ∧ ¬ Exposed op .start (trim part) := by
  rw [← cut_isSome_iff, ← cut_isSome_iff, cut_trim, cut_of_mem_split h]
  simp

end

/-! ## The parts as the reader asks for them -/

/-- The parts of a text without the blanks around them, if it has the operator at its top level;
none of them may be blank. -/
def parts? (op : Operator) (cs : List Char) : Except EvalError (Option (List (List Char))) :=
  if (cut op .start cs).isNone then .ok none
  else if ((split op cs).map trim).any List.isEmpty then .error (.missingOperand op)
  else .ok (some ((split op cs).map trim))

/-- Nothing but blanks, or nothing at all. -/
def AllBlank (cs : List Char) : Prop := ∀ c ∈ cs, isBlank c = true

/-- What splitting a text at an operator comes to. -/
structure Splits (op : Operator) (cs : List Char) : Prop where
  /-- There are no parts if and only if the operator is in quotes and brackets only. -/
  absent : parts? op cs = .ok none ↔ ¬ Exposed op .start cs
  /-- Otherwise there are parts, trimmed, if none of them is blank. -/
  present : ∀ parts, parts? op cs = .ok (some parts) ↔
    Exposed op .start cs ∧ (∀ part ∈ split op cs, ¬ AllBlank part) ∧ parts = (split op cs).map trim
  /-- It is an error if one is. -/
  refused : ∀ e, parts? op cs = .error e ↔
    Exposed op .start cs ∧ (∃ part ∈ split op cs, AllBlank part) ∧ e = .missingOperand op
  /-- The text is split where one pass over the whole of it finds the operator. -/
  onePass : seams 0 (split op cs) = sweep op .start false 0 cs
  /-- These are the places of the operator at the top level, but for one right behind another. -/
  places : ∀ place, place ∈ seams 0 (split op cs) ↔
    ExposedAt op .start cs place ∧
      ∀ previous, previous + 1 = place → previous ∉ seams 0 (split op cs)
  /-- With the operator between them the parts are the text again. -/
  joined : [op.symbol.1, op.symbol.2].intercalate (split op cs) = cs
  /-- No part has the operator at its own top level, with or without the blanks around it. -/
  apart : ∀ part ∈ split op cs, ¬ Exposed op .start part ∧ ¬ Exposed op .start (trim part)

theorem any_isEmpty_iff {parts : List (List Char)} :
    (parts.map trim).any List.isEmpty = true ↔ ∃ part ∈ parts, AllBlank part := by
  simp [trim_eq_nil_iff, AllBlank]

theorem splits (op : Operator) (cs : List Char) : Splits op cs := by
  have hexposed : Exposed op .start cs ↔ ¬ (cut op .start cs).isNone = true := by
    rw [← cut_isSome_iff, Option.isNone_iff_eq_none, Option.isSome_iff_ne_none]
  have hnone : (∀ part ∈ split op cs, ¬ AllBlank part) ↔ ¬ ∃ part ∈ split op cs, AllBlank part := by
    simp
  have hpass := seams_split op cs 0
  refine ⟨?_, fun parts => ?_, fun e => ?_, hpass, fun place => ?_, intercalate_split op cs,
    fun part => not_exposed_of_mem_split⟩
  · rw [hexposed, parts?]
    split
    · simp [*]
    · split <;> simp [*]
  · rw [hexposed, hnone, ← any_isEmpty_iff, parts?]
    split
    · simp [*]
    · split <;> simp [*, eq_comm]
  · rw [hexposed, ← any_isEmpty_iff, parts?]
    split
    · simp [*]
    · split <;> simp [*, eq_comm]
  · have hplace := @mem_sweep_iff op .start cs 0 false place
    simpa [hpass] using hplace

end Expression

end RequestFlow
