import RequestFlow.Proofs.Run.Stages

/-!
# The shape of the results

The results of a run stand in the order of the steps. A step leaves one result, or, where it loops,
one for each of the first items of its loop; the loop is cut short only where the run is still in it
or has ended there. A run keeps to this shape because a result always belongs to the step under way
and to the item that was begun last.

* `Workflow.InOrder`, `Run.InOrder`: the shape;
* `Run.Tally`: the invariant behind it, with the number of items that have been begun and are still
  without a result;
* `Run.Belongs`: what makes a result the next one;
* `Stages.tallied_lead`: rounds, replies and calls to stop keep the invariant.
-/

namespace RequestFlow

/-- The results of the step with an index. -/
def resultsOf (results : List Result) (index : Nat) : List Result :=
  results.filter fun result => result.step = index

/-- What a step leaves, with so many items of a loop left: one result outside of any loop, or one
for each of the first items, in order. A branch is named only by a step without a request part. -/
inductive Step.Yields (step : Step) : List Result → Nat → Prop where
  | single {result : Result} (place : result.position = .none)
      (plain : result.branch = none ∨ step.requestPart? = none) : step.Yields [result] 0
  | items {results : List Result} {left : Nat} (part : step.requestPart?.isSome)
      (begun : results ≠ [])
      (places : results.map Result.position = (List.range' 1 results.length).map fun iteration =>
        ⟨iteration, results.length + left⟩)
      (plain : ∀ result ∈ results, result.branch = none) : step.Yields results left

/-- The results stand in the order of the steps of a workflow. Items are left only of the last step
with a result, and only where that step may be unfinished. -/
structure Workflow.InOrder (workflow : Workflow) (results : List Result)
    (unfinished : Nat → Prop) : Prop where
  first : ∀ result, results.head? = some result → result.step = 0
  ascending : (results.map Result.step).Pairwise (· ≤ ·)
  gapless : ∀ result ∈ results, ∀ index < result.step, ∃ earlier ∈ results, earlier.step = index
  yields : ∀ result ∈ results, ∃ step left, workflow.steps[result.step]? = some step ∧
    step.Yields (resultsOf results result.step) left ∧
    (left ≠ 0 → (∀ other ∈ results, other.step ≤ result.step) ∧ unfinished result.step)

namespace Run

/-- The results of a run on its way: those of the steps before the one under way, and those of the
step under way, which is unfinished while the run is in its loop. -/
structure InOrder (run : Run) : Prop where
  results : run.workflow.InOrder run.results fun index =>
    ∃ loop, run.loop = some loop ∧ loop.step = index
  upTo : ∀ result ∈ run.results, result.step ≤ run.index
  past : ∀ index < run.index, ∃ result ∈ run.results, result.step = index

/-- The results of a run that is over: a step is unfinished where its last result ended the run. -/
def Closed (run : Run) : Prop :=
  run.workflow.InOrder run.results fun index =>
    ∃ last, run.results.getLast? = some last ∧ last.step = index ∧ run.stopsAt last = true

/-! ## The tally of a run -/

/-- The results of the step under way. -/
def own (run : Run) : List Result := resultsOf run.results run.index

/-- The results of the steps before the one under way are complete, and none is further. -/
structure Filed (run : Run) : Prop where
  ascending : (run.results.map Result.step).Pairwise (· ≤ ·)
  upTo : ∀ result ∈ run.results, result.step ≤ run.index
  past : ∀ index < run.index, ∃ step, run.workflow.steps[index]? = some step ∧
    step.Yields (resultsOf run.results index) 0

/-- The results of a step in its loop, all but so many of the items begun. -/
structure Iterates (run : Run) (loop : Loop) (out : Nat) : Prop where
  items : loop.items ≠ []
  part : (run.step?.bind Step.requestPart?).isSome
  count : run.own.length + out = loop.cursor
  places : run.own.map Result.position =
    (List.range' 1 run.own.length).map fun iteration => ⟨iteration, loop.total⟩
  plain : ∀ result ∈ run.own, result.branch = none

/-- The results of a run on its way, with so many items out. -/
structure Tally (run : Run) (out : Nat) : Prop extends run.Filed where
  outside : run.loop = none → run.own = []
  inLoop : ∀ loop, run.loop = some loop → run.Iterates loop out

/-- A result that is the next one of a run. -/
structure Belongs (run : Run) (step : Step) (result : Result) : Prop where
  under : run.step? = some step
  index : result.step = run.index
  plain : result.branch = none ∨ step.requestPart? = none
  outside : run.loop = none → result.position = .none
  inLoop : ∀ loop, run.loop = some loop →
    result.position = ⟨loop.cursor, loop.total⟩ ∧ loop.cursor ≤ loop.total

variable {setting : Setting} {token out : Nat} {run : Run} {step : Step} {result : Result}

theorem resultsOf_append (results : List Result) (index : Nat) :
    resultsOf (results ++ [result]) index =
      resultsOf results index ++ if result.step = index then [result] else [] := by
  unfold resultsOf
  rw [List.filter_append]
  split <;> simp [*]

theorem own_record (h : result.step = run.index) : (run.record result).own = run.own ++ [result] := by
  show resultsOf (run.results ++ [result]) run.index = _
  rw [resultsOf_append, if_pos h]
  rfl

/-- There are no results beyond the step under way. -/
theorem Filed.ahead (h : run.Filed) {index : Nat} (hindex : run.index < index) :
    resultsOf run.results index = [] := by
  refine List.filter_eq_nil_iff.2 fun result hmem => ?_
  have hle := h.upTo result hmem
  simp only [decide_eq_true_eq]
  omega

theorem ne_nil_of_yields {results : List Result} {left : Nat} (h : step.Yields results left) :
    results ≠ [] := by
  cases h with
  | single => simp
  | items _ begun => exact begun

theorem exists_of_resultsOf {results : List Result} {index : Nat}
    (h : resultsOf results index ≠ []) : ∃ result ∈ results, result.step = index := by
  obtain ⟨result, hmem⟩ := List.exists_mem_of_ne_nil _ h
  obtain ⟨hmem, hstep⟩ := List.mem_filter.1 hmem
  exact ⟨result, hmem, of_decide_eq_true hstep⟩

/-- Every step before the one under way has a result. -/
theorem Filed.covered (h : run.Filed) :
    ∀ index < run.index, ∃ result ∈ run.results, result.step = index := by
  intro index hindex
  obtain ⟨step, -, hyields⟩ := h.past index hindex
  exact exists_of_resultsOf (ne_nil_of_yields hyields)

/-- The first result is that of the first step. -/
theorem Filed.first (h : run.Filed) : ∀ result, run.results.head? = some result → result.step = 0 := by
  intro result hhead
  obtain ⟨rest, hresults⟩ := List.head?_eq_some_iff.1 hhead
  have hle := h.upTo result (hresults ▸ List.mem_cons_self)
  by_cases hindex : run.index = 0
  · omega
  · obtain ⟨earlier, hmem, hstep⟩ := h.covered 0 (by omega)
    have hascending := h.ascending
    rw [hresults, List.map_cons, List.pairwise_cons] at hascending
    rw [hresults] at hmem
    rcases List.mem_cons.1 hmem with rfl | hmem
    · exact hstep
    · have hfirst := hascending.1 _ (List.mem_map_of_mem hmem)
      omega

/-- Complete results, and those of the step under way, are in order. -/
theorem Filed.inOrder {unfinished : Nat → Prop} (h : run.Filed)
    (hown : run.own = [] ∨ ∃ step left, run.step? = some step ∧ step.Yields run.own left ∧
      (left ≠ 0 → unfinished run.index)) :
    run.workflow.InOrder run.results unfinished where
  first := h.first
  ascending := h.ascending
  gapless result hmem index hindex :=
    h.covered index (Nat.lt_of_lt_of_le hindex (h.upTo result hmem))
  yields result hmem := by
    rcases Nat.lt_or_eq_of_le (h.upTo result hmem) with hlt | heq
    · obtain ⟨step, hstep, hyields⟩ := h.past result.step hlt
      exact ⟨step, 0, hstep, hyields, fun hne => absurd rfl hne⟩
    · have hmine : result ∈ run.own := List.mem_filter.2 ⟨hmem, decide_eq_true heq⟩
      rcases hown with hnone | ⟨step, left, hstep, hyields, hleft⟩
      · rw [hnone] at hmine
        cases hmine
      · rw [heq]
        exact ⟨step, left, hstep, hyields, fun hne => ⟨h.upTo, hleft hne⟩⟩

/-! ## One more result -/

theorem filed_record (h : run.Filed) (hstep : result.step = run.index) : (run.record result).Filed where
  ascending := by
    show ((run.results ++ [result]).map Result.step).Pairwise (· ≤ ·)
    rw [List.map_append, List.pairwise_append]
    refine ⟨h.ascending, by simp, fun earlier hearlier index hindex => ?_⟩
    obtain ⟨filed, hmem, rfl⟩ := List.mem_map.1 hearlier
    rw [List.map_singleton, List.mem_singleton] at hindex
    rw [hindex, hstep]
    exact h.upTo filed hmem
  upTo := by
    intro filed hmem
    rcases List.mem_append.1 hmem with hmem | hmem
    · exact h.upTo filed hmem
    · rw [List.mem_singleton.1 hmem]
      exact Nat.le_of_eq hstep
  past := by
    intro index hindex
    have hindex : index < run.index := hindex
    show ∃ step, run.workflow.steps[index]? = some step ∧
      step.Yields (resultsOf (run.results ++ [result]) index) 0
    rw [resultsOf_append, if_neg (by omega), List.append_nil]
    exact h.past index hindex

/-- A step that is complete is left for the next one. -/
theorem filed_next {later : Run} (h : run.Filed) (hstep : run.step? = some step)
    (hyields : step.Yields run.own 0) (workflow : later.workflow = run.workflow)
    (results : later.results = run.results) (index : later.index = run.index + 1) :
    later.Filed where
  ascending := results ▸ h.ascending
  upTo filed hmem := by
    rw [results] at hmem
    have hle := h.upTo filed hmem
    omega
  past i hi := by
    rw [workflow, results]
    rcases Nat.lt_or_eq_of_le (Nat.le_of_lt_succ (index ▸ hi)) with hlt | rfl
    · exact h.past i hlt
    · exact ⟨step, hstep, hyields⟩

/-- The next step has no results yet. -/
theorem tally_next {later : Run} (h : run.Filed) (hstep : run.step? = some step)
    (hyields : step.Yields run.own 0) (workflow : later.workflow = run.workflow)
    (results : later.results = run.results) (index : later.index = run.index + 1)
    (loop : later.loop = none) : later.Tally out where
  toFiled := filed_next h hstep hyields workflow results index
  outside _ := by
    show resultsOf later.results later.index = []
    rw [results, index]
    exact h.ahead (Nat.lt_succ_self _)
  inLoop inside hinside := by cases loop.symm.trans hinside

/-- With one more result the loop has its results up to the item that was begun last. -/
theorem iterates_record {loop : Loop} (h : run.Iterates loop 1) (b : run.Belongs step result)
    (hloop : run.loop = some loop) : (run.record result).Iterates loop 0 := by
  have hown := own_record b.index
  have hpart : step.requestPart?.isSome := by
    have hpart := h.part
    rw [b.under] at hpart
    exact hpart
  have hcount := h.count
  refine ⟨h.items, h.part, ?_, ?_, ?_⟩
  · rw [hown, List.length_append]
    exact hcount
  · rw [hown, List.map_append, h.places, List.length_append, List.length_singleton,
      List.range'_concat, List.map_append, List.map_singleton, List.map_singleton,
      (b.inLoop loop hloop).1, ← hcount]
    congr 3
    omega
  · intro filed hmem
    rw [hown] at hmem
    rcases List.mem_append.1 hmem with hmem | hmem
    · exact h.plain filed hmem
    · rw [List.mem_singleton.1 hmem]
      rcases b.plain with hplain | hnone
      · exact hplain
      · rw [hnone] at hpart
        cases hpart

/-- What a loop has brought so far. -/
theorem Iterates.yields {loop : Loop} (h : run.Iterates loop out) (hstep : run.step? = some step)
    (hcursor : loop.cursor ≤ loop.total) (hown : run.own ≠ []) :
    step.Yields run.own (loop.total - run.own.length) := by
  have hpart : step.requestPart?.isSome := by
    have hpart := h.part
    rw [hstep] at hpart
    exact hpart
  have hcount := h.count
  refine .items hpart hown ?_ h.plain
  rw [Nat.add_sub_cancel' (by omega)]
  exact h.places

/-- A result of the step under way leaves the tally even. -/
theorem tally_goOn (h : run.Tally 1) (b : run.Belongs step result) :
    (run.record result).goOn.Tally 0 := by
  have hfiled := filed_record h.toFiled b.index
  unfold goOn
  cases hloop : run.loop with
  | none =>
    have hrecorded : (run.record result).loop = none := hloop
    have hown : (run.record result).own = [result] := by
      rw [own_record b.index, h.outside hloop, List.nil_append]
    rw [hrecorded, if_pos Option.isNone_none]
    refine tally_next hfiled b.under ?_ rfl rfl rfl hloop
    rw [hown]
    exact .single (b.outside hloop) b.plain
  | some loop =>
    have hrecorded : (run.record result).loop = some loop := hloop
    rw [hrecorded, if_neg (by simp)]
    refine ⟨hfiled, fun hnone => (by cases hrecorded.symm.trans hnone), fun inside hinside => ?_⟩
    cases hrecorded.symm.trans hinside
    exact iterates_record (h.inLoop loop hloop) b hloop

/-- A result that ends the run leaves its results in order. -/
theorem closed_record (h : run.Tally 1) (b : run.Belongs step result)
    (hstop : run.stopsAt result = true) : (run.record result).Closed := by
  have hlast : (run.record result).results.getLast? = some result := List.getLast?_concat
  refine (filed_record h.toFiled b.index).inOrder (.inr ?_)
  cases hloop : run.loop with
  | none =>
    have hown : (run.record result).own = [result] := by
      rw [own_record b.index, h.outside hloop, List.nil_append]
    refine ⟨step, 0, b.under, ?_, fun hne => absurd rfl hne⟩
    rw [hown]
    exact .single (b.outside hloop) b.plain
  | some loop =>
    have hiterates := iterates_record (h.inLoop loop hloop) b hloop
    have hown : (run.record result).own ≠ [] := by
      rw [own_record b.index]
      simp
    exact ⟨step, _, b.under, hiterates.yields b.under (b.inLoop loop hloop).2 hown,
      fun _ => ⟨result, hlast, b.index, hstop⟩⟩

/-! ## Rounds -/

/-- The tally has nothing to do with variables, branches, requests and calls to stop. -/
theorem Tally.aside (h : run.Tally out) (branch : Option String) (vars : TextMap)
    (pending : Option Pending) (cancellation : Option Cancellation) :
    Tally { run with branch, vars, pending, cancellation } out :=
  ⟨⟨h.ascending, h.upTo, h.past⟩, h.outside, fun loop hloop =>
    have hin := h.inLoop loop hloop
    ⟨hin.items, hin.part, hin.count, hin.places, hin.plain⟩⟩

/-- Outside of loops no items are out. -/
theorem Tally.free (h : run.Tally 0) (outside : run.loop = none) : run.Tally out :=
  ⟨h.toFiled, h.outside, fun loop hloop => by cases outside.symm.trans hloop⟩

/-- An early result of the step that is tried. -/
theorem belongs_early {position : Position} {branch : Option String} (h : run.Trying step position)
    (plain : branch = run.branch ∨ step.requestPart? = none)
    (early : result.Early { run with branch } position) :
    Belongs { run with branch } step result where
  under := h.under
  index := early.step
  plain := by
    rcases plain with hbranch | hnone
    · exact .inl (early.branch.trans (hbranch.trans h.branch))
    · exact .inr hnone
  outside hloop := early.position.trans (h.outside hloop)
  inLoop loop hloop := by
    obtain ⟨-, -, htotal, hposition, -⟩ := h.inLoop loop hloop
    exact ⟨early.position.trans hposition, htotal⟩

end Run

/-- The tally of a run at each of its stages: an item is out with its request. -/
def Stages.tallied : Stages := ⟨(Run.Tally · 0), (Run.Tally · 1), Run.Closed⟩

namespace Run

variable {setting : Setting} {token out : Nat} {run : Run} {step : Step} {result : Result}

theorem tallied_attempt {position : Position} {attempt : Attempt} (h : run.Trying step position)
    (tally : run.Tally 1) (tried : attempt.From setting token step position run) :
    (attempt.round goOn).Meets .tallied := by
  cases tried with
  | sent branch => exact tally.aside branch _ _ _
  | @settled branch result plain early =>
    have htally : Tally { run with branch } 1 := tally.aside branch _ _ _
    have hbelongs := belongs_early h plain early
    simp only [Attempt.round, settle]
    split
    · rename_i hstop
      exact closed_record htally hbelongs hstop
    · exact tally_goOn htally hbelongs
  | @looping loop outside part place cursor items =>
    have hloop : run.loop = none := by
      refine Option.eq_none_iff_forall_ne_some.2 fun inside hinside => ?_
      obtain ⟨-, hone, -, hposition, -⟩ := h.inLoop inside hinside
      have hcursor := congrArg Position.iteration (hposition.symm.trans outside)
      have hcursor : inside.cursor = 0 := hcursor
      omega
    have hown := tally.outside hloop
    refine ⟨⟨tally.ascending, tally.upTo, tally.past⟩, fun hnone => (by cases hnone), ?_⟩
    rintro _ ⟨⟩
    have hown : own { run with loop := some loop } = [] := hown
    refine ⟨items, ?_, ?_, ?_, ?_⟩
    · show (run.step?.bind Step.requestPart?).isSome
      rw [h.under, Option.bind_some]
      exact part
    · rw [hown, cursor]
      rfl
    · rw [hown]
      rfl
    · rw [hown]
      simp

/-- At its end a loop has brought a result for every item. -/
theorem tally_leaveLoop {loop : Loop} (h : run.Tally 0) (inside : run.loop = some loop)
    (last : loop.total ≤ loop.cursor) (hcursor : loop.cursor ≤ loop.total) :
    run.leaveLoop.Tally 0 := by
  have hiterates := h.inLoop loop inside
  have hcount := hiterates.count
  have hlength : 0 < loop.total := List.length_pos_iff.2 hiterates.items
  have hown : run.own ≠ [] := List.length_pos_iff.1 (by omega)
  obtain ⟨part, hpart⟩ := Option.isSome_iff_exists.1 hiterates.part
  obtain ⟨step, hstep, -⟩ := Option.bind_eq_some_iff.1 hpart
  have hyields := hiterates.yields hstep hcursor hown
  rw [show loop.total - run.own.length = 0 by omega] at hyields
  exact tally_next h.toFiled hstep hyields rfl rfl rfl rfl

/-- Rounds keep the tally, and the last one leaves the results in order. -/
theorem tallied_round (h : run.UnderWay) (tally : run.Tally 0) :
    (run.round setting token).Meets .tallied := by
  have hcanceled : run.isCanceled = false := by simp [isCanceled, h.cancellation]
  have hfrom := from_round setting token hcanceled
  generalize run.round setting token = round at hfrom
  cases hfrom with
  | ended outside => exact tally.toFiled.inOrder (.inl (tally.outside outside))
  | @left loop inside last =>
    exact tally_leaveLoop tally inside (List.getElem?_eq_none_iff.1 last) (h.inLoop loop inside).2.1
  | @astray loop _ inside _ part =>
    have hpart := (tally.inLoop loop inside).part
    rw [part] at hpart
    cases hpart
  | step outside next tried =>
    have htally : Tally { run with branch := none } 1 := (tally.free outside).aside none _ _ _
    exact tallied_attempt (h.trying outside next) htally tried
  | @item loop item _ _ inside next place part tried =>
    have hiterates := tally.inLoop loop inside
    have hbegun : (run.beginItem loop item).Tally 1 := by
      refine ⟨⟨tally.ascending, tally.upTo, tally.past⟩, fun hnone => (by cases hnone), ?_⟩
      rintro _ ⟨⟩
      exact ⟨hiterates.items, hiterates.part, congrArg (· + 1) hiterates.count, hiterates.places,
        hiterates.plain⟩
    exact tallied_attempt (h.trying_item inside next place part) hbegun tried

/-! ## Replies -/

/-- What a reply brings is the next result of the run. -/
theorem AtRest.belongs {requests : RequestIndex} {pending : Pending}
    (h : run.AtRest requests token pending) (result : Result) (index : result.step = pending.step)
    (position : result.position = pending.position) (branch : result.branch = pending.branch)
    (cancellation : Option Cancellation) :
    ∃ step, Belongs { run.taken with cancellation } step result := by
  obtain ⟨step, hunder⟩ : ∃ step, run.step? = some step := ⟨_, List.getElem?_eq_getElem h.index_lt⟩
  refine ⟨step, hunder, index.trans h.step, ?_, fun hloop => position.trans (h.outside hloop),
    fun loop hloop => ?_⟩
  · rcases h.plain with hnone | hpart
    · exact .inl (branch.trans (h.branch.trans hnone))
    · rw [hunder] at hpart
      exact .inr hpart
  · obtain ⟨-, -, htotal, hposition, -⟩ := h.inLoop loop hloop
    exact ⟨position.trans hposition, htotal⟩

end Run

/-- The tally is kept at every stage, and the results are in order in the end. -/
theorem Stages.tallied_lead : tallied.Lead where
  start workflow origin environment vars :=
    ⟨⟨.nil, by rintro _ ⟨⟩, fun _ hlt => (Nat.not_lt_zero _ hlt).elim⟩, fun _ => rfl,
      by rintro _ ⟨⟩⟩
  round h tally := Run.tallied_round h tally
  called cancellation tally := tally.aside _ _ _ cancellation
  canceled cancellation reply reason h tally := by
    obtain ⟨step, hbelongs⟩ := h.belongs (Run.canceledResult _ reply reason) rfl rfl rfl (some cancellation)
    exact Run.closed_record (tally.aside _ _ none (some cancellation)) hbelongs rfl
  stopped h tally _ hstop := by
    obtain ⟨step, hbelongs⟩ := h.belongs (Run.replyResult _ _ _) rfl rfl rfl _
    exact Run.closed_record (tally.aside _ _ none _) hbelongs hstop
  answered h tally := by
    obtain ⟨step, hbelongs⟩ := h.belongs (Run.replyResult _ _ _) rfl rfl rfl _
    exact Run.tally_goOn (tally.aside _ _ none _) hbelongs

/-- The results of a run on its way are in order. -/
theorem Run.Tally.inOrder {run : Run} {out : Nat} (h : run.Tally out)
    (hloop : ∀ loop, run.loop = some loop → loop.step = run.index ∧ loop.cursor ≤ loop.total) :
    run.InOrder := by
  refine ⟨h.toFiled.inOrder ?_, h.upTo, h.covered⟩
  by_cases hown : run.own = []
  · exact .inl hown
  · right
    cases hinside : run.loop with
    | none => exact absurd (h.outside hinside) hown
    | some loop =>
      have hiterates := h.inLoop loop hinside
      obtain ⟨hstep, hcursor⟩ := hloop loop hinside
      obtain ⟨part, hpart⟩ := Option.isSome_iff_exists.1 hiterates.part
      obtain ⟨step, hunder, -⟩ := Option.bind_eq_some_iff.1 hpart
      exact ⟨step, _, hunder, hiterates.yields hunder hcursor hown, fun _ => ⟨loop, rfl, hstep⟩⟩

end RequestFlow
