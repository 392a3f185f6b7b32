import RequestFlow.Proofs.Run.AtRest

/-!
# The course of a run

From one request to the next a run takes one round after the other. Its course lists these rounds,
each beside the run that took it, so that what is said of every state of a run on its way can be
said of the members of a list. None of the rounds changes what the run was started with.

* `Run.course`: the rounds until a request is out or the run is over;
* `Run.mem_course`, `Run.mem_course_of_next`, `Run.advance_induction`: what holds of every member,
  and of the run in the end, from what a round preserves;
* `Run.course_advance`: the last round of the course is what the run advances to;
* `Run.basis_round`, `Run.basis_advance`, `Run.basis_resume`: what a run was started with stays;
* `Run.plain_round`: no round calls the run to stop.
-/

namespace RequestFlow

/-- The request that a round sends. -/
def Round.dispatch? : Round → Option Dispatch
  | sent _ dispatch _ => some dispatch
  | _ => none

namespace Run

variable {setting : Setting} {token : Nat} {run : Run}

/-- The rounds that a run takes until a request is out or the run is over, each beside the run that
takes it. -/
def course (run : Run) (setting : Setting) (token : Nat) : List (Run × Round) :=
  match _h : run.round setting token with
  | .next next _ => (run, run.round setting token) :: next.course setting token
  | _ => [(run, run.round setting token)]
termination_by run.remaining
decreasing_by exact remaining_lt_of_round (by assumption)

/-- A course begins with the run itself. -/
theorem head_mem_course (run : Run) (setting : Setting) (token : Nat) :
    (run, run.round setting token) ∈ run.course setting token := by
  rw [course]
  split <;> exact List.mem_cons_self

/-- What is kept by rounds that go on holds of every run that takes a round of the course. -/
theorem mem_course_of_next {P : Run → Prop}
    (keeps : ∀ run next notices, P run → run.round setting token = .next next notices → P next)
    (h : P run) {taken : Run × Round} (htaken : taken ∈ run.course setting token) :
    P taken.1 ∧ taken.2 = taken.1.round setting token := by
  fun_induction course run setting token with
  | case1 run next notices hround ih =>
    rcases List.mem_cons.1 htaken with rfl | htaken
    · exact ⟨h, rfl⟩
    · exact ih (keeps run next notices h hround) htaken
  | case2 run =>
    rw [List.mem_singleton.1 htaken]
    exact ⟨h, rfl⟩

/-- What rounds preserve holds of every run that takes a round of the course. -/
theorem mem_course {P : Run → Prop} (keeps : ∀ run, P run → P (run.round setting token).run)
    (h : P run) {taken : Run × Round} (htaken : taken ∈ run.course setting token) :
    P taken.1 ∧ taken.2 = taken.1.round setting token := by
  refine mem_course_of_next (fun run next notices h hround => ?_) h htaken
  have hnext := keeps run h
  rw [hround] at hnext
  exact hnext

/-- The last round of the course is what the run advances to, and the only one that may send. -/
theorem course_advance (run : Run) (setting : Setting) (token : Nat) :
    ∃ before last, run.course setting token = before ++ [last] ∧
      (∀ taken ∈ before, taken.2.dispatch? = none) ∧
      (run.advance setting token).run = last.2.run ∧
      (run.advance setting token).dispatch = last.2.dispatch? := by
  fun_induction course run setting token with
  | case1 run next notices hround ih =>
    obtain ⟨before, last, hcourse, hsilent, hrun, hdispatch⟩ := ih
    refine ⟨(run, run.round setting token) :: before, last, ?_, ?_, ?_, ?_⟩
    · rw [hcourse, List.cons_append]
    · intro taken htaken
      rcases List.mem_cons.1 htaken with rfl | htaken
      · rw [hround]
        rfl
      · exact hsilent taken htaken
    · rw [advance_of_next hround]
      exact hrun
    · rw [advance_of_next hround]
      exact hdispatch
  | case2 run hlast =>
    refine ⟨[], (run, run.round setting token), rfl, by simp, ?_⟩
    cases hround : run.round setting token with
    | next next notices => exact (hlast next notices hround).elim
    | sent =>
      rw [advance_of_sent hround]
      exact ⟨rfl, rfl⟩
    | finished =>
      rw [advance_of_finished hround]
      exact ⟨rfl, rfl⟩

/-- The requests that the rounds of a course send: the one that is out in the end, if any. -/
theorem dispatches_course (run : Run) (setting : Setting) (token : Nat) :
    (run.course setting token).filterMap (fun taken => taken.2.dispatch?) =
      (run.advance setting token).dispatch.toList := by
  obtain ⟨before, last, hcourse, hsilent, -, hdispatch⟩ := course_advance run setting token
  rw [hcourse, hdispatch, List.filterMap_append, List.filterMap_eq_nil_iff.2 hsilent]
  cases hlast : last.2.dispatch? <;> simp [hlast]

/-- The run advances by a last round, of a run of which all holds that rounds preserve. -/
theorem advance_last {P : Run → Prop} (keeps : ∀ run, P run → P (run.round setting token).run)
    (h : P run) : ∃ last, P last ∧
      (run.advance setting token).run = (last.round setting token).run ∧
      (run.advance setting token).dispatch = (last.round setting token).dispatch? := by
  obtain ⟨before, last, hcourse, -, hrun, hdispatch⟩ := course_advance run setting token
  have hlast : last ∈ run.course setting token := by
    rw [hcourse]
    exact List.mem_append_right before (List.mem_singleton_self last)
  obtain ⟨htaken, hround⟩ := mem_course keeps h hlast
  exact ⟨last.1, htaken, hround ▸ hrun, hround ▸ hdispatch⟩

/-- What rounds preserve holds of what the run advances to. -/
theorem advance_induction {P : Run → Prop} (keeps : ∀ run, P run → P (run.round setting token).run)
    (h : P run) : P (run.advance setting token).run := by
  obtain ⟨last, hlast, hrun, -⟩ := advance_last keeps h
  rw [hrun]
  exact keeps last hlast

theorem dispatch_attempt {step : Step} {position : Position} {attempt : Attempt}
    {dispatch : Dispatch} (tried : attempt.From setting token step position run)
    (h : (attempt.round goOn).dispatch? = some dispatch) : dispatch.step = run.index := by
  cases tried with
  | sent =>
    cases h
    rfl
  | looping => cases h
  | settled =>
    simp only [Attempt.round, settle] at h
    split at h <;> cases h

/-- The request that a round sends is of the step under way. -/
theorem dispatch_round {dispatch : Dispatch}
    (h : (run.round setting token).dispatch? = some dispatch) : dispatch.step = run.index := by
  revert h
  refine round_induction (P := fun round => round.dispatch? = some dispatch →
    dispatch.step = run.index) (by rintro ⟨⟩) fun hfrom h => ?_
  cases hfrom with
  | ended => cases h
  | left => cases h
  | astray => cases h
  | step _ _ tried =>
    have hentered := dispatch_attempt tried h
    exact hentered
  | item _ _ _ _ tried =>
    have hbegun := dispatch_attempt tried h
    exact hbegun

/-- No request of an earlier step goes out. -/
theorem dispatch_advance {dispatch : Dispatch}
    (h : (run.advance setting token).dispatch = some dispatch) : run.index ≤ dispatch.step := by
  have keeps (later : Run) (hlater : run.index ≤ later.index) :
      run.index ≤ (later.round setting token).run.index :=
    Nat.le_trans hlater (precedes_round later setting token).index
  obtain ⟨last, hlast, -, hdispatch⟩ := advance_last keeps (Nat.le_refl _)
  rw [dispatch_round (hdispatch.symm.trans h)]
  exact hlast

/-! ## What a run was started with -/

/-- What a run was started with. -/
def basis (run : Run) : Workflow × Origin × String × TextMap :=
  (run.workflow, run.origin, run.environment, run.environmentVars)

theorem workflow_of_basis {run later : Run} (same : later.basis = run.basis) :
    later.workflow = run.workflow :=
  congrArg Prod.fst same

theorem origin_of_basis {run later : Run} (same : later.basis = run.basis) :
    later.origin = run.origin :=
  congrArg (fun basis => basis.2.1) same

theorem basis_goOn (run : Run) : run.goOn.basis = run.basis := by
  unfold goOn
  split <;> rfl

theorem basis_attempt {step : Step} {position : Position} {attempt : Attempt}
    (h : attempt.From setting token step position run) :
    (attempt.round goOn).run.basis = run.basis := by
  cases h with
  | sent => rfl
  | looping => rfl
  | settled =>
    exact settled_induction (P := fun later => later.basis = run.basis) rfl (basis_goOn _).trans

theorem basis_round (run : Run) (setting : Setting) (token : Nat) :
    (run.round setting token).run.basis = run.basis := by
  refine round_induction (P := fun round => round.run.basis = run.basis) rfl fun hfrom => ?_
  cases hfrom with
  | ended => rfl
  | left => rfl
  | astray => rfl
  | step _ _ tried =>
    have hentered := basis_attempt tried
    exact hentered
  | item _ _ _ _ tried =>
    have hbegun := basis_attempt tried
    exact hbegun

theorem basis_advance (run : Run) (setting : Setting) (token : Nat) :
    (run.advance setting token).run.basis = run.basis :=
  advance_induction (P := fun later => later.basis = run.basis)
    (fun later h => (basis_round later setting token).trans h) rfl

theorem basis_resume (run : Run) (setting : Setting) (token : Nat) (pending : Pending)
    (reply : Reply) : (run.resume setting token pending reply).run.basis = run.basis := by
  cases hcancellation : run.cancellation with
  | some cancellation =>
    simp only [resume, hcancellation]
    rfl
  | none =>
    rw [resume_eq hcancellation]
    split
    · rfl
    · exact (basis_advance _ setting token).trans (basis_goOn _)

/-! ## Calls to stop -/

theorem plain_goOn (h : run.cancellation = none) : run.goOn.cancellation = none := by
  unfold goOn
  split <;> exact h

theorem plain_attempt {step : Step} {position : Position} {attempt : Attempt}
    (tried : attempt.From setting token step position run) (h : run.cancellation = none) :
    (attempt.round goOn).run.cancellation = none := by
  cases tried with
  | sent => exact h
  | looping => exact h
  | settled => exact settled_induction (P := fun later => later.cancellation = none) h plain_goOn

/-- A round does not call the run to stop. -/
theorem plain_round (h : run.cancellation = none) :
    (run.round setting token).run.cancellation = none := by
  refine round_induction (P := fun round => round.run.cancellation = none) h fun hfrom => ?_
  cases hfrom with
  | ended => exact h
  | left => exact h
  | astray => exact h
  | step _ _ tried => exact plain_attempt tried h
  | item _ _ _ _ tried => exact plain_attempt tried h

end Run

end RequestFlow
