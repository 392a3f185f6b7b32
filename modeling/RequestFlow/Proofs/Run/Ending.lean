import RequestFlow.Proofs.Run.Stages

/-!
# How a run ends

A run ends in one of three ways: canceled at the request that was out, stopped by a failure, or out
of steps. Which of them it was shows in its last result, and in the last case every step has left a
result. For that a run keeps account of the steps it has been through:

* `Run.Over`: the three ways;
* `Run.Accounted`, `Run.Settled`: the account, at rest and between rounds;
* `Run.accounts_round`: rounds keep it, and the last one ends the run;
* `Stages.accounts_lead`: so do replies and calls to stop.
-/

namespace RequestFlow

/-- The step with an index goes by a policy. -/
def Workflow.HasPolicy (workflow : Workflow) (index : Nat) (policy : Policy) : Prop :=
  ∃ step, workflow.steps[index]? = some step ∧ workflow.policyFor step = policy

/-- Results that stop no run of a workflow: none is a canceled one, and the failed ones belong to
steps that let the run go on. -/
structure Workflow.Survives (workflow : Workflow) (results : List Result) : Prop where
  canceled : ∀ result ∈ results, result.status ≠ .canceled
  failed : ∀ result ∈ results, result.status = .failed → workflow.HasPolicy result.step .proceed

namespace Run

/-- Some result belongs to the step with an index. -/
def HasResult (run : Run) (index : Nat) : Prop := ∃ result ∈ run.results, result.step = index

/-- A run that is over: its last result was canceled or stopped it, or all its steps have results.
-/
inductive Over (run : Run) : Prop where
  | canceled {before : List Result} {last : Result} (called : run.isCanceled = true)
      (results : run.results = before ++ [last]) (status : last.status = .canceled)
      (survived : run.workflow.Survives before)
  | stopped {before : List Result} {last : Result} (plain : run.cancellation = none)
      (results : run.results = before ++ [last]) (status : last.status = .failed)
      (policy : run.workflow.HasPolicy last.step .stop)
      (place : run.stoppedAt = some last.step) (survived : run.workflow.Survives before)
  | completed (plain : run.cancellation = none) (free : run.stoppedAt = none)
      (survived : run.workflow.Survives run.results)
      (covered : ∀ index < run.stepCount, run.HasResult index)

/-- The account of a run at rest: every step before the one under way has a result, and a loop has
items and belongs to a step with a request part. -/
structure Accounted (run : Run) : Prop where
  past : ∀ index < run.index, run.HasResult index
  inLoop : ∀ loop, run.loop = some loop →
    loop.items ≠ [] ∧ (run.step?.bind Step.requestPart?).isSome

/-- The account of a run between rounds: once an item of a loop has been begun, its step has a
result as well. -/
structure Settled (run : Run) : Prop extends run.Accounted where
  current : ∀ loop, run.loop = some loop → 0 < loop.cursor → run.HasResult run.index

end Run

/-- The account of a run at each of its stages. -/
def Stages.accounts : Stages := ⟨Run.Settled, Run.Accounted, Run.Over⟩

namespace Run

variable {setting : Setting} {token : Nat} {run : Run}

theorem Open.survives (h : run.Open) : run.workflow.Survives run.results := ⟨h.canceled, h.failed⟩

/-! ## One more result -/

theorem hasResult_record {index : Nat} (h : run.HasResult index) (result : Result) :
    (run.record result).HasResult index := by
  obtain ⟨earlier, hmem, hstep⟩ := h
  exact ⟨earlier, List.mem_append_left _ hmem, hstep⟩

theorem hasResult_last (run : Run) (result : Result) :
    (run.record result).HasResult result.step :=
  ⟨result, List.mem_append_right _ (List.mem_singleton_self result), rfl⟩

/-- A result of the step under way settles the account. -/
theorem settled_goOn {result : Result} (h : run.Accounted) (hstep : result.step = run.index) :
    (run.record result).goOn.Settled := by
  have hhere : (run.record result).HasResult run.index := hstep ▸ hasResult_last run result
  have hpast (index : Nat) (hlt : index < run.index) : (run.record result).HasResult index :=
    hasResult_record (h.past index hlt) result
  unfold goOn
  split
  · rename_i hnone
    have hloop (loop : Loop) : (run.record result).loop ≠ some loop := by
      intro hsome
      simp [hsome] at hnone
    refine ⟨⟨fun index hlt => ?_, fun loop hsome => (hloop loop hsome).elim⟩,
      fun loop hsome => (hloop loop hsome).elim⟩
    rcases Nat.lt_or_eq_of_le (Nat.le_of_lt_succ hlt) with hlt | rfl
    · exact hpast index hlt
    · exact hhere
  · exact ⟨⟨hpast, h.inLoop⟩, fun _ _ _ => hhere⟩

/-- A failed result that stops its run ends it. -/
theorem over_record {result : Result} (h : run.Open) (plain : run.cancellation = none)
    (hplace : ∃ step, run.workflow.steps[result.step]? = some step)
    (hstatus : result.status ≠ .canceled) (hstop : run.stopsAt result = true) :
    (run.record result).Over := by
  obtain ⟨step, hstep⟩ := hplace
  have hstops : result.stops (run.workflow.policyFor step) = true := by
    rw [← policyAt_of_step hstep]
    exact hstop
  obtain ⟨hfailed, hpolicy⟩ :
      result.status = .failed ∧ run.workflow.policyFor step = .stop := by
    unfold Result.stops at hstops
    split at hstops
    · rename_i hcanceled
      exact (hstatus hcanceled).elim
    · rename_i hfailed
      exact ⟨hfailed, by simpa using hstops⟩
    · cases hstops
    · cases hstops
  refine .stopped plain rfl hfailed ⟨step, hstep, hpolicy⟩ ?_ h.survives
  simp [record, hstop, Result.isFailure, hfailed]

/-! ## Rounds -/

theorem accounts_attempt {step : Step} {position : Position} {attempt : Attempt}
    (h : run.Trying step position) (account : run.Accounted)
    (tried : attempt.From setting token step position run) :
    (attempt.round goOn).Meets .accounts := by
  cases tried with
  | sent => exact ⟨account.past, account.inLoop⟩
  | looping _ part _ cursor items =>
    refine ⟨⟨account.past, ?_⟩, ?_⟩
    · rintro _ ⟨⟩
      refine ⟨items, ?_⟩
      show (run.step?.bind Step.requestPart?).isSome
      rw [h.under, Option.bind_some]
      exact part
    · rintro _ ⟨⟩ hbegun
      simp [cursor] at hbegun
  | @settled branch result _ early =>
    have hopen : Open { run with branch } := ⟨h.finalized, h.stoppedAt, h.canceled, h.failed⟩
    have haccount : Accounted { run with branch } := ⟨account.past, account.inLoop⟩
    simp only [Attempt.round, settle]
    split
    · rename_i hstop
      refine over_record hopen h.cancellation ⟨step, ?_⟩ ?_ hstop
      · rw [early.step]
        exact h.under
      · rcases early.status with hstatus | hstatus <;> simp [hstatus]
    · exact settled_goOn haccount early.step

/-- A round keeps the account, and one that finishes the run ends it. -/
theorem accounts_round (h : run.UnderWay) (account : run.Settled) :
    (run.round setting token).Meets .accounts := by
  have hcanceled : run.isCanceled = false := by simp [isCanceled, h.cancellation]
  have hfrom := from_round setting token hcanceled
  generalize run.round setting token = round at hfrom
  cases hfrom with
  | ended _ last =>
    refine .completed h.cancellation h.stoppedAt h.survives fun index hindex => ?_
    have hlast : run.stepCount ≤ run.index := List.getElem?_eq_none_iff.1 last
    exact account.past index (Nat.lt_of_lt_of_le hindex hlast)
  | @left loop inside last =>
    have hitems : 0 < loop.items.length := List.length_pos_iff.2 (account.inLoop loop inside).1
    have hcursor : loop.items.length ≤ loop.cursor := List.getElem?_eq_none_iff.1 last
    refine ⟨⟨fun index hlt => ?_, by rintro _ ⟨⟩⟩, by rintro _ ⟨⟩⟩
    rcases Nat.lt_or_eq_of_le (Nat.le_of_lt_succ hlt) with hlt | rfl
    · exact account.past index hlt
    · exact account.current loop inside (Nat.lt_of_lt_of_le hitems hcursor)
  | astray inside _ part =>
    have hpart := (account.inLoop _ inside).2
    rw [part] at hpart
    cases hpart
  | step outside next tried =>
    exact accounts_attempt (h.trying outside next) ⟨account.past, account.inLoop⟩ tried
  | @item loop item _ _ inside next place part tried =>
    have hbegun : (run.beginItem loop item).Accounted := by
      refine ⟨account.past, ?_⟩
      rintro _ ⟨⟩
      exact account.inLoop loop inside
    exact accounts_attempt (h.trying_item inside next place part) hbegun tried

/-! ## From one request to the next -/

theorem settled_start (workflow : Workflow) (origin : Origin) (environment : String)
    (environmentVars : TextMap) : (start workflow origin environment environmentVars).Settled :=
  ⟨⟨fun _ hlt => (Nat.not_lt_zero _ hlt).elim, by rintro _ ⟨⟩⟩, by rintro _ ⟨⟩⟩

/-- A reply that stops its run ends it. -/
theorem over_of_reply {requests : RequestIndex} {pending : Pending} {reply : Reply}
    (h : run.AtRest requests token pending) (plain : run.cancellation = none)
    (hstop : run.taken.stopsAt (run.taken.replyResult pending reply) = true) :
    (run.taken.record (run.taken.replyResult pending reply)).Over := by
  have hopen : run.taken.Open := ⟨h.finalized, h.stoppedAt, h.canceled, h.failed⟩
  have hindex : (run.taken.replyResult pending reply).step < run.stepCount := by
    show pending.step < run.stepCount
    rw [h.step]
    exact h.index_lt
  refine over_record hopen plain ⟨_, List.getElem?_eq_getElem hindex⟩ ?_ hstop
  show (reply.verdict (run.taken.expectation? pending) .elapsed).status ≠ .canceled
  rcases reply.status_verdict (run.taken.expectation? pending) .elapsed with hpassed | hfailed
  · simp [hpassed]
  · simp [hfailed]

end Run

/-- The account is kept at every stage, and closed at the last. -/
theorem Stages.accounts_lead : accounts.Lead where
  start := Run.settled_start
  round h account := Run.accounts_round h account
  called _ account := ⟨account.past, account.inLoop⟩
  canceled _ _ _ h _ := .canceled rfl rfl rfl h.survives
  stopped h _ plain hstop := Run.over_of_reply h plain hstop
  answered h account := Run.settled_goOn ⟨account.past, account.inLoop⟩ h.step

end RequestFlow
