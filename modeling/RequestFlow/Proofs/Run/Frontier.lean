import RequestFlow.Proofs.Run.Loops

/-!
# A run only goes forward

Whatever state a run is in, its rounds come to an end: each that goes on leaves less to do, counted
in steps first and in items within a step. On the way no step is entered twice. The frontier of a
run is the first step that it may still enter; every round that goes on, and every reply that lets
the run go on, moves it right behind the step of that round. So the step that is entered is behind
all steps that were entered before, all at which a loop was closed and all of which a result was
recorded, and the items of its loop are looked up this once.

* `Run.Unrolls`, `Run.unrolls_course`: a run that advances takes finitely many rounds;
* `Run.rounds`, `Run.Resumes`: the rounds of a run over replies one after the other, and how these
  replies let it go on;
* `Run.Outruns`: what a round, and the reply to its request, do to the frontier;
* `Run.rounds_forward`: rounds end, and go forward, from every state of a run.
-/

namespace RequestFlow

/-- The run that a reply lets go on after a transition; none where no request is out, and none where
the run has been called to stop or the reply stops it. -/
def Transition.answered? (transition : Transition) (reply : Reply) : Option Run :=
  match transition.dispatch, transition.run.pending with
  | some _, some pending =>
    let run := transition.run.taken
    let result := run.replyResult pending reply
    if run.isCanceled || run.stopsAt result then none else some (run.record result).goOn
  | _, _ => none

/-- A round goes on by itself, or over a reply to the request that it sends. -/
inductive Round.GoesOn : Round → Run → Prop where
  | next {next : Run} {notices : List Notice} : GoesOn (.next next notices) next
  | answered {sent : Run} {dispatch : Dispatch} {notices : List Notice} {pending : Pending}
      (reply : Reply) (out : sent.pending = some pending) :
      GoesOn (.sent sent dispatch notices)
        (sent.taken.record (sent.taken.replyResult pending reply)).goOn

theorem Round.goesOn_of_answered {sent next : Run} {dispatch : Dispatch} {notices : List Notice}
    {reply : Reply}
    (h : Transition.answered? ⟨sent, some dispatch, notices⟩ reply = some next) :
    (Round.sent sent dispatch notices).GoesOn next := by
  unfold Transition.answered? at h
  split at h
  · rename_i pending _ out
    dsimp only at h
    split at h
    · cases h
    · cases h
      exact .answered reply out
  · cases h

namespace Run

variable {setting : Setting} {token : Nat} {run : Run}

/-! ## Rounds one after the other -/

/-- The rounds of a run one after the other, up to the first that does not go on, and the transition
that they come to. -/
inductive Unrolls (setting : Setting) (token : Nat) : Run → List (Run × Round) → Transition → Prop
  where
  | sent {run sent : Run} {dispatch : Dispatch} {notices : List Notice}
      (round : run.round setting token = .sent sent dispatch notices) :
      Unrolls setting token run [(run, .sent sent dispatch notices)] ⟨sent, some dispatch, notices⟩
  | finished {run finished : Run} {notices : List Notice}
      (round : run.round setting token = .finished finished notices) :
      Unrolls setting token run [(run, .finished finished notices)] ⟨finished, none, notices⟩
  | next {run next : Run} {notices : List Notice} {rest : List (Run × Round)}
      {transition : Transition} (round : run.round setting token = .next next notices)
      (goes : Unrolls setting token next rest transition) :
      Unrolls setting token run ((run, .next next notices) :: rest) (transition.announce notices)

/-- A run advances by the rounds of its course. -/
theorem unrolls_course (run : Run) (setting : Setting) (token : Nat) :
    Unrolls setting token run (run.course setting token) (run.advance setting token) := by
  fun_induction course run setting token with
  | case1 run next notices hround ih =>
    rw [advance_of_next hround, hround]
    exact .next hround ih
  | case2 run hlast =>
    cases hround : run.round setting token with
    | next next notices => exact (hlast next notices hround).elim
    | sent =>
      rw [advance_of_sent hround]
      exact .sent hround
    | finished =>
      rw [advance_of_finished hround]
      exact .finished hround

/-- The rounds of a run, from each request on over the reply to it. A call to stop can only cut them
short: after it no round is taken. -/
def rounds (run : Run) (setting : Setting) (token : Nat) : List Reply → List (Run × Round)
  | [] => run.course setting token
  | reply :: replies =>
    run.course setting token ++
      match (run.advance setting token).answered? reply with
      | some next => next.rounds setting (token + 1) replies
      | none => []

/-- What a run goes on to over a reply is what it advances from when it resumes; and it sends
nothing when it does not go on. -/
def Resumes (setting : Setting) (token : Nat) (transition : Transition) (reply : Reply) : Prop :=
  ∀ pending, transition.dispatch.isSome → transition.run.pending = some pending →
    let resumed := transition.run.taken.resume setting token pending reply
    match transition.answered? reply with
    | some next =>
      resumed.run = (next.advance setting token).run ∧
        resumed.dispatch = (next.advance setting token).dispatch
    | none => resumed.dispatch = none

theorem resumes_answered (setting : Setting) (token : Nat) (transition : Transition)
    (reply : Reply) : Resumes setting token transition reply := by
  intro pending hsent hpending
  obtain ⟨dispatch, hdispatch⟩ := Option.isSome_iff_exists.1 hsent
  simp only [Transition.answered?, hdispatch, hpending]
  cases hcancellation : transition.run.taken.cancellation with
  | some cancellation =>
    simp [isCanceled, hcancellation, resume]
  | none =>
    rw [resume_eq hcancellation]
    simp only [isCanceled, hcancellation, Option.isSome_none, Bool.false_or]
    cases transition.run.taken.stopsAt (transition.run.taken.replyResult pending reply) with
    | true => rfl
    | false => exact ⟨rfl, rfl⟩

/-! ## The frontier -/

/-- The first step that a run may still enter: the one it is at, or the one after that where the run
is in a loop. -/
def frontier (run : Run) : Nat := if run.loop.isSome then run.index + 1 else run.index

/-- The index of the step that the next round enters. -/
def enters? (run : Run) : Option Nat :=
  if run.isCanceled || run.loop.isSome then none else run.step?.map fun _ => run.index

/-- The index of the step that the next round enters, with the request and the loop whose items it
looks up for it. -/
def asks? (run : Run) (requests : RequestIndex) : Option (Nat × Request × LoopSpec) :=
  run.enters?.bind fun index =>
    (run.workflow.loopAt? requests index).map fun found => (index, found)

theorem outside_of_enters {index : Nat} (h : run.enters? = some index) :
    run.loop.isSome = false ∧ run.index = index := by
  unfold enters? at h
  split at h
  · cases h
  · rename_i hfree
    obtain ⟨step, -, hindex⟩ := Option.map_eq_some_iff.1 h
    simp only [Bool.or_eq_true, not_or] at hfree
    exact ⟨by simpa using hfree.2, hindex⟩

theorem frontier_of_enters {index : Nat} (h : run.enters? = some index) : run.frontier = index := by
  obtain ⟨houtside, hindex⟩ := outside_of_enters h
  rw [frontier, houtside, if_neg Bool.false_ne_true, hindex]

theorem index_le_frontier (run : Run) : run.index ≤ run.frontier := by
  unfold frontier
  split <;> omega

theorem frontier_le (run : Run) : run.frontier ≤ run.index + 1 := by
  unfold frontier
  split <;> omega

/-- A later state of a run has its frontier behind the step of an earlier one, and behind the steps
of all results that came in between; beyond the steps there is no frontier but where the run began.
-/
structure Outruns (earlier later : Run) : Prop where
  workflow : later.workflow = earlier.workflow
  index : earlier.index < later.frontier
  bound : later.frontier ≤ max earlier.frontier earlier.stepCount
  results : ∃ more, later.results = earlier.results ++ more ∧
    ∀ result ∈ more, result.step < later.frontier

theorem Outruns.trans {earlier between later : Run} (first : earlier.Outruns between)
    (second : between.Outruns later) : earlier.Outruns later := by
  have hbetween := frontier_le between
  have hcount : between.stepCount = earlier.stepCount := stepCount_eq first.workflow
  have hfirst := first.index
  have hsecond := second.index
  have hbound := first.bound
  have hlater := second.bound
  obtain ⟨more, hmore, hsteps⟩ := first.results
  obtain ⟨others, hothers, hlast⟩ := second.results
  refine ⟨second.workflow.trans first.workflow, by omega, by omega, more ++ others, ?_, ?_⟩
  · rw [hothers, hmore, List.append_assoc]
  · intro result hresult
    rcases List.mem_append.1 hresult with hresult | hresult
    · have hstep := hsteps result hresult
      omega
    · exact hlast result hresult

/-- With a result of its step recorded, a run goes on behind that step. -/
theorem outruns_goOn {settled : Run} {result : Result}
    (workflow : settled.workflow = run.workflow) (index : settled.index = run.index)
    (loop : settled.loop.isSome = run.loop.isSome) (results : settled.results = run.results)
    (step : result.step = run.index) (bound : run.index + 1 ≤ max run.frontier run.stepCount) :
    run.Outruns (settled.record result).goOn := by
  have hfrontier : (settled.record result).goOn.frontier = run.index + 1 := by
    have hrecorded : (settled.record result).loop.isSome = run.loop.isSome := loop
    unfold goOn
    cases hloop : (settled.record result).loop with
    | none =>
      have hnone : (settled.record result).nextStep.loop = none := hloop
      rw [if_pos Option.isNone_none, frontier, hnone, if_neg (by simp)]
      exact congrArg (· + 1) index
    | some inside =>
      rw [if_neg (by simp), frontier, hloop, if_pos Option.isSome_some]
      exact congrArg (· + 1) index
  have hresults : (settled.record result).goOn.results = run.results ++ [result] := by
    rw [results_goOn, ← results]
    rfl
  refine ⟨?_, by omega, by omega, [result], hresults, ?_⟩
  · have hbasis := basis_goOn (settled.record result)
    exact (workflow_of_basis hbasis).trans workflow
  · intro recorded hmem
    rw [List.mem_singleton.1 hmem, step, hfrontier]
    exact Nat.lt_succ_self _

/-- However a try of the step under way goes on, it leaves the run behind that step. -/
theorem outruns_attempt {step : Step} {position : Position} {attempt : Attempt} {next : Run}
    (tried : attempt.From setting token step position run)
    (bound : run.index + 1 ≤ max run.frontier run.stepCount)
    (goes : (attempt.round goOn).GoesOn next) : run.Outruns next := by
  cases tried with
  | sent branch =>
    cases goes with
    | answered reply out =>
      cases out
      exact outruns_goOn rfl rfl rfl rfl rfl bound
  | settled branch _ early =>
    simp only [Attempt.round, settle] at goes
    split at goes
    · cases goes
    · cases goes
      exact outruns_goOn rfl rfl rfl rfl early.step bound
  | looping =>
    cases goes
    exact ⟨rfl, Nat.lt_succ_self _, bound, [], (List.append_nil _).symm, by simp⟩

/-- So does leaving a loop. -/
theorem outruns_leaveLoop {left : Run} (inside : run.loop.isSome)
    (workflow : left.workflow = run.workflow) (index : left.index = run.index)
    (results : left.results = run.results) : run.Outruns left.leaveLoop := by
  have hfrontier : left.leaveLoop.frontier = run.index + 1 := congrArg (· + 1) index
  have hinside : run.frontier = run.index + 1 := by rw [frontier, inside, if_pos rfl]
  have hresults : left.leaveLoop.results = run.results ++ [] := by
    rw [List.append_nil]
    exact results
  exact ⟨workflow, by omega, by omega, [], hresults, by simp⟩

/-- However a round goes on, it leaves the run behind the step that the run was at. -/
theorem outruns_round {next : Run} (goes : (run.round setting token).GoesOn next) :
    run.Outruns next := by
  revert goes
  refine round_induction (P := fun round => round.GoesOn next → run.Outruns next)
    (by rintro ⟨⟩) fun hfrom goes => ?_
  cases hfrom with
  | ended => cases goes
  | left inside =>
    cases goes
    exact outruns_leaveLoop (by simp [inside]) rfl rfl rfl
  | astray inside =>
    cases goes
    exact outruns_leaveLoop (by simp [inside]) rfl rfl rfl
  | step _ under tried =>
    have hlt := index_lt_of_step under
    have hentered : Outruns { run with branch := none } next :=
      outruns_attempt tried (Nat.le_trans hlt (Nat.le_max_right ..)) goes
    exact ⟨hentered.workflow, hentered.index, hentered.bound, hentered.results⟩
  | @item loop item _ _ inside _ _ _ tried =>
    have hbegun : (run.beginItem loop item).Outruns next :=
      outruns_attempt tried (Nat.le_max_left ..) goes
    have hfrontier : run.frontier = (run.beginItem loop item).frontier := by
      rw [frontier, inside]
      rfl
    exact ⟨hbegun.workflow, hbegun.index, hfrontier ▸ hbegun.bound, hbegun.results⟩

/-- In particular a round that goes on by itself does. -/
theorem outruns_of_next {next : Run} {notices : List Notice}
    (h : run.round setting token = .next next notices) : run.Outruns next := by
  have hgoes : (run.round setting token).GoesOn next := by
    rw [h]
    exact .next
  exact outruns_round hgoes

/-! ## All rounds of a run -/

/-- Whatever a run outruns, it outruns on its whole course. -/
theorem outruns_course {earlier : Run} (h : earlier.Outruns run) {taken : Run × Round}
    (htaken : taken ∈ run.course setting token) : earlier.Outruns taken.1 :=
  (mem_course_of_next (P := earlier.Outruns)
    (fun _ _ _ hrun hround => hrun.trans (outruns_of_next hround)) h htaken).1

/-- On a course every run outruns those before it. -/
theorem pairwise_course (run : Run) (setting : Setting) (token : Nat) :
    (run.course setting token).Pairwise fun earlier later => earlier.1.Outruns later.1 := by
  fun_induction course run setting token with
  | case1 run next notices hround ih =>
    exact .cons (fun taken => outruns_course (outruns_of_next hround)) ih
  | case2 => exact List.pairwise_singleton _ _

/-- A run that goes on over a reply outruns all that took a round before it. -/
theorem outruns_answered {next : Run} {reply : Reply}
    (h : (run.advance setting token).answered? reply = some next) {taken : Run × Round}
    (htaken : taken ∈ run.course setting token) : taken.1.Outruns next := by
  fun_induction course run setting token generalizing taken with
  | case1 run between notices hround ih =>
    rw [advance_of_next hround] at h
    rcases List.mem_cons.1 htaken with rfl | htaken
    · exact (outruns_of_next hround).trans (ih h (head_mem_course between setting token))
    · exact ih h htaken
  | case2 run hlast =>
    obtain rfl := List.mem_singleton.1 htaken
    have hgoes : (run.round setting token).GoesOn next := by
      cases hround : run.round setting token with
      | next next notices => exact (hlast next notices hround).elim
      | sent =>
        rw [advance_of_sent hround] at h
        exact Round.goesOn_of_answered h
      | finished =>
        rw [advance_of_finished hround] at h
        cases h
    exact outruns_round hgoes

/-- A run with a reply to come: it takes its course, and after it what the reply lets it take. -/
theorem mem_rounds_cons {reply : Reply} {replies : List Reply} {taken : Run × Round}
    (h : taken ∈ run.rounds setting token (reply :: replies)) :
    taken ∈ run.course setting token ∨
      ∃ next, (run.advance setting token).answered? reply = some next ∧
        taken ∈ next.rounds setting (token + 1) replies := by
  rcases List.mem_append.1 h with hcourse | hlater
  · exact .inl hcourse
  · split at hlater
    · rename_i next hnext
      exact .inr ⟨next, hnext, hlater⟩
    · cases hlater

/-- Whatever a run outruns, it outruns in all its rounds. -/
theorem outruns_rounds {earlier : Run} (h : earlier.Outruns run) {replies : List Reply}
    {taken : Run × Round} (htaken : taken ∈ run.rounds setting token replies) :
    earlier.Outruns taken.1 := by
  induction replies generalizing run token with
  | nil => exact outruns_course h htaken
  | cons reply replies ih =>
    rcases mem_rounds_cons htaken with hcourse | ⟨next, hnext, hlater⟩
    · exact outruns_course h hcourse
    · exact ih (h.trans (outruns_answered hnext (head_mem_course run setting token))) hlater

/-- Of all rounds of a run, those that come later outrun those that came before. -/
theorem pairwise_rounds (run : Run) (setting : Setting) (token : Nat) (replies : List Reply) :
    (run.rounds setting token replies).Pairwise fun earlier later =>
      earlier.1.Outruns later.1 := by
  induction replies generalizing run token with
  | nil => exact pairwise_course run setting token
  | cons reply replies ih =>
    rw [rounds]
    refine List.pairwise_append.2 ⟨pairwise_course run setting token, ?_, ?_⟩
    · split
      · exact ih _ _
      · exact .nil
    · intro earlier hearlier later hlater
      split at hlater
      · rename_i next hnext
        exact outruns_rounds (outruns_answered hnext hearlier) hlater
      · cases hlater

/-- The members of the list of rounds are rounds. -/
theorem round_of_mem_rounds {replies : List Reply} {taken : Run × Round}
    (htaken : taken ∈ run.rounds setting token replies) :
    ∃ token, taken.2 = taken.1.round setting token := by
  have hcourse {run : Run} {token : Nat} (h : taken ∈ run.course setting token) :
      ∃ token, taken.2 = taken.1.round setting token :=
    ⟨token, (mem_course (P := fun _ => True) (fun _ => id) trivial h).2⟩
  induction replies generalizing run token with
  | nil => exact hcourse htaken
  | cons reply replies ih =>
    rcases mem_rounds_cons htaken with hfirst | ⟨next, -, hlater⟩
    · exact hcourse hfirst
    · exact ih hlater

/-- No run on the way is behind the end of the steps, but one that began there. -/
theorem index_le_of_mem_rounds {replies : List Reply} {taken : Run × Round}
    (htaken : taken ∈ run.rounds setting token replies) :
    taken.1.index ≤ max run.frontier run.stepCount := by
  have hself : taken.1 = run ∨ run.Outruns taken.1 := by
    have hcourse (h : taken ∈ run.course setting token) : taken.1 = run ∨ run.Outruns taken.1 :=
      (mem_course_of_next (P := fun later => later = run ∨ run.Outruns later)
        (fun later next _ hlater hround => by
          rcases hlater with rfl | hlater
          · exact .inr (outruns_of_next hround)
          · exact .inr (hlater.trans (outruns_of_next hround))) (.inl rfl) h).1
    cases replies with
    | nil => exact hcourse htaken
    | cons reply replies =>
      rcases mem_rounds_cons htaken with hfirst | ⟨next, hnext, hlater⟩
      · exact hcourse hfirst
      · exact .inr (outruns_rounds
          (outruns_answered hnext (head_mem_course run setting token)) hlater)
  rcases hself with hsame | hruns
  · rw [hsame]
    exact Nat.le_trans (index_le_frontier run) (Nat.le_max_left ..)
  · exact Nat.le_trans (index_le_frontier taken.1) hruns.bound

/-! ## The items of loops -/

/-- The loop that a round leaves the run in goes over the items of the loop that the run was in
already, or over those that the round has looked up. -/
theorem items_round {loop : Loop} (h : (run.round setting token).run.loop = some loop) :
    (∃ before, run.loop = some before ∧ loop.items = before.items) ∨
      ∃ index request spec, run.asks? setting.requests = some (index, request, spec) ∧
        run.loopItems setting request spec = .ok loop.items := by
  cases hbefore : run.loop with
  | some before =>
    obtain ⟨cursor, rfl⟩ := kept_round hbefore h
    exact .inl ⟨before, rfl, rfl⟩
  | none =>
    obtain ⟨request, spec, hat, -, -⟩ := entered_round hbefore h
    cases hcanceled : run.isCanceled with
    | true =>
      rw [round_of_canceled hcanceled] at h
      cases hbefore.symm.trans h
    | false =>
      obtain ⟨step, hstep, -⟩ := Option.bind_eq_some_iff.1 hat
      have hunder : run.step? = some step := hstep
      have hasks : run.asks? setting.requests = some (run.index, request, spec) := by
        simp [asks?, enters?, hcanceled, hbefore, hunder, hat]
      refine .inr ⟨run.index, request, spec, hasks, ?_⟩
      have hopens : run.Opens setting request spec (run.round setting token) :=
        opens_round hcanceled hbefore hat
      generalize run.round setting token = round at hopens h
      cases hopens with
      | failed _ _ _ _ hnone => cases hnone.symm.trans h
      | skipped _ _ _ hnone => cases hnone.symm.trans h
      | begun value =>
        cases h
        exact value

/-! ## From every state -/

theorem less_wf : WellFounded Less := (inferInstance : WellFoundedRelation (Nat × Nat)).wf

/-- A round that enters a step has its frontier there. -/
theorem Outruns.before {earlier later : Run} {index : Nat} (h : earlier.Outruns later)
    (enters : later.enters? = some index) :
    earlier.index < index ∧ ∃ more, later.results = earlier.results ++ more ∧
      ∀ result ∈ more, result.step < index := by
  rw [← frontier_of_enters enters]
  exact ⟨h.index, h.results⟩

theorem enters_of_asks {requests : RequestIndex} {asked : Nat × Request × LoopSpec}
    (h : run.asks? requests = some asked) : run.enters? = some asked.1 := by
  obtain ⟨index, henters, hfound⟩ := Option.bind_eq_some_iff.1 h
  obtain ⟨found, -, rfl⟩ := Option.map_eq_some_iff.1 hfound
  exact henters

/-- Whatever state a run is in, and whatever the expressions evaluate to: each round that goes on
leaves less to do, by an order without endless descent, so that the run advances by finitely many
rounds, and so does whatever a reply lets it go on to. A step that a round enters, over whatever
replies, is behind the step of each round before, the loops that have been left among them, and
behind all results that were recorded in between. So the items of a loop are looked up for one step
after the other, and a loop keeps those that it began with. No index grows beyond the steps, but
from where the run was. -/
theorem rounds_forward (setting : Setting) :
    WellFounded Less ∧
      (∀ (run next : Run) (token : Nat) (notices : List Notice),
        run.round setting token = .next next notices → Less next.remaining run.remaining) ∧
      ∀ (run : Run) (token : Nat),
        Unrolls setting token run (run.course setting token) (run.advance setting token) ∧
        (∀ later reply, Resumes setting later (run.advance setting token) reply) ∧
        ∀ replies : List Reply,
          (∀ taken ∈ run.rounds setting token replies,
            taken.1.index ≤ max run.frontier run.stepCount ∧
            (∃ token, taken.2 = taken.1.round setting token) ∧
            ∀ loop, taken.2.run.loop = some loop →
              (∃ before, taken.1.loop = some before ∧ loop.items = before.items) ∨
                ∃ index request spec,
                  taken.1.asks? setting.requests = some (index, request, spec) ∧
                  taken.1.loopItems setting request spec = .ok loop.items) ∧
          (run.rounds setting token replies).Pairwise (fun earlier later =>
            ∀ index, later.1.enters? = some index →
              earlier.1.index < index ∧ ∃ more, later.1.results = earlier.1.results ++ more ∧
                ∀ result ∈ more, result.step < index) ∧
          (((run.rounds setting token replies).filterMap fun taken =>
            taken.1.asks? setting.requests).map Prod.fst).Pairwise (· < ·) := by
  refine ⟨less_wf, fun run next token notices => remaining_lt_of_round, fun run token =>
    ⟨unrolls_course run setting token, fun later => resumes_answered setting later _,
      fun replies => ⟨fun taken htaken => ?_, ?_, ?_⟩⟩⟩
  · obtain ⟨number, hround⟩ := round_of_mem_rounds htaken
    refine ⟨index_le_of_mem_rounds htaken, ⟨number, hround⟩, fun loop hloop => ?_⟩
    rw [hround] at hloop
    exact items_round hloop
  · exact (pairwise_rounds run setting token replies).imp fun hruns index => hruns.before
  · refine List.pairwise_map.2 (List.pairwise_filterMap.2
      ((pairwise_rounds run setting token replies).imp ?_))
    intro earlier later hruns first hfirst second hsecond
    rw [← (outside_of_enters (enters_of_asks hfirst)).2]
    exact (hruns.before (enters_of_asks hsecond)).1

end Run

end RequestFlow
