import RequestFlow.Drive

/-!
# Drives in any order

Around a driver things happen in no fixed order: the executor is done with a task, somebody calls to
cancel, nobody can call any more. The driver takes what is there, calls before deliveries. A drive
is what can happen from a start on, event by event.

* `Drive.Step`: one event;
* `Drive.Runs`: the events so far, and the driver after them;
* `Drive.take_eq_some_iff`: what the driver takes is one of these events, and there are no others
  of its own;
* `Drive.runs_toEnd`: a target that is driven to its end is driven in one of these orders, and its
  executor does the tasks.
-/

namespace RequestFlow

/-- What is delivered for a dispatch is marked with its token. -/
def Performance.Faithful (performance : Performance) (dispatch : Dispatch) : Prop :=
  ∀ delivery, performance = .delivers delivery → delivery.token = dispatch.token

/-- So is then whatever a task brings. -/
theorem Performance.Faithful.token {performance : Performance} {dispatch : Dispatch}
    {delivery : Delivery} (faithful : performance.Faithful dispatch)
    (brings : performance.Brings dispatch delivery) : delivery.token = dispatch.token := by
  cases brings with
  | delivered => exact faithful delivery rfl
  | failed => rfl

/-- An executor that marks what it brings back with the token of the dispatch. -/
def Executor.Faithful (executor : Executor) : Prop :=
  ∀ number dispatch, (executor number dispatch).2.Faithful dispatch

/-- The dispatches that the executor has begun. -/
def Progress.seen {σ : Type} : Progress σ → List Dispatch
  | more drive => drive.seen
  | ended driven => driven.seen

namespace Drive

variable {σ : Type}

/-- What can happen in a drive. -/
inductive Event where
  /-- The driver takes a call to cancel. -/
  | heard (reason : Option String)
  /-- The driver learns that nobody can call any more. -/
  | left
  /-- The driver takes a delivery. -/
  | received (delivery : Delivery)
  /-- The driver finds that nothing can come any more. -/
  | closed
  /-- The executor is done with a task. -/
  | performed (dispatch : Dispatch) (performance : Performance)
  /-- Somebody calls to cancel. -/
  | called (reason : Option String)
  /-- From now on nobody can call. -/
  | hungUp

/-- The drive once its executor is done with a dispatch; `tasks` are not done yet. -/
def perform (drive : Drive σ) (dispatch : Dispatch) (performance : Performance)
    (tasks : List Dispatch) : Drive σ :=
  { drive with
    tasks
    deliveries := drive.deliveries ++ [performance.delivery dispatch]
    seen := drive.seen ++ [dispatch] }

/-- One event of a drive, and the driver after it. -/
inductive Step (drive : Drive σ) : Event → Progress σ → Prop where
  | heard {reason : Option String} {calls : List (Option String)} (listens : drive.listening = true)
      (next : drive.calls = reason :: calls) :
      Step drive (.heard reason) (({ drive with calls }).obey (drive.session.cancel reason))
  | left (listens : drive.listening = true) (silent : drive.calls = [])
      (nobody : drive.hungUp = true) : Step drive .left (.more { drive with listening := false })
  /-- A call that comes while the driver takes a delivery is one that comes after it. -/
  | received {delivery : Delivery} {deliveries : List Delivery}
      (quiet : drive.listening = true → drive.calls = [] ∧ drive.hungUp = false)
      (next : drive.deliveries = delivery :: deliveries) :
      Step drive (.received delivery)
        (({ drive with deliveries }).obey (drive.session.respond delivery.token delivery.reply))
  | closed (stuck : drive.take = none) (done : drive.tasks = []) :
      Step drive .closed (.ended (drive.finish (.error .channelClosed)))
  /-- Any task can be the next one done. -/
  | performed {dispatch : Dispatch} {performance : Performance} {before after : List Dispatch}
      (begun : drive.tasks = before ++ dispatch :: after)
      (faithful : performance.Faithful dispatch) :
      Step drive (.performed dispatch performance)
        (.more (drive.perform dispatch performance (before ++ after)))
  | called (reason : Option String) (open_ : drive.hungUp = false) :
      Step drive (.called reason) (.more { drive with calls := drive.calls ++ [reason] })
  | hungUp (open_ : drive.hungUp = false) :
      Step drive .hungUp (.more { drive with hungUp := true })

/-- The events of a drive so far, and the driver after them. -/
inductive Runs (start : Progress σ) : List Event → Progress σ → Prop where
  | nil : Runs start [] start
  | snoc {trace : List Event} {drive : Drive σ} {event : Event} {progress : Progress σ}
      (runs : Runs start trace (.more drive)) (step : Step drive event progress) :
      Runs start (trace ++ [event]) progress

/-! ## What the driver takes -/

/-- The event is the driver taking something. -/
def Event.IsTaken : Event → Prop
  | heard _ | left | received _ => True
  | _ => False

/-- The driver takes what it can, and nothing else. -/
theorem take_eq_some_iff {drive : Drive σ} {progress : Progress σ} :
    drive.take = some progress ↔ ∃ event : Event, event.IsTaken ∧ Step drive event progress := by
  constructor
  · intro h
    unfold take at h
    split at h
    · rename_i reason calls hlistens hcalls
      cases h
      exact ⟨.heard reason, trivial, .heard hlistens hcalls⟩
    · rename_i hlistens hcalls hnobody
      cases h
      exact ⟨.left, trivial, .left hlistens hcalls hnobody⟩
    · rename_i hnext hnobody
      split at h
      · rename_i delivery deliveries hdeliveries
        cases h
        refine ⟨.received delivery, trivial, .received (fun hlistens => ?_) hdeliveries⟩
        cases hcalls : drive.calls with
        | cons reason calls => exact (hnext reason calls hlistens hcalls).elim
        | nil => exact ⟨rfl, by simpa using hnobody hlistens hcalls⟩
      · cases h
  · rintro ⟨event, htaken, hstep⟩
    cases hstep with
    | heard listens next => simp [take, listens, next]
    | left listens silent nobody => simp [take, listens, silent, nobody]
    | received quiet next =>
      cases hlistens : drive.listening with
      | false => simp [take, hlistens, next]
      | true =>
        obtain ⟨hcalls, hnobody⟩ := quiet hlistens
        simp [take, hlistens, hcalls, hnobody, next]
    | closed => exact htaken.elim
    | performed => exact htaken.elim
    | called => exact htaken.elim
    | hungUp => exact htaken.elim

/-! ## Driving to the end -/

/-- The dispatch that the executor is done with, and how. -/
def Event.done? : Event → Option (Dispatch × Performance)
  | performed dispatch performance => some (dispatch, performance)
  | _ => none

theorem mem_done {trace : List Event} {dispatch : Dispatch} {performance : Performance} :
    (dispatch, performance) ∈ trace.filterMap Event.done? ↔
      .performed dispatch performance ∈ trace := by
  rw [List.mem_filterMap]
  constructor
  · rintro ⟨event, hmem, hdone⟩
    cases event with
    | performed => cases hdone; exact hmem
    | _ => cases hdone
  · exact fun hmem => ⟨_, hmem, rfl⟩

/-- A drive in some order in which an executor does the tasks. -/
structure RunsBy (executor : Executor) (start : Progress σ) (trace : List Event)
    (progress : Progress σ) : Prop where
  runs : Runs start trace progress
  tasks : trace.filterMap Event.done? =
    progress.seen.mapIdx fun number dispatch => (dispatch, (executor number dispatch).2)

section

variable {executor : Executor} {start : Progress σ} {trace : List Event} {drive : Drive σ}

theorem seen_obey (drive : Drive σ) (reaction : Reaction σ Command) :
    (drive.obey reaction).seen = drive.seen := by
  unfold obey
  dsimp only
  split
  · rfl
  · rfl
  · split <;> rfl

theorem seen_begin (session : Session σ) (target : Target) (environment : String)
    (calls : List (Option String)) (hungUp : Bool) :
    (begin session target environment calls hungUp).seen = [] := by
  unfold begin
  dsimp only
  split
  · rfl
  · exact seen_obey ..

/-- An event in which the executor does nothing. -/
theorem RunsBy.other {event : Event} {progress : Progress σ}
    (h : RunsBy executor start trace (.more drive)) (step : Step drive event progress)
    (hdone : event.done? = none) (hseen : progress.seen = drive.seen) :
    RunsBy executor start (trace ++ [event]) progress := by
  refine ⟨h.runs.snoc step, ?_⟩
  rw [List.filterMap_append, List.filterMap_cons_none hdone, List.filterMap_nil, List.append_nil,
    hseen]
  exact h.tasks

/-- What the driver takes is nothing that the executor does. -/
theorem RunsBy.taken {event : Event} {progress : Progress σ}
    (h : RunsBy executor start trace (.more drive)) (htaken : event.IsTaken)
    (step : Step drive event progress) : RunsBy executor start (trace ++ [event]) progress := by
  have hstep := step
  cases hstep with
  | heard => exact h.other step rfl (seen_obey ..)
  | left => exact h.other step rfl rfl
  | received => exact h.other step rfl (seen_obey ..)
  | closed => exact htaken.elim
  | performed => exact htaken.elim
  | called => exact htaken.elim
  | hungUp => exact htaken.elim

/-- Calls come one after the other. -/
theorem runs_called (h : RunsBy executor start trace (.more drive)) (open_ : drive.hungUp = false)
    (calls : List (Option String)) :
    ∃ trace, RunsBy executor start trace (.more { drive with calls := drive.calls ++ calls }) := by
  induction calls generalizing drive trace with
  | nil => exact ⟨trace, by simpa using h⟩
  | cons reason rest ih =>
    obtain ⟨trace, hruns⟩ := ih (h.other (.called reason open_) rfl rfl) open_
    exact ⟨trace, by simpa using hruns⟩

/-- The executor does a task, and the calls of that time come. -/
theorem runs_work {next : Drive σ} (faithful : executor.Faithful)
    (h : RunsBy executor start trace (.more drive)) (hwork : drive.work executor = some next) :
    ∃ trace, RunsBy executor start trace (.more next) := by
  unfold work at hwork
  split at hwork
  · cases hwork
  · rename_i dispatch tasks htasks
    cases hwork
    have hbegun : drive.tasks = [] ++ dispatch :: tasks := htasks
    obtain ⟨⟨calls, performance⟩, hdoes⟩ :
      ∃ does, executor drive.seen.length dispatch = does := ⟨_, rfl⟩
    have hfaithful : performance.Faithful dispatch := by
      have hnumbered := faithful drive.seen.length dispatch
      rwa [hdoes] at hnumbered
    have hdone : RunsBy executor start (trace ++ [.performed dispatch performance])
        (.more (drive.perform dispatch performance tasks)) := by
      refine ⟨h.runs.snoc (.performed hbegun hfaithful), ?_⟩
      show _ = (drive.seen ++ [dispatch]).mapIdx _
      rw [List.filterMap_append, h.tasks, List.mapIdx_concat, hdoes]
      rfl
    rw [hdoes]
    cases hnobody : drive.hungUp with
    | true => exact ⟨_, by simpa [perform, hnobody] using hdone⟩
    | false =>
      obtain ⟨trace, hruns⟩ := runs_called hdone hnobody calls
      exact ⟨trace, by simpa [perform, hnobody] using hruns⟩

theorem runs_step (faithful : executor.Faithful)
    (h : RunsBy executor start trace (.more drive)) :
    ∃ trace, RunsBy executor start trace (drive.step executor) := by
  unfold step
  split
  · rename_i progress htake
    obtain ⟨event, htaken, hstep⟩ := take_eq_some_iff.1 htake
    exact ⟨_, h.taken htaken hstep⟩
  · rename_i hstuck
    split
    · rename_i hwork
      exact runs_work faithful h hwork
    · rename_i hwork
      refine ⟨_, h.other (.closed hstuck ?_) rfl rfl⟩
      unfold work at hwork
      split at hwork
      · assumption
      · cases hwork

/-- What is driven to its end is driven in one of these orders. -/
theorem runs_run (faithful : executor.Faithful)
    (h : RunsBy executor start trace (.more drive)) :
    ∃ trace, RunsBy executor start trace (.ended (drive.run executor)) := by
  fun_induction run executor drive generalizing trace with
  | case1 drive driven hstep => exact hstep ▸ runs_step faithful h
  | case2 drive next hstep ih =>
    obtain ⟨trace, hruns⟩ := runs_step faithful h
    exact ih (hstep ▸ hruns)

end

theorem runs_toEnd (session : Session σ) (target : Target) (environment : String)
    {executor : Executor} (faithful : executor.Faithful) (calls : List (Option String))
    (hungUp : Bool) :
    ∃ trace, RunsBy executor (begin session target environment calls hungUp) trace
      (.ended (toEnd session target environment executor calls hungUp)) := by
  have hstart : RunsBy executor (begin session target environment calls hungUp) []
      (begin session target environment calls hungUp) :=
    ⟨.nil, by rw [seen_begin]; rfl⟩
  unfold toEnd
  cases hbegin : begin session target environment calls hungUp with
  | ended driven => exact ⟨[], hbegin ▸ hstart⟩
  | more drive => exact runs_run faithful (hbegin ▸ hstart)

end Drive

end RequestFlow
