import Mathlib.Data.List.Forall2
import RequestFlow.Proofs.Drive.Interleaving
import RequestFlow.Proofs.Session.Cancellation
import RequestFlow.Proofs.Session.History
import RequestFlow.Proofs.Session.Traceless

/-!
# The protocol of a driver

Whatever the order in which things happen, a driver has exactly one thing to wait for: a task that
is not done, or its delivery. So every dispatch is done once and its delivery is taken once, and the
session that is driven is the one that is told the same calls and replies with nobody around it.
There is always something to come, and the run ends in its report.

* `Session.Asks`: what a reply to the request that is out brings;
* `Session.asked_of_stopping`: a run that has been called to stop asks for nothing more;
* `Drive.Waits`: what holds while a drive goes on;
* `Driven.Reports`: what holds once it is over;
* `Drive.driven_in_any_order`: these hold after any events.
-/

namespace RequestFlow

namespace Session

variable {σ : Type} {session : Session σ}

/-! ## What is asked of a driver -/

/-- The session wants the next request sent, which is then out; or it tells a report, and no run is
left. -/
inductive Asks (reaction : Reaction σ Command) : Prop where
  | sent {dispatch : Dispatch} (answer : reaction.answer = .dispatch dispatch)
      (out : reaction.session.IsOut dispatch.token)
  | reported {report : Report} (answer : reaction.answer = .completed report)
      (idle : reaction.session.run = none)

theorem asks_follow {transition : Transition}
    (h : transition.Sound session.document session.nextToken) :
    Asks (session.follow transition) := by
  cases hdispatch : transition.dispatch with
  | some dispatch =>
    obtain ⟨pending, hrest, htoken, -⟩ := h.atRest dispatch hdispatch
    have hfollow : session.follow transition =
        ⟨{ session with run := some transition.run, nextToken := session.nextToken + 1 },
          .dispatch dispatch, transition.notices⟩ := by
      rw [follow, hdispatch]
    rw [hfollow]
    exact .sent rfl ⟨transition.run, pending, rfl, hrest.isPending, htoken.symm⟩
  | none =>
    have hfollow : session.follow transition =
        (session.finish transition.run).announce transition.notices := by
      rw [follow, hdispatch]
    rw [hfollow, finish_of_open session h.finalized]
    exact .reported rfl rfl

/-- A run that begins asks for something. -/
theorem asks_begin (session : Session σ) (workflow : Workflow) (origin : Origin)
    (environment : String) (vars : TextMap) :
    Asks (session.begin (.start workflow origin environment vars)) := by
  have hasks : Asks (session.follow ((Run.start workflow origin environment vars).advance
      session.setting session.nextToken)) :=
    asks_follow (Run.sound_advance (Run.underWay_start ..))
  cases hasks with
  | sent answer out => exact .sent answer out
  | reported answer idle => exact .reported answer idle

/-- So does one whose request is answered. -/
theorem asks_respond {token : Nat} (h : session.AtRest) (hout : session.IsOut token)
    (reply : Reply) : Asks (session.respond token reply) := by
  obtain ⟨run, pending, hrun, hpending, rfl⟩ := hout
  obtain ⟨waiting, hrest⟩ := h run hrun
  cases hpending.symm.trans hrest.isPending
  rw [respond_of_pending hrun hpending]
  exact asks_follow (Run.sound_resume hrest reply)

/-- A call to cancel leaves the request out. -/
theorem isOut_cancel {token : Nat} (h : session.AtRest) (hout : session.IsOut token)
    (reason : Option String) : (session.cancel reason).session.IsOut token := by
  obtain ⟨run, pending, hrun, hpending, htoken⟩ := hout
  obtain ⟨waiting, hrest⟩ := h run hrun
  rw [cancel_session hrun hrest reason]
  exact ⟨_, pending, rfl, hpending, htoken⟩

/-! ## After a call to cancel -/

/-- No run is active, or it has been called to stop. -/
def Stopping (session : Session σ) : Prop := session.Has fun run => run.isCanceled = true

theorem stopping_cancel (h : session.AtRest) (reason : Option String) :
    (session.cancel reason).session.Stopping := by
  intro later hlater
  cases hrun : session.run with
  | none =>
    rw [cancel_of_idle_session hrun] at hlater
    cases hrun.symm.trans hlater
  | some run =>
    obtain ⟨pending, hrest⟩ := h run hrun
    rw [cancel_session hrun hrest reason] at hlater
    cases hlater
    rfl

/-- A message that starts nothing leaves a session that stops as it is, and is not answered with a
request. -/
theorem stopping_receive (h : session.AtRest) (hstops : session.Stopping) {message : Message}
    (hplain : ∀ target environment, message ≠ .start target environment) :
    (session.receive message).session.Stopping ∧
      asked? (session.receive message).answer = none := by
  have hmoves := moves_receive h message
  generalize session.course message = course at hmoves
  generalize session.receive message = reaction at hmoves
  cases hmoves with
  | ignored quiet =>
    refine ⟨hstops, ?_⟩
    rcases quiet with ⟨fault, rfl⟩ | rfl <;> rfl
  | called =>
    refine ⟨?_, rfl⟩
    rintro _ ⟨⟩
    rfl
  | began => exact (hplain _ _ rfl).elim
  | @ended run closed pending reply notices =>
    constructor
    · intro later hlater
      cases (run_finish session closed).symm.trans hlater
    · exact asked?_follow session ⟨closed, none, notices⟩
  | resumed active rests plain =>
    have hcanceled : Run.isCanceled _ = true := hstops _ active
    simp [Run.isCanceled, plain] at hcanceled

/-- A session that stops asks for nothing more, until it is started again. -/
theorem asked_of_stopping (h : session.AtRest) (hstops : session.Stopping)
    {messages : List Message}
    (hplain : ∀ target environment, Message.start target environment ∉ messages) :
    (session.answers messages).filterMap asked? = [] := by
  induction messages generalizing session with
  | nil => rfl
  | cons message rest ih =>
    have hfirst : ∀ target environment, message ≠ .start target environment :=
      fun target environment heq => hplain target environment (heq ▸ List.mem_cons_self)
    obtain ⟨hlater, hnone⟩ := stopping_receive h hstops hfirst
    rw [answers, List.filterMap_cons_none hnone]
    exact ih (atRest_receive session message h) hlater fun target environment hmem =>
      hplain target environment (List.mem_cons_of_mem _ hmem)

/-! ## What was said -/

/-- What a session was told and what it has become, with the requests it asked for and the reports
it told on the way. -/
structure Spoken (session : Session σ) (told : List Message) (now : Session σ)
    (asked : List Dispatch) (reports : List Report) : Prop where
  now : now = session.after told
  asked : (session.answers told).filterMap asked? = asked
  reported : (session.answers told).filterMap reported? = reports

theorem Spoken.nil (session : Session σ) : session.Spoken [] session [] [] := ⟨rfl, rfl, rfl⟩

theorem Spoken.receive {told : List Message} {now : Session σ} {asked : List Dispatch}
    {reports : List Report} (h : session.Spoken told now asked reports) (message : Message) :
    session.Spoken (told ++ [message]) (now.receive message).session
      (asked ++ (asked? (now.receive message).answer).toList)
      (reports ++ (reported? (now.receive message).answer).toList) := by
  constructor
  · rw [after_append, ← h.now]
    rfl
  · rw [answers_append, List.filterMap_append, h.asked, ← h.now]
    rfl
  · rw [answers_append, List.filterMap_append, h.reported, ← h.now]
    rfl

end Session

namespace Drive

variable {σ : Type}

/-! ## What the driver does about it -/

section Obeying

variable {drive : Drive σ}

theorem obey_of_idle {reaction : Reaction σ Command} (hanswer : reaction.answer = .idle)
    (hrunning : reaction.session.isRunning = true) :
    drive.obey reaction = .more { drive with
      session := reaction.session, notices := drive.notices ++ reaction.notices } := by
  simp [obey, hanswer, hrunning]

theorem obey_of_dispatch {reaction : Reaction σ Command} {dispatch : Dispatch}
    (hanswer : reaction.answer = .dispatch dispatch) :
    drive.obey reaction = .more { drive with
      session := reaction.session
      notices := drive.notices ++ reaction.notices
      tasks := drive.tasks ++ [dispatch] } := by
  simp [obey, hanswer]

theorem obey_of_completed {reaction : Reaction σ Command} {report : Report}
    (hanswer : reaction.answer = .completed report) :
    drive.obey reaction =
      .ended ⟨reaction.session, .ok report, drive.seen, drive.notices ++ reaction.notices⟩ := by
  simp [obey, hanswer, finish]

end Obeying

/-! ## What happened -/

namespace Event

/-- What the session is told when something happens. -/
def message? : Event → Option Message
  | heard reason => some (.cancel reason)
  | received delivery => some (.respond delivery.token delivery.reply)
  | _ => none

/-- The delivery that is taken. -/
def taken? : Event → Option Delivery
  | received delivery => some delivery
  | _ => none

end Event

/-- What the session is told in a drive. -/
def told (target : Target) (environment : String) (trace : List Event) : List Message :=
  .start target environment :: trace.filterMap Event.message?

/-- What the executor did: `seen` are the dispatches. What its tasks brought has been taken in turn,
but for `deliveries`, which are not taken yet. -/
structure Worked (trace : List Event) (seen : List Dispatch) (deliveries : List Delivery) :
    Prop where
  performed : (trace.filterMap Event.done?).map Prod.fst = seen
  delivered : List.Forall₂ (fun task delivery => task.2.Brings task.1 delivery)
    (trace.filterMap Event.done?) (trace.filterMap Event.taken? ++ deliveries)
  faithful : ∀ task ∈ trace.filterMap Event.done?, task.2.Faithful task.1

/-- A drive that goes on: its one task or its one delivery is that of the request that is out. -/
structure Waits (drive : Drive σ) (session : Session σ) (told : List Message)
    (trace : List Event) : Prop where
  spoken : session.Spoken told drive.session (drive.seen ++ drive.tasks) []
  worked : Worked trace drive.seen drive.deliveries
  one : ∃ token, drive.session.IsOut token ∧
    drive.tasks.map Dispatch.token ++ drive.deliveries.map Delivery.token = [token]

end Drive

variable {σ : Type} {session : Session σ}

/-- A drive that was turned down at its start. -/
structure Driven.Refused (driven : Driven σ) (session : Session σ) (told : List Message)
    (trace : List Drive.Event) (fault : StartFault) : Prop where
  result : driven.result = .error (.start fault)
  unchanged : driven.session = session
  answer : session.answers told = [.error fault]
  seen : driven.seen = []
  trace : trace = []

/-- A drive that ended in a report: all that was asked for was done, all that was brought back was
taken, and the report is the last answer to what the session was told. -/
structure Driven.Reports (driven : Driven σ) (session : Session σ) (told : List Message)
    (trace : List Drive.Event) (report : Report) : Prop where
  result : driven.result = .ok report
  idle : driven.session.run = none
  spoken : session.Spoken told driven.session driven.seen [report]
  last : (session.answers told).getLast? = some (.ok (.completed report))
  worked : Drive.Worked trace driven.seen []

namespace Drive

variable {drive : Drive σ}

/-- What holds of a driver after some events. -/
def Holds (session : Session σ) (told : List Message) (trace : List Event) : Progress σ → Prop
  | .more drive => drive.Waits session told trace
  | .ended driven =>
    (∃ fault, driven.Refused session told trace fault) ∨
      ∃ report, driven.Reports session told trace report

/-! ## One event -/

theorem Worked.after {trace : List Event} {seen : List Dispatch}
    {deliveries brought left : List Delivery} (h : Worked trace seen deliveries) {event : Event}
    (faithful : ∀ task, event.done? = some task → task.2.Faithful task.1)
    (hbrought : List.Forall₂ (fun task delivery => task.2.Brings task.1 delivery)
      event.done?.toList brought)
    (hleft : event.taken?.toList ++ left = deliveries ++ brought) :
    Worked (trace ++ [event]) (seen ++ (event.done?.map Prod.fst).toList) left := by
  have hdone : (trace ++ [event]).filterMap Event.done? =
      trace.filterMap Event.done? ++ event.done?.toList := List.filterMap_append
  have htaken : (trace ++ [event]).filterMap Event.taken? =
      trace.filterMap Event.taken? ++ event.taken?.toList := List.filterMap_append
  constructor
  · rw [hdone, List.map_append, h.performed, Option.toList_map]
  · rw [hdone, htaken, List.append_assoc, hleft, ← List.append_assoc]
    exact List.rel_append h.delivered hbrought
  · rw [hdone]
    intro task hmem
    rcases List.mem_append.1 hmem with hmem | hmem
    · exact h.faithful task hmem
    · exact faithful task (Option.mem_toList.1 hmem)

/-- An event that has nothing to do with the executor. -/
theorem Worked.other {trace : List Event} {seen : List Dispatch} {deliveries : List Delivery}
    (h : Worked trace seen deliveries) {event : Event} (hdone : event.done? = none)
    (htaken : event.taken? = none) : Worked (trace ++ [event]) seen deliveries := by
  have hafter : Worked (trace ++ [event]) (seen ++ (event.done?.map Prod.fst).toList) deliveries :=
    h.after (by simp [hdone]) (by rw [hdone]; exact .nil) (by simp [htaken])
  rwa [hdone, Option.map_none, Option.toList_none, List.append_nil] at hafter

/-- What is asked of a driver that has nothing to wait for gives it one thing, or ends the drive. -/
theorem holds_obey {told : List Message} {trace : List Event} {reaction : Reaction σ Command}
    (htasks : drive.tasks = []) (hdeliveries : drive.deliveries = [])
    (hasks : Session.Asks reaction)
    (hspoken : session.Spoken told reaction.session
      (drive.seen ++ (asked? (.ok reaction.answer)).toList) (reported? (.ok reaction.answer)).toList)
    (hlast : (session.answers told).getLast? = some (.ok reaction.answer))
    (hworked : Worked trace drive.seen []) :
    Holds session told trace (drive.obey reaction) := by
  cases hasks with
  | @sent dispatch answer out =>
    rw [answer] at hspoken
    rw [obey_of_dispatch answer, htasks]
    refine ⟨hspoken, ?_, dispatch.token, out, ?_⟩
    · exact hdeliveries ▸ hworked
    · rw [hdeliveries]
      rfl
  | @reported report answer idle =>
    rw [answer] at hspoken hlast
    rw [obey_of_completed answer]
    refine .inr ⟨report, rfl, idle, ?_, hlast, hworked⟩
    exact List.append_nil drive.seen ▸ hspoken

theorem holds_begin (session : Session σ) (target : Target) (environment : String)
    (calls : List (Option String)) (hungUp : Bool) :
    Holds session (told target environment []) []
      (begin session target environment calls hungUp) := by
  rcases session.start_cases target environment with
    ⟨fault, notices, heq⟩ | ⟨workflow, origin, vars, -, heq⟩
  · have hbegin : begin session target environment calls hungUp =
        .ended ⟨session, .error (.start fault), [], notices⟩ := by
      simp only [begin, heq]
    have hanswer : session.answers (told target environment []) = [.error fault] := by
      show [(Drive.start session target environment).answer] = _
      rw [heq]
    rw [hbegin]
    exact .inl ⟨fault, rfl, rfl, hanswer, rfl, rfl⟩
  · have hbegin : begin session target environment calls hungUp =
        obey { session, calls, hungUp }
          (session.begin (.start workflow origin environment vars)) := by
      simp only [begin, heq]
      rfl
    have hspoken := (Session.Spoken.nil session).receive (.start target environment)
    simp only [Session.receive, heq] at hspoken
    rw [hbegin]
    refine holds_obey rfl rfl (session.asks_begin workflow origin environment vars) hspoken ?_
      ⟨rfl, .nil, fun _ hmem => by cases hmem⟩
    show [(Drive.start session target environment).answer].getLast? = _
    rw [heq]
    rfl

/-- Every event leaves one thing to wait for, or ends the drive in its report. -/
theorem holds_step {told : List Message} {trace : List Event} {event : Event}
    {progress : Progress σ} (h : drive.Waits session told trace) (hrest : drive.session.AtRest)
    (hstep : Step drive event progress) :
    Holds session (told ++ event.message?.toList) (trace ++ [event]) progress := by
  obtain ⟨token, hout, hone⟩ := h.one
  cases hstep with
  | @heard reason calls listens next =>
    have hquiet := Session.answer_cancel_of_atRest hrest reason
    have hstays := Session.isOut_cancel hrest hout reason
    have hrunning : (drive.session.cancel reason).session.isRunning = true := by
      obtain ⟨run, -, hrun, -⟩ := hstays
      rw [Session.isRunning, hrun, Option.isSome_some]
    have hspoken := h.spoken.receive (.cancel reason)
    simp only [Session.receive, Reaction.map, hquiet] at hspoken
    rw [obey_of_idle hquiet hrunning]
    refine ⟨?_, h.worked.other rfl rfl, token, hstays, hone⟩
    exact List.append_nil (drive.seen ++ drive.tasks) ▸ hspoken
  | left => exact ⟨by simpa [Event.message?] using h.spoken, h.worked.other rfl rfl, h.one⟩
  | @received delivery deliveries quiet next =>
    rw [next] at hone
    obtain ⟨htasks, hdeliveries, htoken⟩ :
        drive.tasks = [] ∧ deliveries = [] ∧ delivery.token = token := by
      cases htasks : drive.tasks with
      | nil => simpa [htasks, and_comm] using hone
      | cons dispatch tasks => simp [htasks] at hone
    have hasks := Session.asks_respond hrest (htoken ▸ hout) delivery.reply
    have hspoken := h.spoken.receive (.respond delivery.token delivery.reply)
    rw [htasks, List.append_nil] at hspoken
    refine holds_obey htasks hdeliveries hasks hspoken ?_ ?_
    · show (session.answers (told ++ [_])).getLast? = _
      rw [Session.answers_append, ← h.spoken.now]
      exact List.getLast?_concat
    · have hworked := h.worked
      rw [next, hdeliveries] at hworked
      exact List.append_nil drive.seen ▸ hworked.after (fun _ hnone => by cases hnone) .nil rfl
  | closed stuck done =>
    have hnone : drive.deliveries = [] := by
      unfold take at stuck
      split at stuck
      · cases stuck
      · cases stuck
      · split at stuck
        · cases stuck
        · assumption
    simp [done, hnone] at hone
  | @performed dispatch performance before after begun faithful =>
    obtain ⟨hbefore, hafter, htoken, hdeliveries⟩ : before = [] ∧ after = [] ∧
        dispatch.token = token ∧ drive.deliveries = [] := by
      rw [begun] at hone
      cases before with
      | nil => simpa [and_assoc, and_comm, and_left_comm] using hone
      | cons first before => simp at hone
    subst hbefore hafter
    have hbrings : performance.Brings dispatch (performance.delivery dispatch) :=
      Performance.brings_iff.2 rfl
    have hworked : Worked (trace ++ [.performed dispatch performance]) (drive.seen ++ [dispatch])
        (drive.deliveries ++ [performance.delivery dispatch]) :=
      h.worked.after (fun task htask => by cases htask; exact faithful) (.cons hbrings .nil) rfl
    refine ⟨?_, hworked, token, hout, ?_⟩
    · simpa [perform, begun, Event.message?] using h.spoken
    · simpa [perform, hdeliveries, htoken] using (faithful.token hbrings).trans htoken
  | called => exact ⟨by simpa [Event.message?] using h.spoken, h.worked.other rfl rfl, h.one⟩
  | hungUp => exact ⟨by simpa [Event.message?] using h.spoken, h.worked.other rfl rfl, h.one⟩

/-! ## All events -/

theorem told_concat (target : Target) (environment : String) (trace : List Event) (event : Event) :
    told target environment (trace ++ [event]) =
      told target environment trace ++ event.message?.toList := by
  cases hmessage : event.message? <;> simp [told, hmessage]

theorem holds_runs (idle : session.run = none) {target : Target} {environment : String}
    {calls : List (Option String)} {hungUp : Bool} {trace : List Event} {progress : Progress σ}
    (h : Runs (begin session target environment calls hungUp) trace progress) :
    Holds session (told target environment trace) trace progress := by
  induction h with
  | nil => exact holds_begin session target environment calls hungUp
  | snoc runs step ih =>
    rw [told_concat]
    refine holds_step ih ?_ step
    rw [ih.spoken.now]
    exact Session.after_induction Session.atRest_receive (Session.atRest_of_idle idle) _

/-! ## Once and no more -/

/-- Every dispatch that was asked for was done once, and what its task brought was taken once: what
the executor delivered, or, where the task panicked, a failure under the token of the dispatch. -/
structure Once (asked : List Dispatch) (trace : List Event) : Prop where
  distinct : (asked.map Dispatch.token).Nodup
  done : (trace.filterMap Event.done?).map Prod.fst = asked
  /-- Nothing is taken but what the tasks brought, in the order in which they were done. -/
  taken : List.Forall₂ (fun task delivery => task.2.Brings task.1 delivery)
    (trace.filterMap Event.done?) (trace.filterMap Event.taken?)
  delivered : ∀ dispatch delivery, .performed dispatch (.delivers delivery) ∈ trace →
    (trace.filterMap Event.taken?).filter (fun taken => taken.token == dispatch.token) = [delivery]
  panicked : ∀ dispatch message, .performed dispatch (.panics message) ∈ trace →
    (trace.filterMap Event.taken?).filter (fun taken => taken.token == dispatch.token) =
      [{ token := dispatch.token
         reply := {
          error := some
            ("executor task failed: task # panicked with message " ++ Text.visible message) }
         request := dispatch.request
         environment := dispatch.environment }]

section

variable {tasks : List (Dispatch × Performance)} {brought : List Delivery}

theorem tokens_brought
    (brings : List.Forall₂ (fun task delivery => task.2.Brings task.1 delivery) tasks brought)
    (faithful : ∀ task ∈ tasks, task.2.Faithful task.1) :
    brought.map Delivery.token = tasks.map fun task => task.1.token := by
  induction brings with
  | nil => rfl
  | cons hfirst _ ih =>
    obtain ⟨hfaithful, hrest⟩ := List.forall_mem_cons.1 faithful
    rw [List.map_cons, List.map_cons, hfaithful.token hfirst, ih hrest]

/-- Among deliveries under different tokens, that of a task is found by its token. -/
theorem filter_brought
    (brings : List.Forall₂ (fun task delivery => task.2.Brings task.1 delivery) tasks brought)
    (faithful : ∀ task ∈ tasks, task.2.Faithful task.1)
    (distinct : (tasks.map fun task => task.1.token).Nodup) {task : Dispatch × Performance}
    (hmem : task ∈ tasks) :
    ∃ delivery, task.2.Brings task.1 delivery ∧
      brought.filter (fun taken => taken.token == task.1.token) = [delivery] := by
  induction brings with
  | nil => cases hmem
  | @cons first delivery rest later hfirst hlater ih =>
    obtain ⟨hfresh, hdistinct⟩ := List.nodup_cons.1 distinct
    obtain ⟨hfaithful, hrest⟩ := List.forall_mem_cons.1 faithful
    have htoken : delivery.token = first.1.token := hfaithful.token hfirst
    rcases List.mem_cons.1 hmem with rfl | hmem
    · have hnone : later.filter (fun taken => taken.token == task.1.token) = [] := by
        refine List.filter_eq_nil_iff.2 fun taken htaken hsame => hfresh ?_
        rw [← tokens_brought hlater hrest]
        exact List.mem_map.2 ⟨taken, htaken, beq_iff_eq.1 hsame⟩
      refine ⟨delivery, hfirst, ?_⟩
      rw [List.filter_cons_of_pos (by simpa using htoken), hnone]
    · have hne : delivery.token ≠ task.1.token :=
        fun hsame => hfresh (List.mem_map.2 ⟨task, hmem, (htoken.symm.trans hsame).symm⟩)
      rw [List.filter_cons_of_neg (by simpa using hne)]
      exact ih hrest hdistinct hmem

end

theorem Worked.once {trace : List Event} {asked : List Dispatch} (h : Worked trace asked [])
    (distinct : (asked.map Dispatch.token).Nodup) : Once asked trace := by
  have hbrought : List.Forall₂ (fun task delivery => task.2.Brings task.1 delivery)
      (trace.filterMap Event.done?) (trace.filterMap Event.taken?) :=
    List.append_nil (trace.filterMap Event.taken?) ▸ h.delivered
  have hfound {dispatch : Dispatch} {performance : Performance}
      (hmem : .performed dispatch performance ∈ trace) :
      ∃ delivery, performance.Brings dispatch delivery ∧ (trace.filterMap Event.taken?).filter
        (fun taken => taken.token == dispatch.token) = [delivery] := by
    have hdistinct : ((trace.filterMap Event.done?).map fun task => task.1.token).Nodup := by
      rwa [← h.performed, List.map_map] at distinct
    exact filter_brought hbrought h.faithful hdistinct (mem_done.2 hmem)
  refine ⟨distinct, h.performed, hbrought, fun dispatch delivery hmem => ?_,
    fun dispatch message hmem => ?_⟩
  · obtain ⟨_, ⟨⟩, htaken⟩ := hfound hmem
    exact htaken
  · obtain ⟨_, ⟨⟩, htaken⟩ := hfound hmem
    exact htaken

/-- The requests that a session asks for have different tokens. -/
theorem distinct_asked (idle : session.run = none) (messages : List Message) :
    (((session.answers messages).filterMap asked?).map Dispatch.token).Nodup := by
  have hsent (answer : Except StartFault Command) :
      (asked? answer).map Dispatch.token = sentToken? answer := by
    rcases answer with fault | dispatch | report | _ <;> rfl
  rw [List.map_filterMap, funext hsent, Session.tokens_answers (Session.atRest_of_idle idle)]
  exact List.nodup_range'

/-- Once a call to cancel has been taken, nothing more is asked for. -/
theorem asked_of_heard (idle : session.run = none) (target : Target) (environment : String)
    (before after : List Event) (reason : Option String) :
    (session.answers (told target environment (before ++ .heard reason :: after))).filterMap asked? =
      (session.answers (told target environment before)).filterMap asked? := by
  let called := session.after (told target environment before)
  have hrest : called.AtRest :=
    Session.after_induction Session.atRest_receive (Session.atRest_of_idle idle) _
  have htold : told target environment (before ++ .heard reason :: after) =
      told target environment before ++ .cancel reason :: after.filterMap Event.message? := by
    simp [told, Event.message?]
  have hquiet : asked? (called.receive (.cancel reason)).answer = none := by
    show asked? (.ok (called.cancel reason).answer) = none
    rw [Session.answer_cancel_of_atRest hrest]
    rfl
  have hplain : ∀ target environment,
      Message.start target environment ∉ after.filterMap Event.message? := by
    intro target environment hmem
    obtain ⟨event, -, hevent⟩ := List.mem_filterMap.1 hmem
    cases event <;> cases hevent
  rw [htold, Session.answers_append, List.filterMap_append, Session.answers,
    List.filterMap_cons_none hquiet, Session.asked_of_stopping
      (Session.atRest_receive called (.cancel reason) hrest)
      (Session.stopping_cancel hrest reason) hplain, List.append_nil]

/-- Whatever the order in which tasks are done and calls come: the drive waits for the one task or
the one delivery of the request that is out, or it has ended in the report that the session gives by
itself when it is told what the driver took. Then every dispatch was done once and its delivery was
taken once. Nothing is asked for once a call to cancel has been taken. -/
theorem driven_in_any_order (idle : session.run = none) {target : Target} {environment : String}
    {calls : List (Option String)} {hungUp : Bool} {trace : List Event} {progress : Progress σ}
    (h : Runs (begin session target environment calls hungUp) trace progress) :
    let asked (trace : List Event) : List Dispatch :=
      (session.answers (told target environment trace)).filterMap asked?
    Holds session (told target environment trace) trace progress ∧
      (∀ driven, progress = .ended driven → Once (asked trace) trace) ∧
      ∀ before reason after, trace = before ++ .heard reason :: after →
        asked trace = asked before := by
  intro asked
  have hholds := holds_runs idle h
  refine ⟨hholds, ?_, ?_⟩
  · rintro driven rfl
    have hdistinct := distinct_asked idle (told target environment trace)
    rcases hholds with ⟨fault, refused⟩ | ⟨report, reports⟩
    · have hasked : asked trace = [] := by
        show List.filterMap asked? _ = []
        rw [refused.answer]
        rfl
      refine Worked.once ?_ hdistinct
      rw [hasked, refused.trace]
      exact ⟨rfl, .nil, fun _ hmem => by cases hmem⟩
    · have hasked : asked trace = driven.seen := reports.spoken.asked
      refine Worked.once ?_ hdistinct
      rw [hasked]
      exact reports.worked
  · rintro before reason after rfl
    exact asked_of_heard idle target environment before after reason

/-- A run whose executor delivers a response for the first request and panics over the second one,
while somebody calls to cancel. -/
theorem driven_in_any_order_smoke :
    let good : Reply := .ofResponse { code := 200, status := "200 OK" }
    let executor : Executor := fun number dispatch =>
      if number = 0 then ([], .delivers (dispatch.deliver good))
      else ([some "enough"], .panics "boom")
    let driven := toEnd Smoke.session (.workflow "smoke") "" executor [] false
    Smoke.session.run = none ∧ ∃ trace report first later,
      Runs (begin Smoke.session (.workflow "smoke") "" [] false) trace (.ended driven) ∧
        driven.result = .ok report ∧ driven.session.run = none ∧ driven.seen = first :: later ∧
        (trace.filterMap Event.taken?).filter (fun taken => taken.token == first.token) =
          [first.deliver good] ∧
        ∀ dispatch ∈ later,
          (trace.filterMap Event.taken?).filter (fun taken => taken.token == dispatch.token) =
            [dispatch.deliver (.failed
              "executor task failed: task # panicked with message \"boom\"")] := by
  intro good executor driven
  have faithful : executor.Faithful := by
    intro number dispatch delivery hdelivers
    by_cases hfirst : number = 0
    · simp only [executor, if_pos hfirst] at hdelivers
      cases hdelivers
      rfl
    · simp only [executor, if_neg hfirst] at hdelivers
      cases hdelivers
  obtain ⟨trace, hruns, htasks⟩ := runs_toEnd Smoke.session (.workflow "smoke") "" faithful [] false
  obtain ⟨hends, honce, -⟩ := driven_in_any_order rfl hruns
  obtain ⟨first, hanswer⟩ : ∃ dispatch,
      (Drive.start Smoke.session (.workflow "smoke") "").answer = .ok (.dispatch dispatch) := by
    obtain ⟨entered, sent, dispatch, notices, hentered, hsent⟩ : ∃ entered sent dispatch notices,
        (Run.start Smoke.workflow .workflow "" .empty).round Smoke.session.setting 1 =
            .next entered [] ∧
          entered.round Smoke.session.setting 1 = .sent sent dispatch notices :=
      ⟨_, _, _, _, rfl, rfl⟩
    exact ⟨dispatch, Session.answer_of_rounds Smoke.accepts hentered hsent⟩
  have htold : Smoke.session.answers (told (.workflow "smoke") "" trace) =
      .ok (.dispatch first) :: (Drive.start Smoke.session (.workflow "smoke") "").session.answers
        (trace.filterMap Event.message?) := congrArg (· :: _) hanswer
  rcases hends with ⟨fault, refused⟩ | ⟨report, reports⟩
  · cases (List.cons.inj (htold.symm.trans refused.answer)).1
  · obtain ⟨later, hseen⟩ : ∃ later, driven.seen = first :: later :=
      ⟨_, reports.spoken.asked.symm.trans (congrArg (List.filterMap asked?) htold)⟩
    have hdone : trace.filterMap Event.done? = (first, .delivers (first.deliver good)) ::
        later.mapIdx fun _ dispatch => (dispatch, .panics "boom") := by
      have hprogress : (Progress.ended driven).seen = first :: later := hseen
      rw [htasks, hprogress, List.mapIdx_cons]
      rfl
    refine ⟨rfl, trace, report, first, later, hruns, reports.result, reports.idle, hseen, ?_,
      fun dispatch hmem => ?_⟩
    · have hfirst : (first, .delivers (first.deliver good)) ∈ trace.filterMap Event.done? :=
        hdone ▸ List.mem_cons_self
      exact (honce driven rfl).delivered first _ (mem_done.1 hfirst)
    · obtain ⟨number, hnumber, rfl⟩ := List.mem_iff_getElem.1 hmem
      have hlater : (later[number], .panics "boom") ∈ trace.filterMap Event.done? :=
        hdone ▸ List.mem_cons_of_mem _ (List.mem_mapIdx.2 ⟨number, hnumber, rfl⟩)
      exact (honce driven rfl).panicked later[number] "boom" (mem_done.1 hlater)

/-- A target that is driven to its end ends in a report and leaves the session idle, unless its
start is turned down. -/
theorem toEnd_reports (idle : session.run = none) (target : Target) (environment : String)
    {executor : Executor} (faithful : Executor.Faithful executor) (calls : List (Option String))
    (hungUp : Bool) :
    let driven := toEnd session target environment executor calls hungUp
    (∃ fault, driven.result = .error (.start fault) ∧ driven.session = session) ∨
      ∃ report, driven.result = .ok report ∧ driven.session.run = none := by
  intro driven
  obtain ⟨trace, hruns, -⟩ := runs_toEnd session target environment faithful calls hungUp
  rcases holds_runs idle hruns with ⟨fault, refused⟩ | ⟨report, reports⟩
  · exact .inl ⟨fault, refused.result, refused.unchanged⟩
  · exact .inr ⟨report, reports.result, reports.idle⟩

end Drive

end RequestFlow
