import RequestFlow.Proofs.Session.Moves

/-!
# Messages without a trace

A session is told more than it needs to hear: a reply comes twice, or after the end of its run; a
start is turned down; a run is called to stop again. Such a message changes nothing, and everything
else is answered as if it had never come. A token is counted once and belongs to the request that is
out or to none, so a reply that was taken is not taken again, in its own run or in a later one.

* `Session.Ignores`: the messages that a session ignores;
* `Session.token_receive`: what a message does to the tokens;
* `Session.spent_receive`: a token that is spent stays so;
* `Session.kept_of_redundant`: what can be left out of some messages;
* `Session.redundant_messages`: all of this, for every session that can be reached.
-/

namespace RequestFlow

/-- The token of the request that an answer wants sent. -/
def sentToken? : Except StartFault Command → Option Nat
  | .ok (.dispatch dispatch) => some dispatch.token
  | _ => none

/-- Messages, each with a mark where it can be left out. -/
abbrev Script := List (Message × Bool)

namespace Script

/-- All messages of a script. -/
def whole (script : Script) : List Message := script.map Prod.fst

/-- What belongs to the messages without a mark, of what belongs to all messages in order. -/
def pick {α : Type} (script : Script) (items : List α) : List α :=
  ((script.zip items).filter fun entry => !entry.1.2).map Prod.snd

/-- The messages without a mark. -/
def kept (script : Script) : List Message := script.pick script.whole

theorem whole_append (first second : Script) :
    Script.whole (first ++ second) = first.whole ++ second.whole := List.map_append

theorem kept_append (first second : Script) :
    Script.kept (first ++ second) = first.kept ++ second.kept := by
  have hlength : first.length = first.whole.length := (List.length_map Prod.fst).symm
  simp only [kept, pick, whole_append, List.zip_append hlength, List.filter_append,
    List.map_append]

end Script

namespace Session

variable {σ : Type} {session : Session σ}

/-- A request with this token is out. -/
def IsOut (session : Session σ) (token : Nat) : Prop :=
  ∃ run pending, session.run = some run ∧ run.pending = some pending ∧ pending.token = token

/-- The messages that a session ignores: replies to anything but the request that is out, starts
that are turned down, and calls to stop where no run is active or the run has been called before. -/
def Ignores (session : Session σ) : Message → Prop
  | .start target environment =>
    ∃ fault, (Drive.start session target environment).answer = .error fault
  | .respond token _ => ¬ session.IsOut token
  | .cancel _ => ∀ run, session.run = some run → run.isCanceled = true

/-- The message brings a reply to a request whose reply was taken among earlier messages. -/
def Repeats (session : Session σ) (earlier : List Message) : Message → Prop
  | .respond token _ =>
    ∃ before reply after, earlier = before ++ .respond token reply :: after ∧
      (session.after before).IsOut token
  | _ => False

/-! ## What a session ignores changes nothing -/

theorem awaiting?_eq_none {token : Nat} (h : ¬ session.IsOut token) :
    session.awaiting? token = none := by
  cases hrun : session.run with
  | none => simp [awaiting?, hrun]
  | some run =>
    cases hpending : run.pending with
    | none => simp [awaiting?, hrun, hpending]
    | some pending =>
      rw [awaiting?_eq hrun hpending, if_neg]
      exact fun htoken => h ⟨run, pending, hrun, hpending, htoken⟩

theorem receive_of_ignores {message : Message} (h : session.Ignores message) :
    (session.receive message).session = session := by
  cases message with
  | start target environment =>
    obtain ⟨fault, hfault⟩ := h
    rcases session.start_cases target environment with ⟨_, _, heq⟩ | ⟨_, _, _, -, heq⟩
    · rw [receive, heq]
    · rw [heq] at hfault
      cases hfault
  | respond token reply =>
    show (session.respond token reply).session = session
    rw [respond, awaiting?_eq_none h]
  | cancel reason =>
    show (session.cancel reason).session = session
    cases hrun : session.run with
    | none => rw [cancel_of_idle_session hrun]
    | some run => rw [cancel_of_canceled hrun (h run hrun)]

/-- Replies and calls to stop that are ignored are answered with nothing to do. -/
theorem answer_of_ignores {message : Message} (h : session.Ignores message) :
    (∃ fault, (session.receive message).answer = .error fault) ∨
      (session.receive message).answer = .ok .idle := by
  cases message with
  | start target environment => exact .inl h
  | respond token reply =>
    right
    show Except.ok (session.respond token reply).answer = _
    rw [respond, awaiting?_eq_none h]
  | cancel reason =>
    right
    show Except.ok (session.cancel reason).answer = _
    cases hrun : session.run with
    | none => rw [cancel_of_idle_session hrun]
    | some run => rw [cancel_of_canceled hrun (h run hrun)]

/-! ## Tokens -/

theorem not_isOut_of_idle (h : session.run = none) (token : Nat) : ¬ session.IsOut token := by
  rintro ⟨run, pending, hrun, -⟩
  cases h.symm.trans hrun

/-- The request that is out has the last token. -/
theorem AtRest.token_eq {token : Nat} (h : session.AtRest) (hout : session.IsOut token) :
    token + 1 = session.nextToken := by
  obtain ⟨run, pending, hrun, hpending, rfl⟩ := hout
  obtain ⟨waiting, hrest⟩ := h run hrun
  cases hpending.symm.trans hrest.isPending
  exact hrest.token

/-- What a reaction does to the tokens: the next one goes to the request that it wants sent, or all
is as before, but that a request may no longer be out. -/
inductive Counts (session : Session σ) : Session σ → Option Nat → Prop where
  | sent {later : Session σ} (next : later.nextToken = session.nextToken + 1) :
      Counts session later (some session.nextToken)
  | kept {later : Session σ} (next : later.nextToken = session.nextToken)
      (out : ∀ token, later.IsOut token → session.IsOut token) : Counts session later none

theorem counts_refl (session : Session σ) : session.Counts session none :=
  .kept rfl fun _ hout => hout

theorem nextToken_finish (session : Session σ) (run : Run) :
    (session.finish run).session.nextToken = session.nextToken := by
  unfold finish Run.finalize
  cases run.finalized <;> rfl

theorem counts_finish (session : Session σ) (run : Run) :
    session.Counts (session.finish run).session none :=
  .kept (nextToken_finish session run) fun token hout =>
    (not_isOut_of_idle (run_finish session run) token hout).elim

/-- The request that a transition sends gets the next token. -/
theorem counts_follow {transition : Transition}
    (h : transition.Sound session.document session.nextToken) :
    session.Counts (session.follow transition).session
      (sentToken? (.ok (session.follow transition).answer)) := by
  cases hdispatch : transition.dispatch with
  | some dispatch =>
    obtain ⟨pending, hrest, htoken, -⟩ := h.atRest dispatch hdispatch
    have hnext : dispatch.token = session.nextToken := by
      have := hrest.token
      omega
    simp only [follow, hdispatch, sentToken?, hnext]
    exact .sent rfl
  | none =>
    have hquiet : sentToken? (.ok (session.finish transition.run).answer) = none := by
      rw [finish_of_open session h.finalized]
      rfl
    simp only [follow, hdispatch, Reaction.announce, hquiet]
    exact counts_finish session transition.run

/-- What a message does to the tokens of a session. -/
theorem token_receive (h : session.AtRest) (message : Message) :
    session.Counts (session.receive message).session
      (sentToken? (session.receive message).answer) := by
  have hmoves := moves_receive h message
  generalize session.course message = course at hmoves
  generalize session.receive message = reaction at hmoves
  cases hmoves with
  | ignored quiet => rcases quiet with ⟨fault, rfl⟩ | rfl <;> exact counts_refl session
  | @called run pending reason active rests first =>
    refine .kept rfl ?_
    rintro token ⟨_, waiting, ⟨⟩, hwaiting, htoken⟩
    exact ⟨run, waiting, active, hwaiting, htoken⟩
  | began => exact counts_follow (Run.sound_advance (Run.underWay_start ..))
  | ended active rests resumes => exact counts_follow (sound_of_ended rests resumes)
  | resumed active rests plain recorded goes =>
    exact counts_follow (Run.sound_advance (rests.underWay plain (recorded ▸ rfl) goes))

/-- The tokens of the requests that a session wants sent are counted on, one by one. -/
theorem tokens_answers (h : session.AtRest) (messages : List Message) :
    (session.answers messages).filterMap sentToken? =
      List.range' session.nextToken
        ((session.answers messages).filterMap sentToken?).length := by
  induction messages generalizing session with
  | nil => rfl
  | cons message rest ih =>
    have hcounts := token_receive h message
    have hrest := ih (atRest_receive session message h)
    rw [answers, List.filterMap_cons]
    generalize sentToken? (session.receive message).answer = sent at hcounts
    cases hcounts with
    | sent next =>
      rw [next] at hrest
      rw [List.length_cons, List.range'_succ, ← hrest]
    | kept next =>
      rw [next] at hrest
      exact hrest

/-! ## A reply is taken once -/

/-- A token that has been counted, and whose request is not out any more. -/
def Spent (session : Session σ) (token : Nat) : Prop :=
  token < session.nextToken ∧ ¬ session.IsOut token

theorem spent_receive {token : Nat} (h : session.AtRest) (hspent : session.Spent token)
    (message : Message) : (session.receive message).session.Spent token := by
  have hcounts := token_receive h message
  have hrest := atRest_receive session message h
  generalize sentToken? (session.receive message).answer = sent at hcounts
  generalize (session.receive message).session = later at hcounts hrest
  obtain ⟨hlt, hin⟩ := hspent
  cases hcounts with
  | sent next =>
    refine ⟨by omega, fun hout => ?_⟩
    have := hrest.token_eq hout
    omega
  | kept next out => exact ⟨by omega, fun hout => hin (out token hout)⟩

theorem spent_after {token : Nat} (h : session.AtRest) (hspent : session.Spent token)
    (messages : List Message) : (session.after messages).Spent token :=
  (after_induction (P := fun later => later.AtRest ∧ later.Spent token)
    (fun later message hlater =>
      ⟨atRest_receive later message hlater.1, spent_receive hlater.1 hlater.2 message⟩)
    ⟨h, hspent⟩ messages).2

/-- The reply to the request that is out spends its token. -/
theorem spent_respond {token : Nat} (h : session.AtRest) (hout : session.IsOut token)
    (reply : Reply) : (session.receive (.respond token reply)).session.Spent token := by
  have hlast := h.token_eq hout
  obtain ⟨run, pending, hrun, hpending, rfl⟩ := hout
  obtain ⟨waiting, hrest⟩ := h run hrun
  cases hpending.symm.trans hrest.isPending
  have hlater := atRest_receive session (.respond pending.token reply) h
  rw [receive, respond_of_pending hrun hpending] at hlater ⊢
  cases hdispatch :
      (run.taken.resume session.setting session.nextToken pending reply).dispatch with
  | some dispatch =>
    simp only [follow, hdispatch, Reaction.map] at hlater ⊢
    refine ⟨Nat.lt_succ_of_lt (by omega), fun hout => ?_⟩
    have := hlater.token_eq hout
    simp only at this
    omega
  | none =>
    simp only [follow, hdispatch, Reaction.map, Reaction.announce]
    refine ⟨?_, not_isOut_of_idle (run_finish session _) _⟩
    rw [nextToken_finish]
    omega

/-- A reply that was taken among earlier messages is ignored after them. -/
theorem ignores_of_repeats {earlier : List Message} {message : Message} (h : session.AtRest)
    (hrepeats : session.Repeats earlier message) : (session.after earlier).Ignores message := by
  cases message with
  | start => exact hrepeats.elim
  | cancel => exact hrepeats.elim
  | respond token again =>
    obtain ⟨before, reply, after, rfl, hout⟩ := hrepeats
    have hbefore : (session.after before).AtRest := after_induction atRest_receive h before
    have hspent := spent_respond hbefore hout reply
    have htaken := atRest_receive _ (.respond token reply) hbefore
    rw [after_append]
    exact (spent_after htaken hspent after).2

/-! ## Leaving messages out -/

/-- A message that can be left out of a script: the session ignores it where it comes, or it repeats
a reply that was taken among the earlier messages without a mark. -/
def Redundant (session : Session σ) (earlier : Script) (message : Message) : Prop :=
  (session.after earlier.whole).Ignores message ∨ session.Repeats earlier.kept message

/-- What comes of a script from some place on, with its redundant messages and without them. -/
theorem kept_of_redundant (h : session.AtRest) (earlier script : Script)
    (hsame : session.after earlier.kept = session.after earlier.whole)
    (hmarks : ∀ before message after, script = before ++ (message, true) :: after →
      session.Redundant (earlier ++ before) message) :
    (session.after earlier.whole).answers script.kept =
        script.pick ((session.after earlier.whole).answers script.whole) ∧
      session.after (Script.kept (earlier ++ script)) =
        session.after (Script.whole (earlier ++ script)) := by
  -- On what is left of the script: the two sessions agree after what came before.
  induction script generalizing earlier with
  | nil =>
    rw [List.append_nil]
    exact ⟨rfl, hsame⟩
  | cons entry rest ih =>
    obtain ⟨message, marked⟩ := entry
    let later : Script := earlier ++ [(message, marked)]
    have hlater : earlier ++ (message, marked) :: rest = later ++ rest := List.append_cons ..
    have hwhole : session.after later.whole =
        ((session.after earlier.whole).receive message).session := by
      rw [Script.whole_append, after_append]
      rfl
    have hmarks' : ∀ before other after, rest = before ++ (other, true) :: after →
        session.Redundant (later ++ before) other := by
      rintro before other after rfl
      rw [← List.append_cons]
      exact hmarks ((message, marked) :: before) other after rfl
    rw [hlater]
    cases marked with
    | false =>
      have hkept : session.after later.kept = session.after later.whole := by
        rw [Script.kept_append, after_append, hsame, hwhole]
        rfl
      obtain ⟨hanswers, hend⟩ := ih later hkept hmarks'
      rw [hwhole] at hanswers
      refine ⟨?_, hend⟩
      show ((session.after earlier.whole).receive message).answer ::
        ((session.after earlier.whole).receive message).session.answers (Script.kept rest) = _
      rw [hanswers]
      rfl
    | true =>
      have hignores : (session.after earlier.whole).Ignores message := by
        rcases hmarks [] message rest rfl with hignores | hrepeats
        · rwa [List.append_nil] at hignores
        · rw [← hsame]
          rw [List.append_nil] at hrepeats
          exact ignores_of_repeats h hrepeats
      have hstays := receive_of_ignores hignores
      have hkept : session.after later.kept = session.after later.whole := by
        rw [Script.kept_append, after_append, hsame, hwhole, hstays]
        rfl
      obtain ⟨hanswers, hend⟩ := ih later hkept hmarks'
      rw [hwhole, hstays] at hanswers
      refine ⟨?_, hend⟩
      show (session.after earlier.whole).answers (Script.kept rest) = Script.pick rest
        (((session.after earlier.whole).receive message).session.answers (Script.whole rest))
      rw [hstays]
      exact hanswers

/-- A session counts the tokens of its requests from one, over all its runs. A message that it
ignores changes nothing. So messages that are ignored, and replies that were taken before, can be
left out of any messages or be put in: all others are answered alike, and the session is the same in
the end. -/
theorem redundant_messages (document : Document) (evaluator : Evaluator)
    (recorder : Option (Recorder σ)) (store : σ) :
    let fresh := new document evaluator recorder store
    (∀ messages, (fresh.answers messages).filterMap sentToken? =
      List.range' 1 ((fresh.answers messages).filterMap sentToken?).length) ∧
    (∀ messages message, (fresh.after messages).Ignores message →
      ((fresh.after messages).receive message).session = fresh.after messages ∧
        ((∃ fault, ((fresh.after messages).receive message).answer = .error fault) ∨
          ((fresh.after messages).receive message).answer = .ok .idle)) ∧
    ∀ script : Script,
      (∀ before message after, script = before ++ (message, true) :: after →
        fresh.Redundant before message) →
      fresh.answers script.kept = script.pick (fresh.answers script.whole) ∧
        fresh.after script.kept = fresh.after script.whole := by
  intro fresh
  have hrest : fresh.AtRest := atRest_of_idle rfl
  refine ⟨tokens_answers hrest, fun messages message hignores => ?_, fun script hmarks => ?_⟩
  · exact ⟨receive_of_ignores hignores, answer_of_ignores hignores⟩
  · exact kept_of_redundant hrest [] script rfl hmarks

end Session

end RequestFlow
