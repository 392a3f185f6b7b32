import Mathlib.Data.List.Forall2
import RequestFlow.Proofs.Text.Blanks
import RequestFlow.Run.Verdict

/-!
# The conditions on a reply

A reply is good when it meets seven conditions, each of which can be said without the others. They
are looked at in one order, and the first that the reply does not meet words the failure: an
expectation about the status takes the place of the rule for error statuses, but not of the checks.

* `Condition.Holds`, `Condition.Violated`: what a condition asks for, and what is said where it is
  not met;
* `fault?_eq_findSome?`: the fault of a reply is the first one in the order of the conditions;
* `fault?_none_iff`, `fault?_some_iff`: the fault of one condition;
* `verdict_conditions`: the verdict in terms of the conditions, and what can only make it worse.
-/

namespace RequestFlow

open Text

/-! ## Texts of expectations -/

/-- The texts are the same up to the blanks around them and the case of ASCII letters. -/
def SayTheSame (s t : String) : Prop :=
  ∃ core core', Surrounds s.toList core ∧ Surrounds t.toList core' ∧
    core.map Char.toLower = core'.map Char.toLower

theorem Response.hasStatus_iff (response : Response) (expected : String) :
    response.hasStatus expected = true ↔ SayTheSame response.status expected := by
  rw [Response.hasStatus, beq_iff_eq]
  constructor
  · intro h
    exact ⟨_, _, surrounds_trim _, surrounds_trim _, h⟩
  · rintro ⟨core, core', hstatus, hexpected, hcase⟩
    rw [hstatus.trim_eq, hexpected.trim_eq, map_toLower_trim, map_toLower_trim, hcase]

/-- The text writes the number in decimal digits, with or without a plus sign and blanks around
them, and the number has at most 16 bits. -/
def WritesCode (text : String) (code : Nat) : Prop :=
  ∃ sign digits, Surrounds text.toList (sign ++ digits) ∧ (sign = [] ∨ sign = ['+']) ∧
    digits ≠ [] ∧ (∀ d ∈ digits, d.isDigit = true) ∧
    Nat.ofDigitChars 10 digits 0 = code ∧ code < Nat.pow 2 16

section

variable {text : String} {code : Nat}

theorem writesCode_of_statusCode? (h : statusCode? text = some code) : WritesCode text code := by
  have htext := surrounds_trim text.toList
  unfold statusCode? at h
  generalize trim text.toList = core at h htext
  have hdigits (sign digits : List Char) (hcore : core = sign ++ digits)
      (hsign : sign = [] ∨ sign = ['+'])
      (h : (if digits.isEmpty || !digits.all Char.isDigit then none
        else (some (Number.digitsValue digits)).filter (· < Nat.pow 2 16)) = some code) :
      WritesCode text code := by
    split at h
    · cases h
    · rename_i hall
      simp only [Bool.or_eq_true, not_or, Bool.not_eq_true, Bool.not_eq_false',
        List.isEmpty_eq_false_iff, List.all_eq_true, Option.filter_eq_some_iff,
        Option.some.injEq, decide_eq_true_eq] at hall h
      exact ⟨sign, digits, hcore ▸ htext, hsign, hall.1, hall.2, h.1, h.2⟩
  by_cases hplus : core.head? = some '+'
  · obtain ⟨rest, rfl⟩ := List.head?_eq_some_iff.1 hplus
    exact hdigits ['+'] rest rfl (.inr rfl) (by simpa using h)
  · exact hdigits [] core rfl (.inl rfl) (by simpa [hplus] using h)

theorem statusCode?_of_writesCode (h : WritesCode text code) : statusCode? text = some code := by
  obtain ⟨sign, digits, htext, hsign, hne, hdigits, hvalue, hbound⟩ := h
  have hvisible : ∀ c ∈ sign ++ digits, isBlank c = false := by
    intro c hc
    rcases List.mem_append.1 hc with hc | hc
    · rcases hsign with rfl | rfl
      · cases hc
      · rw [List.mem_singleton.1 hc]
        decide
    · exact isBlank_of_isDigit (hdigits c hc)
  have hcore : trim text.toList = sign ++ digits := htext.trim_eq.trans (trim_eq_self hvisible)
  have hread : (if digits.isEmpty || !digits.all Char.isDigit then none
      else (some (Number.digitsValue digits)).filter (· < Nat.pow 2 16)) = some code := by
    have hall : digits.all Char.isDigit = true := List.all_eq_true.2 hdigits
    have hvalue : Number.digitsValue digits = code := hvalue
    rw [if_neg (by simp [hne, hall]), hvalue, Option.filter_some, if_pos (by simpa using hbound)]
  rw [statusCode?, hcore]
  rcases hsign with rfl | rfl
  · obtain ⟨d, rest, rfl⟩ := List.exists_cons_of_ne_nil hne
    have hd : d ≠ '+' := by
      rintro rfl
      exact absurd (hdigits '+' List.mem_cons_self) (by decide)
    simpa [hd] using hread
  · simpa using hread

theorem statusCode?_eq_some_iff : statusCode? text = some code ↔ WritesCode text code :=
  ⟨writesCode_of_statusCode?, statusCode?_of_writesCode⟩

end

/-! ## Conditions -/

/-- The response tells of an error, by the rule of its protocol. -/
def Response.TellsOfError (response : Response) : Prop :=
  (response.protocol = .grpc ∧ response.code ≠ 0) ∨
    (response.protocol ≠ .grpc ∧ 400 ≤ response.code)

theorem Response.isError_iff (response : Response) :
    response.isError = true ↔ response.TellsOfError := by
  unfold Response.isError Response.TellsOfError
  cases response.protocol <;> simp

/-- The step has the text for an expectation. -/
def Expects (step : Option RequestStep) (key expected : String) : Prop :=
  ∃ request, step = some request ∧ request.expect.get? key = some expected

/-- The step says something on the status that it expects. -/
def ExpectsStatus (step : Option RequestStep) : Prop :=
  ∃ expected, Expects step "status" expected ∨ Expects step "statuscode" expected

theorem expectsStatus_iff (step : Option RequestStep) :
    step.any RequestStep.expectsStatus = true ↔ ExpectsStatus step := by
  cases step with
  | none => simp [ExpectsStatus, Expects]
  | some request =>
    simp [ExpectsStatus, Expects, RequestStep.expectsStatus, RequestStep.expectedStatus,
      RequestStep.expectedCode, Option.isSome_iff_exists, exists_or]

/-- The conditions on a reply. -/
inductive Condition where
  | transport
  | response
  | status
  | script
  | tests
  | statusLine
  | statusCode
deriving DecidableEq, Repr

namespace Condition

/-- The conditions in the order in which they are looked at. -/
def all : List Condition :=
  [.transport, .response, .status, .script, .tests, .statusLine, .statusCode]

/-- What a condition asks of a reply to a step. -/
def Holds (reply : Reply) (step : Option RequestStep) : Condition → Prop
  | transport => reply.error = none
  | response => reply.response ≠ none
  | status =>
    ∀ response, reply.response = some response → response.TellsOfError → ExpectsStatus step
  | script => reply.scriptError = none
  | tests => ∀ test ∈ reply.tests, test.passed = true
  | statusLine =>
    ∀ response expected, reply.response = some response → Expects step "status" expected →
      SayTheSame response.status expected
  | statusCode =>
    ∀ response expected, reply.response = some response → Expects step "statuscode" expected →
      WritesCode expected response.code

/-- A condition is not met, and what is said then. -/
inductive Violated (reply : Reply) (step : Option RequestStep) : Condition → String → Prop
  | transport {message : String} (failed : reply.error = some message) :
    Violated reply step .transport message
  | response (missing : reply.response = none) :
    Violated reply step .response "no response received"
  | status {response : Response} (came : reply.response = some response)
      (error : response.TellsOfError) (unexpected : ¬ ExpectsStatus step) :
    Violated reply step .status ("request failed with status " ++ response.statusText)
  | script {message : String} (failed : reply.scriptError = some message) :
    Violated reply step .script ("script error: " ++ message)
  | silent {before after : List TestResult} {test : TestResult}
      (tests : reply.tests = before ++ test :: after) (passed : ∀ t ∈ before, t.passed = true)
      (failed : test.passed = false) (blank : nonBlank? test.message = none) :
    Violated reply step .tests ("test '" ++ test.name ++ "' failed")
  | detailed {before after : List TestResult} {test : TestResult} {detail : String}
      (tests : reply.tests = before ++ test :: after) (passed : ∀ t ∈ before, t.passed = true)
      (failed : test.passed = false) (detailed : nonBlank? test.message = some detail) :
    Violated reply step .tests ("test '" ++ test.name ++ "' failed: " ++ detail)
  | statusLine {response : Response} {expected : String} (came : reply.response = some response)
      (expects : Expects step "status" expected) (differs : ¬ SayTheSame response.status expected) :
    Violated reply step .statusLine
      ("expected status '" ++ expected ++ "', got '" ++ response.statusText ++ "'")
  | malformed {response : Response} {expected : String} (came : reply.response = some response)
      (expects : Expects step "statuscode" expected) (malformed : ∀ code, ¬ WritesCode expected code) :
    Violated reply step .statusCode ("invalid expected status code '" ++ expected ++ "'")
  | statusCode {response : Response} {expected : String} {code : Nat}
      (came : reply.response = some response) (expects : Expects step "statuscode" expected)
      (writes : WritesCode expected code) (differs : code ≠ response.code) :
    Violated reply step .statusCode
      ("expected status code " ++ toString code ++ ", got " ++ toString response.code)

/-- The message of the first condition that is not met. -/
def FirstViolated (reply : Reply) (step : Option RequestStep) (message : String) : Prop :=
  ∃ before c after, all = before ++ c :: after ∧ (∀ d ∈ before, d.Holds reply step) ∧
    c.Violated reply step message

/-! ## The fault of each condition -/

section

variable {step : RequestStep} {response : Response} {fault : ReplyFault}

theorem statusFault?_eq_some_iff :
    step.statusFault? response = some fault ↔
      ∃ expected, step.expectedStatus = some expected ∧ ¬ SayTheSame response.status expected ∧
        fault = .wrongStatus expected response.statusText := by
  simp only [RequestStep.statusFault?, Option.bind_eq_some_iff, ← Response.hasStatus_iff]
  refine exists_congr fun expected => and_congr_right fun _ => ?_
  split
  · simp [*]
  · simp [*, eq_comm]

theorem codeFault?_eq_some_iff :
    step.codeFault? response = some fault ↔
      ∃ expected, step.expectedCode = some expected ∧
        ((∀ code, ¬ WritesCode expected code) ∧ fault = .malformedCode expected ∨
          ∃ code, WritesCode expected code ∧ code ≠ response.code ∧
            fault = .wrongCode code response.code) := by
  simp only [RequestStep.codeFault?, Option.bind_eq_some_iff, ← statusCode?_eq_some_iff]
  refine exists_congr fun expected => and_congr_right fun _ => ?_
  cases statusCode? expected with
  | none => simp [eq_comm]
  | some code =>
    by_cases hcode : code = response.code
    · simp [hcode]
    · simp [hcode, eq_comm]

end

/-- What one condition has against a reply. -/
def fault? (reply : Reply) (step : Option RequestStep) : Condition → Option ReplyFault
  | transport => reply.error.map .transport
  | response => if reply.response.isNone then some .noResponse else none
  | status => reply.response.bind (Reply.errorFault? step)
  | script => reply.scriptError.map .script
  | tests => (reply.tests.find? fun test => !test.passed).map TestResult.fault
  | statusLine => reply.response.bind fun response => step.bind (·.statusFault? response)
  | statusCode => reply.response.bind fun response => step.bind (·.codeFault? response)

variable {reply : Reply} {step : Option RequestStep}

theorem errorFault?_eq_some_iff {response : Response} {fault : ReplyFault} :
    Reply.errorFault? step response = some fault ↔
      response.TellsOfError ∧ ¬ ExpectsStatus step ∧ fault = .errorStatus response.statusText := by
  rw [Reply.errorFault?, Option.ite_none_right_eq_some, Bool.and_eq_true, Bool.not_eq_true',
    ← Response.isError_iff, ← expectsStatus_iff, Bool.not_eq_true, Option.some.injEq,
    eq_comm (a := fault), and_comm (a := _ = false), and_assoc]

/-- A check that did not pass is the first of its kind. -/
theorem testFault?_eq_some_iff {fault : ReplyFault} :
    (reply.tests.find? fun test => !test.passed).map TestResult.fault = some fault ↔
      ∃ before test after, reply.tests = before ++ test :: after ∧
        (∀ t ∈ before, t.passed = true) ∧ test.passed = false ∧ fault = test.fault := by
  simp only [Option.map_eq_some_iff, List.find?_eq_some_iff_append, Bool.not_eq_true',
    Bool.not_not]
  grind

theorem exists_fault_of_violated {c : Condition} {message : String}
    (h : c.Violated reply step message) :
    ∃ fault, c.fault? reply step = some fault ∧ fault.message = message := by
  cases h with
  | transport failed => exact ⟨_, by rw [fault?, failed]; rfl, rfl⟩
  | response missing => exact ⟨_, by rw [fault?, missing]; rfl, rfl⟩
  | status came error unexpected =>
    have hfault := errorFault?_eq_some_iff.2 ⟨error, unexpected, rfl⟩
    exact ⟨_, by rw [fault?, came]; exact hfault, rfl⟩
  | script failed => exact ⟨_, by rw [fault?, failed]; rfl, rfl⟩
  | silent tests passed failed blank =>
    refine ⟨_, testFault?_eq_some_iff.2 ⟨_, _, _, tests, passed, failed, rfl⟩, ?_⟩
    rw [TestResult.fault, blank]
    rfl
  | detailed tests passed failed detailed =>
    refine ⟨_, testFault?_eq_some_iff.2 ⟨_, _, _, tests, passed, failed, rfl⟩, ?_⟩
    rw [TestResult.fault, detailed]
    rfl
  | statusLine came expects differs =>
    obtain ⟨request, rfl, hexpected⟩ := expects
    have hfault := statusFault?_eq_some_iff.2 ⟨_, hexpected, differs, rfl⟩
    exact ⟨_, by rw [fault?, came]; exact hfault, rfl⟩
  | @malformed response _ came expects malformed =>
    obtain ⟨request, rfl, hexpected⟩ := expects
    have hfault := (@codeFault?_eq_some_iff _ response _).2
      ⟨_, hexpected, .inl ⟨malformed, rfl⟩⟩
    exact ⟨_, by rw [fault?, came]; exact hfault, rfl⟩
  | statusCode came expects writes differs =>
    obtain ⟨request, rfl, hexpected⟩ := expects
    have hfault := codeFault?_eq_some_iff.2 ⟨_, hexpected, .inr ⟨_, writes, differs, rfl⟩⟩
    exact ⟨_, by rw [fault?, came]; exact hfault, rfl⟩

theorem violated_of_fault {c : Condition} {fault : ReplyFault}
    (h : c.fault? reply step = some fault) : c.Violated reply step fault.message := by
  cases c with
  | transport =>
    obtain ⟨message, herror, rfl⟩ := Option.map_eq_some_iff.1 h
    exact .transport herror
  | response =>
    simp only [fault?, Option.ite_none_right_eq_some, Option.some.injEq] at h
    obtain ⟨hnone, rfl⟩ := h
    exact .response (Option.isNone_iff_eq_none.1 hnone)
  | status =>
    obtain ⟨response, hresponse, hfault⟩ := Option.bind_eq_some_iff.1 h
    obtain ⟨herror, hunexpected, rfl⟩ := errorFault?_eq_some_iff.1 hfault
    exact .status hresponse herror hunexpected
  | script =>
    obtain ⟨message, hscript, rfl⟩ := Option.map_eq_some_iff.1 h
    exact .script hscript
  | tests =>
    obtain ⟨before, test, after, htests, hpassed, hfailed, rfl⟩ := testFault?_eq_some_iff.1 h
    cases hdetail : nonBlank? test.message with
    | none =>
      rw [TestResult.fault, hdetail]
      exact .silent htests hpassed hfailed hdetail
    | some detail =>
      rw [TestResult.fault, hdetail]
      exact .detailed htests hpassed hfailed hdetail
  | statusLine =>
    obtain ⟨response, hresponse, hfault⟩ := Option.bind_eq_some_iff.1 h
    obtain ⟨request, hrequest, hfault⟩ := Option.bind_eq_some_iff.1 hfault
    obtain ⟨expected, hexpected, hdiffers, rfl⟩ := statusFault?_eq_some_iff.1 hfault
    exact .statusLine hresponse ⟨request, hrequest, hexpected⟩ hdiffers
  | statusCode =>
    obtain ⟨response, hresponse, hfault⟩ := Option.bind_eq_some_iff.1 h
    obtain ⟨request, hrequest, hfault⟩ := Option.bind_eq_some_iff.1 hfault
    obtain ⟨expected, hexpected, ⟨hmalformed, rfl⟩ | ⟨code, hwrites, hdiffers, rfl⟩⟩ :=
      codeFault?_eq_some_iff.1 hfault
    · exact .malformed hresponse ⟨request, hrequest, hexpected⟩ hmalformed
    · exact .statusCode hresponse ⟨request, hrequest, hexpected⟩ hwrites hdiffers

theorem not_holds_of_violated {c : Condition} {message : String}
    (h : c.Violated reply step message) : ¬ c.Holds reply step := by
  intro hholds
  cases h with
  | transport failed => cases failed.symm.trans hholds
  | response missing => exact hholds missing
  | status came error unexpected => exact unexpected (hholds _ came error)
  | script failed => cases failed.symm.trans hholds
  | silent tests _ failed | detailed tests _ failed =>
    cases failed.symm.trans (hholds _ (tests ▸ List.mem_append_right _ List.mem_cons_self))
  | statusLine came expects differs => exact differs (hholds _ _ came expects)
  | malformed came expects malformed => exact malformed _ (hholds _ _ came expects)
  | statusCode came expects writes differs =>
    have hcode := statusCode?_eq_some_iff.2 (hholds _ _ came expects)
    cases (statusCode?_eq_some_iff.2 writes).symm.trans hcode
    exact differs rfl

theorem holds_of_faultless {c : Condition} (h : c.fault? reply step = none) :
    c.Holds reply step := by
  cases c with
  | transport => exact Option.map_eq_none_iff.1 h
  | response =>
    intro hnone
    rw [fault?, hnone] at h
    cases h
  | status =>
    intro response hresponse herror
    refine Classical.byContradiction fun hunexpected => ?_
    have hfault := errorFault?_eq_some_iff.2 ⟨herror, hunexpected, rfl⟩
    rw [fault?, hresponse] at h
    cases hfault.symm.trans h
  | script => exact Option.map_eq_none_iff.1 h
  | tests =>
    intro test htest
    simpa using List.find?_eq_none.1 (Option.map_eq_none_iff.1 h) test htest
  | statusLine =>
    rintro response expected hresponse ⟨request, rfl, hexpected⟩
    refine Classical.byContradiction fun hdiffers => ?_
    have hfault := statusFault?_eq_some_iff.2 ⟨expected, hexpected, hdiffers, rfl⟩
    rw [fault?, hresponse] at h
    cases hfault.symm.trans h
  | statusCode =>
    rintro response expected hresponse ⟨request, rfl, hexpected⟩
    refine Classical.byContradiction fun hdiffers => ?_
    obtain ⟨fault, hfault⟩ : ∃ fault, request.codeFault? response = some fault := by
      by_cases hwrites : ∃ code, WritesCode expected code
      · obtain ⟨code, hwrites⟩ := hwrites
        have hcode : code ≠ response.code := fun hcode => hdiffers (hcode ▸ hwrites)
        exact ⟨_, codeFault?_eq_some_iff.2 ⟨_, hexpected, .inr ⟨_, hwrites, hcode, rfl⟩⟩⟩
      · exact ⟨_, codeFault?_eq_some_iff.2 ⟨_, hexpected, .inl ⟨not_exists.1 hwrites, rfl⟩⟩⟩
    rw [fault?, hresponse] at h
    cases hfault.symm.trans h

/-- A condition has nothing against a reply that meets it. -/
theorem faultless_iff {c : Condition} : c.fault? reply step = none ↔ c.Holds reply step := by
  refine ⟨holds_of_faultless, fun hholds => Option.eq_none_iff_forall_ne_some.2 fun fault h => ?_⟩
  exact not_holds_of_violated (violated_of_fault h) hholds

end Condition

namespace Reply

variable {reply : Reply} {step : Option RequestStep}

/-- The fault of a reply is the first one in the order of the conditions. -/
theorem fault?_eq_findSome? (reply : Reply) (step : Option RequestStep) :
    reply.fault? step = Condition.all.findSome? (Condition.fault? reply step) := by
  cases herror : reply.error with
  | some message => simp [Reply.fault?, Condition.all, Condition.fault?, herror]
  | none =>
    cases hresponse : reply.response with
    | none => simp [Reply.fault?, Condition.all, Condition.fault?, herror, hresponse]
    | some response =>
      simp only [Reply.fault?, herror, hresponse, Reply.responseFault?, Reply.checkFault?,
        Condition.all, Condition.fault?, List.findSome?_cons, List.findSome?_nil, Option.map_none,
        Option.isNone_some, Bool.false_eq_true, if_false, Option.bind_some]
      cases errorFault? step response with
      | some fault => rfl
      | none =>
        cases reply.scriptError with
        | some message => rfl
        | none =>
          cases (reply.tests.find? fun test => !test.passed).map TestResult.fault with
          | some fault => rfl
          | none =>
            cases step with
            | none => rfl
            | some request =>
              simp only [Option.none_or, Option.map_none, Option.bind_some, RequestStep.fault?]
              cases request.statusFault? response with
              | some fault => rfl
              | none => cases request.codeFault? response <;> rfl

theorem faultless_iff : reply.fault? step = none ↔ ∀ c ∈ Condition.all, c.Holds reply step := by
  rw [fault?_eq_findSome?, List.findSome?_eq_none_iff]
  exact forall_congr' fun c => imp_congr_right fun _ => Condition.faultless_iff

theorem firstViolated_iff {message : String} :
    Condition.FirstViolated reply step message ↔
      ∃ fault, reply.fault? step = some fault ∧ fault.message = message := by
  simp only [fault?_eq_findSome?, List.findSome?_eq_some_iff, Condition.faultless_iff]
  constructor
  · rintro ⟨before, c, after, hall, hbefore, hviolated⟩
    obtain ⟨fault, hfault, hmessage⟩ := Condition.exists_fault_of_violated hviolated
    exact ⟨fault, ⟨before, c, after, hall, hfault, hbefore⟩, hmessage⟩
  · rintro ⟨fault, ⟨before, c, after, hall, hfault, hbefore⟩, rfl⟩
    exact ⟨before, c, after, hall, hbefore, Condition.violated_of_fault hfault⟩

/-! ## The verdict -/

/-- The time that a response without an error of the transport reports. -/
def Reports (reply : Reply) (n : Nat) : Prop :=
  reply.error = none ∧ ∃ response, reply.response = some response ∧ response.duration = some n

/-- No check that passes in the second list failed in the first. -/
def WorsenTests : List TestResult → List TestResult → Prop :=
  List.Forall₂ fun test worse => worse.passed = true → test.passed = true

theorem WorsenTests.passed {tests worse : List TestResult} (h : WorsenTests tests worse)
    (hpassed : ∀ test ∈ worse, test.passed = true) : ∀ test ∈ tests, test.passed = true := by
  induction h with
  | nil => simp
  | cons hhead _ ih =>
    rw [List.forall_mem_cons] at hpassed ⊢
    exact ⟨hhead hpassed.1, ih hpassed.2⟩

/-- The second reply is the first one with nothing added but errors and checks that fail. -/
structure Worsens (reply worse : Reply) : Prop where
  response : worse.error = none → worse.response = reply.response
  error : worse.error = none → reply.error = none
  script : worse.scriptError = none → reply.scriptError = none
  tests : WorsenTests reply.tests worse.tests

/-- A condition that is met at last was met from the first, as long as all are met at last. -/
theorem Worsens.holds {worse : Reply} (h : reply.Worsens worse)
    (hall : ∀ c ∈ Condition.all, c.Holds worse step) : ∀ c ∈ Condition.all, c.Holds reply step := by
  have hmet : ∀ c : Condition, c.Holds worse step := by
    intro c
    refine hall c ?_
    cases c <;> decide
  have hresponse : worse.response = reply.response := h.response (hmet .transport)
  intro c _
  have hc := hmet c
  cases c with
  | transport => exact h.error hc
  | response => exact fun hnone => hc (hresponse.trans hnone)
  | status => exact fun response hcame => hc response (hresponse.trans hcame)
  | script => exact h.script hc
  | tests => exact h.tests.passed hc
  | statusLine | statusCode =>
    exact fun response expected hcame => hc response expected (hresponse.trans hcame)

theorem duration_verdict (reply : Reply) (step : Option RequestStep) (clock : Duration) :
    (reply.verdict step clock).duration =
      ((reply.effective?.bind Response.duration).map Duration.micros).getD clock := by
  unfold verdict
  split <;> rfl

theorem reports_iff {n : Nat} :
    reply.Reports n ↔ reply.effective?.bind Response.duration = some n := by
  unfold Reports effective?
  cases reply.error <;> simp [Option.bind_eq_some_iff]

theorem verdict_of_fault {fault : ReplyFault} (h : reply.fault? step = some fault)
    (clock : Duration) :
    (reply.verdict step clock).status = .failed ∧
      (reply.verdict step clock).message = fault.message ∧
      (reply.verdict step clock).error = some fault.message := by
  rw [verdict, h]
  exact ⟨rfl, rfl, rfl⟩

theorem verdict_of_faultless (h : reply.fault? step = none) (clock : Duration) :
    (reply.verdict step clock).status = .succeeded ∧ (reply.verdict step clock).error = none := by
  rw [verdict, h]
  exact ⟨rfl, rfl⟩

theorem succeeded_iff {clock : Duration} :
    (reply.verdict step clock).status = .succeeded ↔
      ∀ c ∈ Condition.all, c.Holds reply step := by
  rw [← faultless_iff]
  cases hfault : reply.fault? step with
  | none => simp [(verdict_of_faultless hfault clock).1]
  | some fault => simp [(verdict_of_fault hfault clock).1]

/-- The verdict in terms of the conditions: a reply succeeds when it meets all of them, and fails
with the message of the first one that it does not meet. The time is that of the response where one
came and reports it. Errors and failing checks that are added turn no failure into a success. -/
theorem verdict_conditions (reply : Reply) (step : Option RequestStep) (clock : Duration) :
    ((reply.verdict step clock).status = .succeeded ↔
        ∀ c ∈ Condition.all, c.Holds reply step) ∧
      ((reply.verdict step clock).status = .succeeded →
        (reply.verdict step clock).error = none) ∧
      ((reply.verdict step clock).status ≠ .succeeded →
        (reply.verdict step clock).status = .failed ∧
        (reply.verdict step clock).error = some (reply.verdict step clock).message) ∧
      (∀ message, Condition.FirstViolated reply step message ↔
        (reply.verdict step clock).status = .failed ∧
        (reply.verdict step clock).message = message) ∧
      (∀ n, reply.Reports n → (reply.verdict step clock).duration = .micros n) ∧
      ((∀ n, ¬ reply.Reports n) → (reply.verdict step clock).duration = clock) ∧
      (∀ worse later, reply.Worsens worse → (reply.verdict step clock).status = .failed →
        (worse.verdict step later).status = .failed) := by
  refine ⟨succeeded_iff, fun hsucceeded => ?_, fun hfailed => ?_, fun message => ?_,
    fun n hreports => ?_, fun hreports => ?_, fun worse later hworsens hfailed => ?_⟩
  · exact (verdict_of_faultless (faultless_iff.2 (succeeded_iff.1 hsucceeded)) clock).2
  · cases hfault : reply.fault? step with
    | none => exact absurd (verdict_of_faultless hfault clock).1 hfailed
    | some fault =>
      obtain ⟨hstatus, hmessage, herror⟩ := verdict_of_fault hfault clock
      exact ⟨hstatus, hmessage ▸ herror⟩
  · rw [firstViolated_iff]
    cases hfault : reply.fault? step with
    | none => simp [(verdict_of_faultless hfault clock).1]
    | some fault =>
      obtain ⟨hstatus, hmessage, -⟩ := verdict_of_fault hfault clock
      simp [hstatus, hmessage]
  · rw [duration_verdict, reports_iff.1 hreports]
    rfl
  · have hnone : reply.effective?.bind Response.duration = none :=
      Option.eq_none_iff_forall_ne_some.2 fun n hn => hreports n (reports_iff.2 hn)
    rw [duration_verdict, hnone]
    rfl
  · rcases status_verdict worse step later with hsucceeded | hworse
    · have hmet := hworsens.holds (succeeded_iff.1 hsucceeded)
      cases hfailed.symm.trans ((@succeeded_iff reply step clock).2 hmet)
    · exact hworse

end Reply

end RequestFlow
