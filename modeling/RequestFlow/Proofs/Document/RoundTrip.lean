import RequestFlow.Document.Source
import RequestFlow.Proofs.Document.Record

/-!
# Documents survive a round trip

What is written of a document is read as the document: every request, every workflow and every step
of the four kinds comes back with its texts, its policies, its branches and its maps in their order.
Only the path of the file that the document came from is not written.

* `Request.readsBack`, `Step.readsBack`, `Workflow.readsBack`, `Document.readsBack`: each part of a
  document on its own;
* `Document.printed`: a document nests seven lists and objects deep;
* `Document.parseJson_compact`: a document is read from its text, and has the same text again.
-/

namespace RequestFlow

theorem ReadsBack.eq {α : Type} {read : Node → Content α} {write : α → Json} {value : α}
    (h : ReadsBack read write value) : read (.ofJson (write value)) = .ok value := h

/-! ## Words -/

theorem Protocol.readsBack (protocol : Protocol) :
    ReadsBack (Node.oneOf true Protocol.words) (fun protocol => .string protocol.text) protocol := by
  rw [ReadsBack, Node.ofJson_string]
  cases protocol <;> rfl

theorem Policy.readsBack (policy : Policy) :
    ReadsBack (Node.oneOf true Policy.words) Policy.toJson policy := by
  rw [ReadsBack, Policy.toJson, Node.ofJson_string]
  cases policy <;> rfl

theorem Policy.readsBack_optional (policy : Option Policy) :
    ReadsBack (Node.optional (Node.oneOf true Policy.words)) (.orNull Policy.toJson) policy := by
  refine RequestFlow.readsBack_optional (fun part _ => part.readsBack) fun part _ => ?_
  rw [Policy.toJson, Node.ofJson_string]
  rfl

/-! ## Requests -/

theorem isAbsent_object (members : List (String × Json)) :
    (Node.ofJson (.object members)).isAbsent = false := by
  rw [Node.ofJson_object]
  rfl

theorem LoopSpec.readsBack (spec : LoopSpec) :
    ReadsBack (LoopSpec.layout.read true) LoopSpec.toJson spec := by
  rw [ReadsBack, LoopSpec.toJson, Layout.read_object rfl]
  simp [Layout.fillAll, LoopSpec.layout, Node.text]
  rfl

theorem LoopSpec.readsBack_optional (spec : Option LoopSpec) :
    ReadsBack (Node.optional (LoopSpec.layout.read true)) (.orNull LoopSpec.toJson) spec :=
  RequestFlow.readsBack_optional (fun part _ => part.readsBack) fun _ _ => isAbsent_object _

theorem Request.readsBack (request : Request) :
    ReadsBack ((Request.layout true).read true) Request.toJson request := by
  have hprotocol := request.protocol.readsBack.eq
  have hloop := (LoopSpec.readsBack_optional request.loop).eq
  rw [Node.ofJson_string] at hprotocol
  rw [ReadsBack, Request.toJson, Layout.read_object rfl]
  simp [Layout.fillAll, Request.layout, Node.text, hprotocol, hloop,
    (readsBack_scalarMap request.headers).eq, (readsBack_scalarMap request.vars).eq,
    (readsBack_textOrNull request.body).eq]
  rfl

/-! ## Steps -/

/-- Members as parsed text. -/
abbrev nodesOf (members : List (String × Json)) : List (String × Node) :=
  members.map fun member => (member.1, .ofJson member.2)

theorem RequestStep.ofMembers_members (step : RequestStep) :
    RequestStep.layout.ofMembers (nodesOf step.members) = .ok step := by
  rw [Layout.ofMembers_of_fits rfl]
  simp [Layout.fillAll, RequestStep.layout, RequestStep.members, Node.text,
    (readsBack_textOrNull step.name).eq, (readsBack_textOrNull step.guard).eq,
    (readsBack_scalarMap step.vars).eq, (readsBack_scalarMap step.expect).eq,
    (Policy.readsBack_optional step.policy).eq]
  rfl

theorem Action.ofMembers_members (action : Action) :
    Action.layout.ofMembers (nodesOf action.members) = .ok action := by
  rw [Layout.ofMembers_of_fits rfl]
  simp [Layout.fillAll, Action.layout, Action.members, (readsBack_textOrNull action.run).eq,
    (readsBack_textOrNull action.fail).eq]
  rfl

theorem Action.readsBack_optional (action : Option Action) :
    ReadsBack (Node.optional (Action.layout.read true)) (.orNull Action.toJson) action := by
  refine RequestFlow.readsBack_optional (fun part _ => ?_) fun _ _ => isAbsent_object _
  rw [ReadsBack, Action.toJson, Node.ofJson_object]
  exact part.ofMembers_members

/-- The members of an action beside a field of its own. -/
theorem Action.besides_members {field : String} (hfield : field ≠ "run" ∧ field ≠ "fail")
    (text : String) (action : Action) :
    Action.layout.besides field (Node.required Node.text)
      (.ofJson (.object ((field, .string text) :: action.members))) = .ok (text, action) := by
  rw [Node.ofJson_object, List.map_cons, Node.ofJson_string]
  have hothers : ∀ member ∈ [] ++ nodesOf action.members, member.1 ≠ field := by
    simpa [nodesOf, Action.members, eq_comm] using hfield
  exact Layout.besides_object hothers rfl action.ofMembers_members

theorem ConditionalBranch.readsBack (branch : ConditionalBranch) :
    ReadsBack ConditionalBranch.read ConditionalBranch.toJson branch := by
  rw [ReadsBack, ConditionalBranch.toJson, ConditionalBranch.read,
    Action.besides_members (by decide)]
  rfl

theorem CaseBranch.readsBack (branch : CaseBranch) :
    ReadsBack CaseBranch.read CaseBranch.toJson branch := by
  rw [ReadsBack, CaseBranch.toJson, CaseBranch.read, Action.besides_members (by decide)]
  rfl

theorem ConditionalStep.ofMembers_members (step : ConditionalStep) :
    ConditionalStep.layout.ofMembers (nodesOf step.members) = .ok step := by
  have hprimary : ReadsBack (Node.optional ConditionalBranch.read)
      (.orNull ConditionalBranch.toJson) step.primary :=
    readsBack_optional (fun part _ => part.readsBack) fun _ _ => isAbsent_object _
  have halternatives : ReadsBack (Node.listOf ConditionalBranch.read) _ step.alternatives :=
    readsBack_listOf fun part _ => part.readsBack
  have halternatives := halternatives.eq
  rw [Node.ofJson_array, List.map_map] at halternatives
  rw [Layout.ofMembers_of_fits rfl]
  simp [Layout.fillAll, ConditionalStep.layout, ConditionalStep.members,
    (readsBack_textOrNull step.name).eq, hprimary.eq, halternatives,
    (Action.readsBack_optional step.otherwise).eq, (readsBack_scalarMap step.vars).eq,
    (Policy.readsBack_optional step.policy).eq]
  rfl

theorem SwitchStep.ofMembers_members (step : SwitchStep) :
    SwitchStep.layout.ofMembers (nodesOf step.members) = .ok step := by
  have hcases : ReadsBack (Node.listOf CaseBranch.read) _ step.cases :=
    readsBack_listOf fun part _ => part.readsBack
  have hcases := hcases.eq
  rw [Node.ofJson_array, List.map_map] at hcases
  rw [Layout.ofMembers_of_fits rfl]
  simp [Layout.fillAll, SwitchStep.layout, SwitchStep.members, Node.text,
    (readsBack_textOrNull step.name).eq, hcases,
    (Action.readsBack_optional step.otherwise).eq, (readsBack_scalarMap step.vars).eq,
    (Policy.readsBack_optional step.policy).eq]
  rfl

theorem Step.readForEach_members (step : RequestStep) (loop : Option LoopSpec) :
    Step.readForEach
      (.object (nodesOf step.members ++ [("for_each", .ofJson (.orNull LoopSpec.toJson loop))])) =
      .ok (.forEach step loop) := by
  have hothers : ∀ member ∈ nodesOf step.members ++ [], member.1 ≠ "for_each" := by
    simp [nodesOf, RequestStep.members]
  have hloop : Node.member (LoopSpec.layout.read true)
      (some (.ofJson (.orNull LoopSpec.toJson loop))) = .ok loop :=
    LoopSpec.readsBack_optional loop
  have hstep := step.ofMembers_members
  rw [← List.append_nil (nodesOf step.members)] at hstep
  rw [Step.readForEach, Layout.besides_object hothers hloop hstep]
  rfl

mutual

theorem Node.settle_ofJson (value : Json) : (Node.ofJson value).settle = .ofJson value := by
  match value with
  | .null | .bool _ | .number _ | .string _ => simp [Node.ofJson, Node.settle]
  | .array items => rw [Node.ofJson, Node.settle, Node.settleItems_ofJson items]
  | .object members => rw [Node.ofJson, Node.settle, Node.settleMembers_ofJson members]

theorem Node.settleItems_ofJson (items : List Json) :
    Node.settleItems (Node.ofJsonItems items) = Node.ofJsonItems items := by
  match items with
  | [] => rw [Node.ofJsonItems, Node.settleItems]
  | item :: rest =>
    rw [Node.ofJsonItems, Node.settleItems, Node.settle_ofJson item, Node.settleItems_ofJson rest]

theorem Node.settleMembers_ofJson (members : List (String × Json)) :
    Node.settleMembers (Node.ofJsonMembers members) = Node.ofJsonMembers members := by
  match members with
  | [] => rw [Node.ofJsonMembers, Node.settleMembers]
  | (_, value) :: rest =>
    rw [Node.ofJsonMembers, Node.settleMembers, Node.settle_ofJson value,
      Node.settleMembers_ofJson rest]

end

mutual

theorem Node.complete_ofJson (value : Json) : (Node.ofJson value).complete = true := by
  match value with
  | .null | .bool _ | .number _ | .string _ => simp [Node.ofJson, Node.complete]
  | .array items => rw [Node.ofJson, Node.complete, Node.completeItems_ofJson items]
  | .object members => rw [Node.ofJson, Node.complete, Node.completeMembers_ofJson members]

theorem Node.completeItems_ofJson (items : List Json) :
    Node.completeItems (Node.ofJsonItems items) = true := by
  match items with
  | [] => rw [Node.ofJsonItems, Node.completeItems]
  | item :: rest =>
    rw [Node.ofJsonItems, Node.completeItems, Node.complete_ofJson item,
      Node.completeItems_ofJson rest, Bool.and_self]

theorem Node.completeMembers_ofJson (members : List (String × Json)) :
    Node.completeMembers (Node.ofJsonMembers members) = true := by
  match members with
  | [] => rw [Node.ofJsonMembers, Node.completeMembers]
  | (_, value) :: rest =>
    rw [Node.ofJsonMembers, Node.completeMembers, Node.complete_ofJson value,
      Node.completeMembers_ofJson rest, Bool.and_self]

end

/-- A record with its kind in front is read as one of that kind. -/
theorem Step.read_kind {kind : String} {members : List (String × Json)}
    (hothers : ∀ member ∈ members, member.1 ≠ "kind") :
    Step.read (.ofJson (.object (("kind", .string kind) :: members))) =
      Step.readKind kind (.object (nodesOf members)) := by
  have hnone : (nodesOf members).filter (fun member => member.1 == "kind") = [] := by
    refine List.filter_eq_nil_iff.2 fun member hmem => ?_
    obtain ⟨written, hwritten, rfl⟩ := List.mem_map.1 hmem
    simpa using hothers written hwritten
  have hall : (nodesOf members).filter (fun member => member.1 != "kind") = nodesOf members := by
    refine List.filter_eq_self.2 fun member hmem => ?_
    obtain ⟨written, hwritten, rfl⟩ := List.mem_map.1 hmem
    simpa using hothers written hwritten
  have hnode : Node.ofJson (.object (("kind", .string kind) :: members)) =
      .object (("kind", .string kind) :: nodesOf members) := by
    rw [Node.ofJson_object, List.map_cons, Node.ofJson_string]
  rw [Step.read, Node.settle_ofJson, Node.complete_ofJson, if_pos rfl, hnode]
  simp [hnone, hall]

theorem Step.readsBack (step : Step) : ReadsBack Step.read Step.toJson step := by
  cases step with
  | request step =>
    rw [ReadsBack, Step.toJson, Step.read_kind (by simp [RequestStep.members])]
    exact congrArg (Except.map Step.request) step.ofMembers_members
  | conditional step =>
    rw [ReadsBack, Step.toJson, Step.read_kind (by simp [ConditionalStep.members])]
    exact congrArg (Except.map Step.conditional) step.ofMembers_members
  | switch step =>
    rw [ReadsBack, Step.toJson, Step.read_kind (by simp [SwitchStep.members])]
    exact congrArg (Except.map Step.switch) step.ofMembers_members
  | forEach step loop =>
    rw [ReadsBack, Step.toJson, List.cons_append, Step.read_kind (by simp [RequestStep.members])]
    rw [nodesOf, List.map_append]
    exact Step.readForEach_members step loop

/-! ## Documents -/

theorem Workflow.readsBack (workflow : Workflow) :
    ReadsBack ((Workflow.layout true).read true) Workflow.toJson workflow := by
  have htags : ReadsBack (Node.listOf Node.text) _ workflow.tags :=
    readsBack_listOf fun tag _ => readsBack_text tag
  have hsteps : ReadsBack (Node.listOf Step.read) _ workflow.steps :=
    readsBack_listOf fun step _ => step.readsBack
  have htags := htags.eq
  have hsteps := hsteps.eq
  rw [Node.ofJson_array, List.map_map] at htags hsteps
  rw [ReadsBack, Workflow.toJson, Layout.read_object rfl]
  simp [Layout.fillAll, Workflow.layout, Node.text, (readsBack_textOrNull workflow.description).eq,
    htags, hsteps, workflow.policy.readsBack.eq, (readsBack_scalarMap workflow.options).eq,
    Json.strings]
  rfl

theorem environments_readsBack (environments : OrderedMap TextMap) :
    ReadsBack (Node.mapOf (Node.mapOf Node.text))
      (fun m => .object (m.entries.map fun entry => (entry.1, TextMap.toJson entry.2)))
      environments :=
  readsBack_mapOf fun _ _ => readsBack_mapOf fun part _ => readsBack_text part.2

/-- A document is read back, without the path of its file. -/
theorem Document.readsBack (document : Document) :
    Document.ofNode true (.ofJson document.toJson) = .ok { document with path := none } := by
  have henvironments := (environments_readsBack document.environments).eq
  have hrequests : ReadsBack (Node.listOf ((Request.layout true).read true)) _ document.requests :=
    readsBack_listOf fun request _ => request.readsBack
  have hworkflows :
      ReadsBack (Node.listOf ((Workflow.layout true).read true)) _ document.workflows :=
    readsBack_listOf fun workflow _ => workflow.readsBack
  have hrequests := hrequests.eq
  have hworkflows := hworkflows.eq
  rw [Node.ofJson_array, List.map_map] at hrequests hworkflows
  rw [Node.ofJson_object, List.map_map] at henvironments
  rw [Document.ofNode, Document.toJson, Layout.read_object rfl]
  simp [Layout.fillAll, Document.layout, (readsBack_scalarMap document.vars).eq, henvironments,
    hrequests, hworkflows]
  rfl

/-! ## How deep a document nests -/

section

open Json

variable {depth : Nat}

theorem printed_stringOrNull (text : Option String) : Printed depth (.stringOrNull text) := by
  cases text with
  | none => exact printed_null
  | some text => exact printed_string text

theorem printed_orNull {α : Type} {write : α → Json} (value : Option α)
    (h : ∀ part ∈ value, Printed depth (write part)) : Printed depth (.orNull write value) := by
  cases value with
  | none => exact printed_null
  | some part => exact h part rfl

theorem TextMap.printed (m : TextMap) : Printed (depth + 1) m.toJson := by
  refine printed_object fun member hmem => ?_
  obtain ⟨entry, -, rfl⟩ := List.mem_map.1 hmem
  exact printed_string entry.2

theorem printed_arrayOf {α : Type} {write : α → Json} {values : List α}
    (h : ∀ value ∈ values, Printed depth (write value)) :
    Printed (depth + 1) (.array (values.map write)) := by
  refine printed_array fun item hitem => ?_
  obtain ⟨value, hvalue, rfl⟩ := List.mem_map.1 hitem
  exact h value hvalue

theorem Policy.printed (policy : Policy) : Printed depth policy.toJson := printed_string _

theorem Policy.printed_orNull (policy : Option Policy) :
    Printed depth (.orNull Policy.toJson policy) :=
  RequestFlow.printed_orNull policy fun part _ => part.printed

theorem LoopSpec.printed_orNull (spec : Option LoopSpec) :
    Printed (depth + 1) (.orNull LoopSpec.toJson spec) :=
  RequestFlow.printed_orNull spec fun _ _ => printed_object (by simp)

theorem Request.printed (request : Request) : Printed (depth + 2) request.toJson :=
  printed_object (by
    simp [TextMap.printed, printed_stringOrNull, LoopSpec.printed_orNull])

theorem Action.printed_members (action : Action) :
    ∀ member ∈ action.members, Printed depth member.2 := by
  simp [Action.members, printed_stringOrNull]

theorem Action.printed_orNull (action : Option Action) :
    Printed (depth + 1) (.orNull Action.toJson action) :=
  RequestFlow.printed_orNull action fun part _ => printed_object part.printed_members

theorem ConditionalBranch.printed (branch : ConditionalBranch) :
    Printed (depth + 1) branch.toJson :=
  printed_object (List.forall_mem_cons.2 ⟨printed_string _, branch.action.printed_members⟩)

theorem CaseBranch.printed (branch : CaseBranch) : Printed (depth + 1) branch.toJson :=
  printed_object (List.forall_mem_cons.2 ⟨printed_string _, branch.action.printed_members⟩)

theorem RequestStep.printed_members (step : RequestStep) :
    ∀ member ∈ step.members, Printed (depth + 1) member.2 := by
  simp [RequestStep.members, printed_stringOrNull, TextMap.printed, Policy.printed_orNull]

theorem ConditionalStep.printed_members (step : ConditionalStep) :
    ∀ member ∈ step.members, Printed (depth + 2) member.2 := by
  have hprimary : Printed (depth + 2) (.orNull ConditionalBranch.toJson step.primary) :=
    RequestFlow.printed_orNull step.primary fun branch _ => branch.printed
  have halternatives :
      Printed (depth + 2) (.array (step.alternatives.map ConditionalBranch.toJson)) :=
    printed_arrayOf fun branch _ => branch.printed
  simp [ConditionalStep.members, printed_stringOrNull, hprimary, halternatives,
    Action.printed_orNull, TextMap.printed, Policy.printed_orNull]

theorem SwitchStep.printed_members (step : SwitchStep) :
    ∀ member ∈ step.members, Printed (depth + 2) member.2 := by
  have hcases : Printed (depth + 2) (.array (step.cases.map CaseBranch.toJson)) :=
    printed_arrayOf fun branch _ => branch.printed
  simp [SwitchStep.members, printed_stringOrNull, hcases, Action.printed_orNull, TextMap.printed,
    Policy.printed_orNull]

theorem Step.printed (step : Step) : Printed (depth + 3) step.toJson := by
  cases step with
  | request step =>
    exact printed_object (List.forall_mem_cons.2 ⟨printed_string _, step.printed_members⟩)
  | conditional step =>
    exact printed_object (List.forall_mem_cons.2 ⟨printed_string _, step.printed_members⟩)
  | switch step =>
    exact printed_object (List.forall_mem_cons.2 ⟨printed_string _, step.printed_members⟩)
  | forEach step loop =>
    refine printed_object (List.forall_mem_append.2 ⟨?_, ?_⟩)
    · exact List.forall_mem_cons.2 ⟨printed_string _, step.printed_members⟩
    · exact List.forall_mem_singleton.2 (LoopSpec.printed_orNull loop)

theorem Workflow.printed (workflow : Workflow) : Printed (depth + 5) workflow.toJson := by
  have htags : Printed (depth + 4) (.strings workflow.tags) := printed_arrayOf fun _ _ =>
    printed_string _
  have hsteps : Printed (depth + 4) (.array (workflow.steps.map Step.toJson)) :=
    printed_arrayOf fun step _ => step.printed
  refine printed_object ?_
  simp [printed_stringOrNull, htags, hsteps, Policy.printed, TextMap.printed]

theorem Document.printed (document : Document) : Printed (depth + 7) document.toJson := by
  have henvironments : Printed (depth + 6) (.object (document.environments.entries.map fun entry =>
      (entry.1, entry.2.toJson))) := by
    refine printed_object fun member hmem => ?_
    obtain ⟨entry, -, rfl⟩ := List.mem_map.1 hmem
    exact TextMap.printed entry.2
  have hrequests : Printed (depth + 6) (.array (document.requests.map Request.toJson)) :=
    printed_arrayOf fun request _ => request.printed
  have hworkflows : Printed (depth + 6) (.array (document.workflows.map Workflow.toJson)) :=
    printed_arrayOf fun workflow _ => workflow.printed
  refine printed_object ?_
  simp [TextMap.printed, henvironments, hrequests, hworkflows]

end

/-! ## The text of a document -/

/-- A document is read from its own text, whatever it holds; what is read has the same text. -/
theorem Document.parseJson_compact (document : Document) :
    ∃ again, Document.parseJson document.toJson.compact = .ok again ∧
      again = { document with path := none } ∧
      again.toJson.compact = document.toJson.compact := by
  refine ⟨{ document with path := none }, ?_, rfl, rfl⟩
  have hprinted : Json.Printed (120 + 7) document.toJson := document.printed
  rw [Document.parseJson, Content.ofJson_compact _ hprinted]
  exact document.readsBack

end RequestFlow
