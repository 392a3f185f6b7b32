import Mathlib.Data.List.Forall2
import RequestFlow.Http.Call
import RequestFlow.Proofs.Faults
import RequestFlow.Proofs.Markup.Printed
import RequestFlow.Proofs.Template
import RequestFlow.Proofs.Variables

/-!
# Requests as they are sent

A dispatch is sent as a whole or not at all. Its templates are filled in one after the other: that
of the address, those of the headers, that of the body. The first placeholder without a value is
told, and then the request is told as it was written; else it is told as it is sent, and differs
from what was written in nothing but what was filled in and what its protocol asks for.

* `Template.Becomes`, `Template.Lacks`: what a template is filled in to, and what keeps it from it;
* `Dispatch.Lacks`: the same of all templates of a request;
* `Call.Prepared`: the call of a request, in terms of what its templates are filled in to;
* `Http.deliver_prepared`: what comes of a dispatch, over every transport.
-/

namespace RequestFlow

/-! ## Templates, placeholder by placeholder -/

/-- The text that a piece of a template stands for, by the values of names. -/
def Piece.text (value : String → String) : Piece → List Char
  | char c => [c]
  | hole name => (value name).toList

/-- The fault of a piece: its name has no value. -/
def Piece.unknown? (scope : TextMap) : Piece → Option UnknownVariable
  | char _ => none
  | hole name => fault? (scope.lookup name)

namespace Template

/-- The text is the template with the values of the names in the places of the placeholders. -/
def Becomes (scope : TextMap) (template text : String) : Prop :=
  ∃ value : String → String,
    (∀ name, Piece.hole name ∈ parse template.toList → Gives scope name (value name)) ∧
      text = String.ofList ((parse template.toList).flatMap (Piece.text value))

/-- The template has a placeholder for the name, which has no value, behind others that have one. -/
def Lacks (scope : TextMap) (template name : String) : Prop :=
  ∃ before after, parse template.toList = before ++ .hole name :: after ∧
    (∀ value, ¬ Gives scope name value) ∧
      ∀ known, Piece.hole known ∈ before → ∃ value, Gives scope known value

section

variable {scope : TextMap} {template text name : String} {pieces : List Piece}

theorem fault?_lookup :
    fault? (scope.lookup name) = none ↔ ∃ value, Gives scope name value := by
  simp only [← lookup_eq_ok]
  cases scope.lookup name <;> simp

theorem unknown?_eq_some {piece : Piece} :
    piece.unknown? scope = some ⟨name⟩ ↔
      piece = .hole name ∧ ∀ value, ¬ Gives scope name value := by
  cases piece with
  | char c => simp [Piece.unknown?]
  | hole other =>
    simp only [Piece.unknown?, Piece.hole.injEq, ← lookup_eq_ok]
    unfold TextMap.lookup
    split
    · rename_i value hvalue
      simp only [fault?_ok, reduceCtorEq, false_iff, not_and, not_forall, not_not]
      rintro rfl
      exact ⟨value, by rw [hvalue]⟩
    · rename_i hnone
      simp only [fault?_error, Option.some.injEq, UnknownVariable.mk.injEq]
      refine ⟨fun h => ⟨h, ?_⟩, And.left⟩
      rw [← h, hnone]
      nofun

/-- The first piece with a fault tells it. -/
theorem fault?_fill (scope : TextMap) (pieces : List Piece) :
    fault? (fill scope pieces) = pieces.findSome? (Piece.unknown? scope) := by
  induction pieces with
  | nil => rfl
  | cons piece pieces ih =>
    rw [List.findSome?_cons, ← ih]
    cases piece with
    | char c =>
      rw [fill]
      cases fill scope pieces <;> rfl
    | hole name =>
      rw [fill, fault?_both, Piece.unknown?]
      cases fault? (scope.lookup name) <;> rfl

/-- A template that lacks a name tells it, and no other does. -/
theorem lacks_iff : Lacks scope template name ↔ fault? (render scope template) = some ⟨name⟩ := by
  have hknown (pieces : List Piece) : (∀ piece ∈ pieces, piece.unknown? scope = none) ↔
      ∀ known, Piece.hole known ∈ pieces → ∃ value, Gives scope known value := by
    constructor
    · intro h known hmem
      exact fault?_lookup.1 (h _ hmem)
    · intro h piece hmem
      cases piece with
      | char c => rfl
      | hole known => exact fault?_lookup.2 (h known hmem)
  simp only [render, fault?_map, fault?_fill, List.findSome?_eq_some_iff, unknown?_eq_some, hknown]
  constructor
  · rintro ⟨before, after, hparse, hnone, hbefore⟩
    exact ⟨before, _, after, hparse, ⟨rfl, hnone⟩, hbefore⟩
  · rintro ⟨before, piece, after, hparse, ⟨rfl, hnone⟩, hbefore⟩
    exact ⟨before, after, hparse, hnone, hbefore⟩

/-- The value of a name; no text where it has none. -/
def valueOf (scope : TextMap) (name : String) : String := (scope.lookup name).toOption.getD ""

/-- The text of the pieces, where they have one, is made of the values of the names in them. -/
theorem text_of_fill {cs : List Char} (h : fill scope pieces = .ok cs) :
    (∀ name, Piece.hole name ∈ pieces → Gives scope name (valueOf scope name)) ∧
      cs = pieces.flatMap (Piece.text (valueOf scope)) := by
  induction pieces generalizing cs with
  | nil =>
    cases h
    exact ⟨by simp, rfl⟩
  | cons piece pieces ih =>
    cases piece with
    | char c =>
      obtain ⟨rest, hrest, hcs⟩ := ok_of_bind h
      cases hcs
      obtain ⟨hgives, rfl⟩ := ih hrest
      exact ⟨fun name hname => hgives name (by simpa using hname), rfl⟩
    | hole name =>
      obtain ⟨text, htext, h⟩ := ok_of_bind h
      obtain ⟨rest, hrest, hcs⟩ := ok_of_bind h
      cases hcs
      obtain ⟨hgives, rfl⟩ := ih hrest
      have hvalue : valueOf scope name = text := by rw [valueOf, htext]; rfl
      refine ⟨fun other hother => ?_, ?_⟩
      · rcases List.mem_cons.1 hother with heq | hother
        · cases heq
          rw [hvalue]
          exact lookup_eq_ok.1 htext
        · exact hgives other hother
      · rw [List.flatMap_cons, Piece.text, hvalue]

/-- What a template is filled in to. -/
theorem becomes_of_render (h : render scope template = .ok text) : Becomes scope template text := by
  cases hfill : fill scope (parse template.toList) with
  | error e => simp [render, hfill, Except.map] at h
  | ok cs =>
    obtain ⟨hgives, rfl⟩ := text_of_fill hfill
    simp only [render, hfill, Except.map, Except.ok.injEq] at h
    exact ⟨valueOf scope, hgives, h.symm⟩

/-! ### Headers -/

theorem fault?_renderPairs (scope : TextMap) (pairs : List (String × String)) :
    fault? (renderPairs scope pairs) = pairs.findSome? fun pair => fault? (render scope pair.2) := by
  induction pairs with
  | nil => rfl
  | cons pair pairs ih =>
    rw [List.findSome?_cons, ← ih, renderPairs, fault?_both]
    cases fault? (render scope pair.2) <;> rfl

/-- Headers, each with its name and in its place, and filled in. -/
def BecomesEach (scope templates headers : TextMap) : Prop :=
  List.Forall₂ (fun template header => header.1 = template.1 ∧ Becomes scope template.2 header.2)
    templates.entries headers.entries

theorem each_of_renderPairs {pairs rendered : List (String × String)}
    (h : renderPairs scope pairs = .ok rendered) :
    List.Forall₂ (fun template header => header.1 = template.1 ∧ Becomes scope template.2 header.2)
      pairs rendered := by
  induction pairs generalizing rendered with
  | nil =>
    cases h
    exact .nil
  | cons pair pairs ih =>
    obtain ⟨text, htext, h⟩ := ok_of_bind h
    obtain ⟨rest, hrest, hrendered⟩ := ok_of_bind h
    cases hrendered
    exact .cons ⟨rfl, becomes_of_render htext⟩ (ih hrest)

theorem becomesEach_of_renderMap {templates headers : TextMap}
    (h : renderMap scope templates = .ok headers) : BecomesEach scope templates headers :=
  each_of_renderPairs (entries_of_renderMap h)

theorem BecomesEach.keys {templates headers : TextMap} (h : BecomesEach scope templates headers) :
    headers.keys = templates.keys := by
  have hkeys {pairs others : List (String × String)} (h : List.Forall₂ (fun template header =>
      header.1 = template.1 ∧ Becomes scope template.2 header.2) pairs others) :
      others.map Prod.fst = pairs.map Prod.fst := by
    induction h with
    | nil => rfl
    | cons hpair _ ih => rw [List.map_cons, List.map_cons, hpair.1, ih]
  exact hkeys h

end

end Template

/-! ## Requests -/

/-- The templates of a request in the order in which they are filled in. -/
def Request.templates (request : Request) : List String :=
  request.url :: (request.headers.values ++ request.body.toList)

/-- The first template of the request that lacks a name lacks this one. -/
def Dispatch.Lacks (dispatch : Dispatch) (name : String) : Prop :=
  ∃ before template after, dispatch.request.templates = before ++ template :: after ∧
    Template.Lacks dispatch.vars template name ∧
      ∀ earlier ∈ before, ∀ known, ¬ Template.Lacks dispatch.vars earlier known

/-- What the templates of a request are filled in to. -/
structure Dispatch.Becomes (dispatch : Dispatch) (url : String) (headers : TextMap)
    (body : Option String) : Prop where
  url : Template.Becomes dispatch.vars dispatch.request.url url
  headers : Template.BecomesEach dispatch.vars dispatch.request.headers headers
  body : Option.Rel (Template.Becomes dispatch.vars) dispatch.request.body body

namespace Call

/-- The headers have one of this name, in whatever case of Latin letters. -/
def Names (headers : TextMap) (name : String) : Prop :=
  ∃ key ∈ headers.keys, key.toList.map Char.toLower = name.toList.map Char.toLower

/-- What the request of a dispatch is sent as. A query is posted: its body is the text of an object
that holds the query and no variables, and the headers tell that it is JSON unless the author has
told what it is. -/
inductive Prepared (dispatch : Dispatch) : Call → Prop where
  | plain {url : String} {headers : TextMap} {body : Option String}
      (protocol : dispatch.request.protocol ≠ .graphql) (filled : dispatch.Becomes url headers body) :
      Prepared dispatch ⟨dispatch.request.method, url, headers, body⟩
  | query {url text : String} {headers called : TextMap} {body : Option String}
      (protocol : dispatch.request.protocol = .graphql) (filled : dispatch.Becomes url headers body)
      (told : Names dispatch.request.headers "content-type" → called = headers)
      (untold : ¬ Names dispatch.request.headers "content-type" →
        called.entries = headers.entries ++ [("Content-Type", "application/json")])
      (posted : JsonText.read text.toList =
        (.object [("query", .string (body.getD "")), ("variables", .object [])], none)) :
      Prepared dispatch ⟨"POST", url, called, some text⟩

variable {dispatch : Dispatch}

theorem hasHeader_iff (headers : TextMap) (name : String) :
    hasHeader headers name = true ↔ Names headers name := by
  simp [hasHeader, Names]

/-- The text that posts a query is read as an object of two members, whatever the query holds. -/
theorem read_queryBody (query : String) :
    JsonText.read (queryBody query).toList =
      (.object [("query", .string query), ("variables", .object [])], none) := by
  have hmembers : ∀ member ∈ [("query", Json.string query), ("variables", .object [])],
      Json.Printed (125 + 1) member.2 := by
    simp only [List.mem_cons, List.not_mem_nil, or_false]
    rintro member (rfl | rfl)
    · exact Json.printed_string query
    · exact Json.printed_object nofun
  rw [queryBody, Json.read_compact (Json.printed_object hmembers)]
  simp [Node.ofJson, Node.ofJsonMembers]

theorem queryHeaders_told {headers : TextMap} (h : Names headers "content-type") :
    queryHeaders headers = headers := by
  rw [queryHeaders, if_pos ((hasHeader_iff ..).2 h)]

theorem queryHeaders_untold {headers : TextMap} (h : ¬ Names headers "content-type") :
    (queryHeaders headers).entries = headers.entries ++ [("Content-Type", "application/json")] := by
  have hkey : "Content-Type" ∉ headers.entries.map Prod.fst := by
    intro hmem
    exact h ⟨"Content-Type", hmem, by decide⟩
  rw [queryHeaders, if_neg (fun hhas => h ((hasHeader_iff ..).1 hhas))]
  exact OrderedMap.put_of_not_mem hkey _

/-- The first template with a fault tells it. -/
theorem fault?_ofDispatch (dispatch : Dispatch) :
    fault? (ofDispatch dispatch) =
      dispatch.request.templates.findSome? fun template =>
        fault? (Template.render dispatch.vars template) := by
  have hheaders : fault? (Template.renderMap dispatch.vars dispatch.request.headers) =
      dispatch.request.headers.values.findSome? fun template =>
        fault? (Template.render dispatch.vars template) := by
    rw [Template.renderMap, fault?_map, Template.fault?_renderPairs, OrderedMap.values,
      List.findSome?_map]
    rfl
  rw [Request.templates, List.findSome?_cons, List.findSome?_append, ← hheaders, ofDispatch]
  cases Template.render dispatch.vars dispatch.request.url with
  | error e => rfl
  | ok url =>
    cases Template.renderMap dispatch.vars dispatch.request.headers with
    | error e => rfl
    | ok headers =>
      cases dispatch.request.body with
      | none => cases dispatch.request.protocol <;> rfl
      | some body =>
        simp only [Option.toList_some, List.findSome?_cons, List.findSome?_nil]
        cases Template.render dispatch.vars body with
        | error e => rfl
        | ok body => cases dispatch.request.protocol <;> rfl

/-- A dispatch has no call where a template of its request lacks a name; the first such is told. -/
theorem lacks_iff {name : String} :
    dispatch.Lacks name ↔ ofDispatch dispatch = .error ⟨name⟩ := by
  have hfault (result : Except UnknownVariable Call) :
      result = .error ⟨name⟩ ↔ fault? result = some ⟨name⟩ := by
    cases result <;> simp
  have hknown (template : String) : fault? (Template.render dispatch.vars template) = none ↔
      ∀ known, ¬ Template.Lacks dispatch.vars template known := by
    simp only [Template.lacks_iff]
    cases Template.render dispatch.vars template with
    | error e => simpa using ⟨e.name, rfl⟩
    | ok text => simp
  simp only [hfault, fault?_ofDispatch, List.findSome?_eq_some_iff, Dispatch.Lacks, hknown,
    Template.lacks_iff]

/-- The call that is made of what the templates of a request are filled in to. -/
def assembled (request : Request) (url : String) (headers : TextMap) (body : Option String) : Call :=
  match request.protocol with
  | .graphql => ⟨"POST", url, queryHeaders headers, some (queryBody (body.getD ""))⟩
  | .http | .grpc => ⟨request.method, url, headers, body⟩

theorem assembled_of_ofDispatch {call : Call} (h : ofDispatch dispatch = .ok call) :
    ∃ url headers body, dispatch.Becomes url headers body ∧
      call = assembled dispatch.request url headers body := by
  obtain ⟨url, hurl, h⟩ := ok_of_bind h
  obtain ⟨headers, hheaders, h⟩ := ok_of_bind h
  have hbecomes := Template.becomes_of_render hurl
  have heach := Template.becomesEach_of_renderMap hheaders
  cases hbody : dispatch.request.body with
  | none =>
    simp only [hbody] at h
    have hrel : Option.Rel (Template.Becomes dispatch.vars) dispatch.request.body none := by
      rw [hbody]
      exact .none
    refine ⟨url, headers, none, ⟨hbecomes, heach, hrel⟩, ?_⟩
    cases hprotocol : dispatch.request.protocol <;> rw [hprotocol] at h <;> cases h <;>
      simp only [assembled, hprotocol]
  | some template =>
    simp only [hbody] at h
    obtain ⟨body, htext, h⟩ := ok_of_bind h
    cases hrender : Template.render dispatch.vars template with
    | error e => simp [hrender, Except.map] at htext
    | ok text =>
      simp only [hrender, Except.map, Except.ok.injEq] at htext
      subst htext
      have hrel : Option.Rel (Template.Becomes dispatch.vars) dispatch.request.body (some text) := by
        rw [hbody]
        exact .some (Template.becomes_of_render hrender)
      refine ⟨url, headers, some text, ⟨hbecomes, heach, hrel⟩, ?_⟩
      cases hprotocol : dispatch.request.protocol <;> rw [hprotocol] at h <;> cases h <;>
        simp only [assembled, hprotocol]

theorem prepared_of_ofDispatch {call : Call} (h : ofDispatch dispatch = .ok call) :
    Prepared dispatch call := by
  obtain ⟨url, headers, body, hfilled, rfl⟩ := assembled_of_ofDispatch h
  have hnames : Names dispatch.request.headers "content-type" ↔ Names headers "content-type" := by
    rw [Names, Names, hfilled.headers.keys]
  cases hprotocol : dispatch.request.protocol with
  | graphql =>
    simp only [assembled, hprotocol]
    exact .query hprotocol hfilled (fun told => queryHeaders_told (hnames.1 told))
      (fun untold => queryHeaders_untold (mt hnames.2 untold)) (read_queryBody _)
  | http =>
    simp only [assembled, hprotocol]
    exact .plain (by simp [hprotocol]) hfilled
  | grpc =>
    simp only [assembled, hprotocol]
    exact .plain (by simp [hprotocol]) hfilled

end Call

namespace Http

variable {transport : Transport} {dispatch : Dispatch}

theorem deliver_of_grpc (h : dispatch.request.protocol = .grpc) :
    deliver transport dispatch =
      dispatch.deliver (.failed "grpc transport is not available") := by
  simp only [deliver, h]

theorem deliver_of_error {e : UnknownVariable} (hprotocol : dispatch.request.protocol ≠ .grpc)
    (h : Call.ofDispatch dispatch = .error e) :
    deliver transport dispatch = dispatch.deliver
      (.failed ("failed to prepare request: unknown variable '" ++ e.name ++ "'")) := by
  have hlead : "failed to prepare request: " ++ "unknown variable '" =
      "failed to prepare request: unknown variable '" := by decide +kernel
  rw [← hlead, String.append_assoc, String.append_assoc,
    ← @String.append_assoc "unknown variable '"]
  cases hkind : dispatch.request.protocol with
  | grpc => exact absurd hkind hprotocol
  | http =>
    simp only [deliver, hkind, h]
    rfl
  | graphql =>
    simp only [deliver, hkind, h]
    rfl

theorem deliver_of_ok {call : Call} (hprotocol : dispatch.request.protocol ≠ .grpc)
    (h : Call.ofDispatch dispatch = .ok call) :
    deliver transport dispatch =
      ⟨dispatch.token, reply transport dispatch.request.protocol call,
        call.executed dispatch.request, dispatch.environment⟩ := by
  cases hkind : dispatch.request.protocol with
  | grpc => exact absurd hkind hprotocol
  | http =>
    simp only [deliver, Dispatch.deliver, hkind, h]
  | graphql =>
    simp only [deliver, Dispatch.deliver, hkind, h]

/-- Whatever the transport, what comes of a dispatch belongs to it and to its environment. A
protocol without a transport, and a placeholder without a value, fail the request as it was written;
of the placeholders without a value the first is told, in the order of address, headers and body.
Else the request is told as it is handed to the transport, all else in it as it was written. -/
theorem deliver_prepared (transport : Transport) (dispatch : Dispatch) :
    (deliver transport dispatch).token = dispatch.token ∧
    (deliver transport dispatch).environment = dispatch.environment ∧
    (dispatch.request.protocol = .grpc →
      deliver transport dispatch =
        dispatch.deliver (.failed "grpc transport is not available")) ∧
    (dispatch.request.protocol ≠ .grpc →
      (∀ name, dispatch.Lacks name →
        deliver transport dispatch = dispatch.deliver
          (.failed ("failed to prepare request: unknown variable '" ++ name ++ "'"))) ∧
      ((∀ name, ¬ dispatch.Lacks name) →
        ∃ call, Call.Prepared dispatch call ∧
          (deliver transport dispatch).reply = reply transport dispatch.request.protocol call ∧
          (deliver transport dispatch).request =
            { dispatch.request with
              method := call.method, url := call.url, headers := call.headers
              body := call.body })) := by
  by_cases hprotocol : dispatch.request.protocol = .grpc
  · rw [deliver_of_grpc hprotocol]
    exact ⟨rfl, rfl, fun _ => rfl, fun h => absurd hprotocol h⟩
  cases hcall : Call.ofDispatch dispatch with
  | error e =>
    have hlacks : dispatch.Lacks e.name := Call.lacks_iff.2 hcall
    have hdeliver : deliver transport dispatch = _ := deliver_of_error hprotocol hcall
    refine ⟨?_, ?_, fun h => absurd h hprotocol, fun _ => ⟨fun name hname => ?_, fun hnone => ?_⟩⟩
    · rw [hdeliver]
      rfl
    · rw [hdeliver]
      rfl
    · cases (Call.lacks_iff.1 hname).symm.trans hcall
      exact hdeliver
    · exact absurd hlacks (hnone e.name)
  | ok call =>
    have hdeliver : deliver transport dispatch = _ := deliver_of_ok hprotocol hcall
    refine ⟨?_, ?_, fun h => absurd h hprotocol, fun _ => ⟨fun name hname => ?_, fun _ => ?_⟩⟩
    · rw [hdeliver]
    · rw [hdeliver]
    · cases (Call.lacks_iff.1 hname).symm.trans hcall
    · refine ⟨call, Call.prepared_of_ofDispatch hcall, ?_, ?_⟩
      · rw [hdeliver]
      · rw [hdeliver, Call.executed]

end Http

end RequestFlow
