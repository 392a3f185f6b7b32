import RequestFlow.Proofs.OrderedMap
import RequestFlow.Run.Dispatch

/-!
# What look-ups find

The index of a document finds, under a name, the last request with that name, and whatever it finds
goes by the name it was found under.

* `Document.get?_requestIndex`: the index finds the last request with a name;
* `Document.name_of_get?`: a request of the index goes by its own name.
-/

namespace RequestFlow

namespace Document

variable (document : Document)

theorem get?_requestIndex (name : String) :
    document.requestIndex.get? name = document.findRequest? name := by
  rw [requestIndex, OrderedMap.get?_ofList, ← List.map_reverse, List.find?_map, Option.map_map,
    findRequest?]
  exact Option.map_id'

variable {document}

/-- A request of the index goes by the name it is found under. -/
theorem name_of_get? {name : String} {request : Request}
    (h : document.requestIndex.get? name = some request) : request.name = name := by
  rw [get?_requestIndex] at h
  simpa using List.find?_some h

/-- A request of the index is in the index under its own name. -/
theorem get?_name {name : String} {request : Request}
    (h : document.requestIndex.get? name = some request) :
    document.requestIndex.get? request.name = some request := name_of_get? h ▸ h

end Document

end RequestFlow
