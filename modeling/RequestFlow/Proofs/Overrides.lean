import RequestFlow.Proofs.RequestIndex

/-!
# The last one counts

Requests may share a name, and so may variables of several layers. In both cases the last one
counts, while the name keeps the place where it first came up. For layers it makes no difference
whether they are laid over each other one by one or in two stages.

* `Document.Indexed`: what the index of a document has to do with its requests;
* `Merges`: what a map has to do with the layers that it is put together from;
* `last_counts`: every index and all variables of a step are put together in this way.
-/

namespace RequestFlow

/-- From the back, the first that is found is the last. -/
theorem exists_reverse_eq {α : Type} {xs : List α} {x : α} {p : α → Prop} :
    (∃ after before, xs.reverse = after ++ x :: before ∧ ∀ later ∈ after, p later) ↔
      ∃ before after, xs = before ++ x :: after ∧ ∀ later ∈ after, p later := by
  constructor
  · rintro ⟨after, before, hreverse, hafter⟩
    refine ⟨before.reverse, after.reverse, ?_, fun later hlater => ?_⟩
    · rw [← xs.reverse_reverse, hreverse]
      simp
    · exact hafter later (List.mem_reverse.1 hlater)
  · rintro ⟨before, after, rfl, hafter⟩
    refine ⟨after.reverse, before.reverse, by simp, fun later hlater => ?_⟩
    exact hafter later (List.mem_reverse.1 hlater)

/-! ## Requests -/

namespace Document

/-- The index and the requests agree on every name. -/
structure Indexed (document : Document) : Prop where
  /-- No name comes twice. -/
  once : document.requestIndex.keys.Nodup
  /-- The names stand in the order in which they first come up. -/
  inOrder : document.requestIndex.keys = (document.requests.map Request.name).eraseDups
  /-- A search of the requests finds the last one with a name. -/
  last : ∀ name request, document.findRequest? name = some request ↔
    request.name = name ∧ ∃ before after, document.requests = before ++ request :: after ∧
      ∀ later ∈ after, later.name ≠ name
  /-- The index finds what the search finds. -/
  found : ∀ name, document.requestIndex.get? name = document.findRequest? name
  /-- Each request stands under its own name. -/
  named : ∀ name request, (name, request) ∈ document.requestIndex.entries → request.name = name
  /-- The name of a request that was found finds it again. -/
  again : ∀ name request, document.requestIndex.get? name = some request →
    document.requestIndex.get? request.name = some request

theorem keys_requestIndex (document : Document) :
    document.requestIndex.keys = (document.requests.map Request.name).eraseDups := by
  rw [requestIndex, OrderedMap.keys_ofList, List.map_map]
  rfl

theorem findRequest?_eq_some_iff {document : Document} {name : String} {request : Request} :
    document.findRequest? name = some request ↔
      request.name = name ∧ ∃ before after, document.requests = before ++ request :: after ∧
        ∀ later ∈ after, later.name ≠ name := by
  rw [findRequest?, List.find?_eq_some_iff_append]
  simp only [Bool.not_eq_true', beq_iff_eq, beq_eq_false_iff_ne, exists_reverse_eq]

theorem indexed (document : Document) : document.Indexed where
  once := document.requestIndex.nodup
  inOrder := document.keys_requestIndex
  last _ _ := findRequest?_eq_some_iff
  found := document.get?_requestIndex
  named _ _ hentry := name_of_get? (OrderedMap.get?_eq_some_iff.2 hentry)
  again _ _ := get?_name

end Document

/-! ## Layers -/

/-- The layers as one map, each laid over those before it. -/
def mergeAll (layers : List TextMap) : TextMap := layers.foldl .overlay .empty

/-- The map is put together from the layers. -/
structure Merges (layers : List TextMap) (merged : TextMap) : Prop where
  /-- No name comes twice. -/
  once : merged.keys.Nodup
  /-- The names stand in the order in which they first come up. -/
  inOrder : merged.keys = (layers.flatMap OrderedMap.keys).eraseDups
  /-- The last layer that has a name gives its value. -/
  last : ∀ name value, merged.get? name = some value ↔
    ∃ layer, layer.get? name = some value ∧ ∃ before after, layers = before ++ layer :: after ∧
      ∀ later ∈ after, later.get? name = none
  /-- The layers from some place on may be laid over what those before it come to. -/
  onward : ∀ count,
    (layers.drop count).foldl .overlay (mergeAll (layers.take count)) = merged
  /-- So may the one map that they come to themselves. -/
  inStages : ∀ count,
    (mergeAll (layers.take count)).overlay (mergeAll (layers.drop count)) = merged

section

variable {layers : List TextMap}

theorem mergeAll_eq_ofList (layers : List TextMap) :
    mergeAll layers = .ofList (layers.flatMap OrderedMap.entries) :=
  OrderedMap.foldl_overlay ..

theorem keys_mergeAll (layers : List TextMap) :
    (mergeAll layers).keys = (layers.flatMap OrderedMap.keys).eraseDups := by
  rw [mergeAll_eq_ofList, OrderedMap.keys_ofList, List.map_flatMap]
  rfl

theorem get?_mergeAll {name value : String} :
    (mergeAll layers).get? name = some value ↔
      ∃ layer, layer.get? name = some value ∧ ∃ before after,
        layers = before ++ layer :: after ∧ ∀ later ∈ after, later.get? name = none := by
  rw [mergeAll, OrderedMap.get?_foldl_overlay, OrderedMap.get?_empty, Option.or_none,
    List.findSome?_eq_some_iff]
  simp only [← exists_reverse_eq]
  constructor
  · rintro ⟨after, layer, before, hlayers, hvalue, hafter⟩
    exact ⟨layer, hvalue, after, before, hlayers, hafter⟩
  · rintro ⟨layer, hvalue, after, before, hlayers, hafter⟩
    exact ⟨after, layer, before, hlayers, hvalue, hafter⟩

theorem foldl_overlay_mergeAll (first second : List TextMap) :
    second.foldl .overlay (mergeAll first) = mergeAll (first ++ second) :=
  List.foldl_append.symm

/-- Two stages, each put together on its own. -/
theorem overlay_mergeAll (first second : List TextMap) :
    (mergeAll first).overlay (mergeAll second) = mergeAll (first ++ second) := by
  rw [mergeAll_eq_ofList second, OrderedMap.overlay_ofList, ← OrderedMap.foldl_overlay,
    foldl_overlay_mergeAll]

theorem merges_mergeAll (layers : List TextMap) : Merges layers (mergeAll layers) where
  once := (mergeAll layers).nodup
  inOrder := keys_mergeAll layers
  last _ _ := get?_mergeAll
  onward count := by rw [foldl_overlay_mergeAll, List.take_append_drop]
  inStages count := by rw [overlay_mergeAll, List.take_append_drop]

end

/-- The index of a document has each name of its requests once, in order of first occurrence, with
the last request that has it, which is what a search of the requests finds; and what is found goes
by the name it was found under. The six layers of variables, that of the document first and that of
a loop last, come to a map that has each of their names once, in order of first occurrence, with the
value of the last layer that has it; and they come to the same map in two stages. -/
theorem last_counts :
    (∀ document : Document, document.Indexed) ∧
      ∀ document request environment workflow step loop : TextMap,
        Merges [document, request, environment, workflow, step, loop]
          (Layers.merge { document, request, environment, workflow, step, loop }) := by
  refine ⟨Document.indexed, fun document request environment workflow step loop => ?_⟩
  rw [Layers.merge, Layers.toList_mk]
  exact merges_mergeAll _

end RequestFlow
