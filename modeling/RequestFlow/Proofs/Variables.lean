import RequestFlow.Proofs.RequestIndex

/-!
# Values of variables

A name has the value that the strongest layer gives it, and none where no layer does. The variables
of a step are templates; filled in, each has the text of its own template and depends on no other of
them, so neither their order nor what they are filled in to matters to one another.

* `Workflow.get?_initialVariables`: the variables that a workflow starts with;
* `Layers.get?_merge`: the value of a name in all layers;
* `Template.Fills`: what it is for variables to be filled in;
* `Template.fills_of_renderMap`, `Template.renderMap_of_renders`: variables are filled in if and
  only if each template can be;
* `Template.renderMap_of_perm`: their order does not matter.
-/

namespace RequestFlow

/-- A workflow starts with the values of the options that are for variables. -/
theorem Workflow.get?_initialVariables (workflow : Workflow) (name : String) :
    workflow.initialVariables.get? name =
      if name = "" then none else workflow.options.get? ("vars." ++ name) := by
  have hapart (option other name : String) (h : seeded? option = some name)
      (hother : seeded? other = some name) : option = other := by
    rw [(seeded?_eq_some_iff.1 h).1, (seeded?_eq_some_iff.1 hother).1]
  ext value
  rw [initialVariables, OrderedMap.get?_renamed hapart]
  simp only [seeded?_eq_some_iff]
  by_cases hname : name = ""
  · simp [hname]
  · simp [hname]

/-- The strongest layer that has a name gives its value. -/
theorem Layers.get?_merge (layers : Layers) (name : String) :
    layers.merge.get? name =
      (layers.loop.get? name).or ((layers.step.get? name).or ((layers.workflow.get? name).or
        ((layers.environment.get? name).or ((layers.request.get? name).or
          (layers.document.get? name))))) := by
  simp only [merge, toList, List.foldl_cons, List.foldl_nil, OrderedMap.get?_overlay,
    OrderedMap.get?_empty, Option.or_none]

namespace Template

variable {scope templates layer : TextMap}

/-- The layer has the names of the templates, each with the text of its template in the scope. -/
structure Fills (scope templates layer : TextMap) : Prop where
  rendered : ∀ name template, templates.get? name = some template →
    ∃ text, render scope template = .ok text ∧ layer.get? name = some text
  others : ∀ name, templates.get? name = none → layer.get? name = none

theorem renderPairs_cons (scope : TextMap) (key template : String)
    (rest : List (String × String)) :
    renderPairs scope ((key, template) :: rest) =
      match render scope template with
      | .error e => .error e
      | .ok value => (renderPairs scope rest).map ((key, value) :: ·) := by
  rw [renderPairs]
  cases render scope template with
  | error e => rfl
  | ok value => cases renderPairs scope rest <;> rfl

/-- Pairs that are filled in keep their keys, and each takes the text of its own template. -/
theorem find?_renderPairs {pairs rendered : List (String × String)}
    (h : renderPairs scope pairs = .ok rendered) :
    rendered.map Prod.fst = pairs.map Prod.fst ∧
      (∀ name template, OrderedMap.find? name pairs = some template →
        ∃ text, render scope template = .ok text ∧ OrderedMap.find? name rendered = some text) ∧
      ∀ name, OrderedMap.find? name pairs = none → OrderedMap.find? name rendered = none := by
  induction pairs generalizing rendered with
  | nil =>
    cases h
    exact ⟨rfl, nofun, fun _ hnone => hnone⟩
  | cons pair rest ih =>
    obtain ⟨key, template⟩ := pair
    rw [renderPairs_cons] at h
    cases hrender : render scope template with
    | error e => simp [hrender] at h
    | ok text =>
      cases hrest : renderPairs scope rest with
      | error e => simp [hrender, hrest, Except.map] at h
      | ok filled =>
        simp only [hrender, hrest, Except.map, Except.ok.injEq] at h
        subst h
        obtain ⟨hkeys, hsome, hnone⟩ := ih hrest
        refine ⟨by rw [List.map_cons, List.map_cons, hkeys], ?_, ?_⟩
        · intro name other hother
          rw [OrderedMap.find?] at hother ⊢
          split at hother
          · rename_i hname
            cases hother
            exact ⟨text, hrender, by rw [if_pos hname]⟩
          · rename_i hname
            rw [if_neg hname]
            exact hsome name other hother
        · intro name hother
          rw [OrderedMap.find?] at hother ⊢
          split at hother
          · cases hother
          · rename_i hname
            rw [if_neg hname]
            exact hnone name hother

theorem entries_of_renderMap (h : renderMap scope templates = .ok layer) :
    renderPairs scope templates.entries = .ok layer.entries := by
  cases hpairs : renderPairs scope templates.entries with
  | error e => simp [renderMap, hpairs, Except.map] at h
  | ok rendered =>
    have hkeys := (find?_renderPairs hpairs).1
    have hlayer : layer = ⟨rendered, hkeys ▸ templates.nodup⟩ := by
      simp only [renderMap, hpairs, Except.map, Except.ok.injEq] at h
      rw [← h]
      exact OrderedMap.ofList_entries ⟨rendered, hkeys ▸ templates.nodup⟩
    rw [hlayer]

/-- What variables are filled in to. -/
theorem fills_of_renderMap (h : renderMap scope templates = .ok layer) :
    Fills scope templates layer := by
  obtain ⟨-, hsome, hnone⟩ := find?_renderPairs (entries_of_renderMap h)
  exact ⟨hsome, hnone⟩

theorem renderPairs_of_renders {pairs : List (String × String)}
    (h : ∀ pair ∈ pairs, ∃ text, render scope pair.2 = .ok text) :
    ∃ rendered, renderPairs scope pairs = .ok rendered := by
  induction pairs with
  | nil => exact ⟨[], rfl⟩
  | cons pair rest ih =>
    obtain ⟨⟨text, htext⟩, hrest⟩ := List.forall_mem_cons.1 h
    obtain ⟨rendered, hrendered⟩ := ih hrest
    exact ⟨(pair.1, text) :: rendered, by rw [renderPairs_cons, htext, hrendered]; rfl⟩

/-- Variables can be filled in if each of their templates can. -/
theorem renderMap_of_renders
    (h : ∀ name template, templates.get? name = some template →
      ∃ text, render scope template = .ok text) :
    ∃ layer, renderMap scope templates = .ok layer := by
  obtain ⟨rendered, hrendered⟩ := renderPairs_of_renders fun pair hpair =>
    h pair.1 pair.2 (OrderedMap.get?_eq_some_iff.2 hpair)
  exact ⟨.ofList rendered, by rw [renderMap, hrendered]; rfl⟩

/-- Two ways to fill in the same variables give the same values. -/
theorem Fills.get?_eq {other : TextMap} (h : Fills scope templates layer)
    (hother : Fills scope templates other) (name : String) : other.get? name = layer.get? name := by
  cases htemplate : templates.get? name with
  | none => rw [h.others name htemplate, hother.others name htemplate]
  | some template =>
    obtain ⟨text, htext, hvalue⟩ := h.rendered name template htemplate
    obtain ⟨again, hagain, hsame⟩ := hother.rendered name template htemplate
    cases htext.symm.trans hagain
    rw [hvalue, hsame]

/-- The order of variables matters neither to whether they can be filled in nor to their values. -/
theorem renderMap_of_perm {permuted : TextMap} (hperm : permuted.entries.Perm templates.entries)
    (h : renderMap scope templates = .ok layer) :
    ∃ other, renderMap scope permuted = .ok other ∧
      ∀ name, other.get? name = layer.get? name := by
  have hfills := fills_of_renderMap h
  have hsame := OrderedMap.get?_of_perm hperm
  obtain ⟨other, hother⟩ : ∃ other, renderMap scope permuted = .ok other := by
    refine renderMap_of_renders fun name template htemplate => ?_
    obtain ⟨text, htext, -⟩ := hfills.rendered name template (hsame name ▸ htemplate)
    exact ⟨text, htext⟩
  have hfilled := fills_of_renderMap hother
  refine ⟨other, hother, hfills.get?_eq ⟨fun name template htemplate => ?_, fun name hnone => ?_⟩⟩
  · exact hfilled.rendered name template ((hsame name).trans htemplate)
  · exact hfilled.others name ((hsame name).trans hnone)

end Template

end RequestFlow
