import RequestFlow.Document.Reading
import RequestFlow.Document.Writing
import RequestFlow.Proofs.Faults
import RequestFlow.Proofs.Markup.Printed

/-!
# Reading what was written

A reader and a writer fit together at a value when the reader gives the value for what the writer
makes of it. The readers of texts, options, lists and maps fit their writers wherever the readers of
the parts do, and a record is read field by field when its members are fields of the record, each
once, and none is missing that may not be left out.

* `ReadsBack`: reader and writer fit together at a value;
* `readsBack_optional`, `readsBack_listOf`, `readsBack_mapOf`: what is put together of parts;
* `Layout.read_object`: a record is what its members make of it in turn;
* `Layout.read_induction`: what holds of every record that is read;
* `Content.ofJson_compact`, `Content.ofJson_indented`: what is read from the text of a value.
-/

namespace RequestFlow

/-- What is written of the value is read as the value. -/
def ReadsBack {α : Type} (read : Node → Content α) (write : α → Json) (value : α) : Prop :=
  read (.ofJson (write value)) = .ok value

/-! ## Values as parsed text -/

namespace Node

@[simp] theorem ofJson_null : ofJson .null = null := by rw [ofJson]

@[simp] theorem ofJson_string (text : String) : ofJson (.string text) = string text := by
  rw [ofJson]

@[simp] theorem ofJson_number (n : Number) : ofJson (.number n) = number n := by rw [ofJson]

theorem ofJsonItems_eq (items : List Json) : ofJsonItems items = items.map ofJson := by
  induction items with
  | nil => rw [ofJsonItems, List.map_nil]
  | cons item rest ih => rw [ofJsonItems, ih, List.map_cons]

theorem ofJsonMembers_eq (members : List (String × Json)) :
    ofJsonMembers members = members.map fun member => (member.1, ofJson member.2) := by
  induction members with
  | nil => rw [ofJsonMembers, List.map_nil]
  | cons member rest ih => rw [ofJsonMembers, ih, List.map_cons]

@[simp] theorem ofJson_array (items : List Json) :
    ofJson (.array items) = array (items.map ofJson) := by
  rw [ofJson, ofJsonItems_eq]

@[simp] theorem ofJson_object (members : List (String × Json)) :
    ofJson (.object members) = object (members.map fun member => (member.1, ofJson member.2)) := by
  rw [ofJson, ofJsonMembers_eq]

theorem natural_nat {n : Nat} (h : n < Nat.pow 2 64) :
    natural (.number (.integer n)) = .ok n := by
  have hbound : (n : Int) < (Nat.pow 2 64 : Int) := Int.ofNat_lt.2 h
  have hlow : (0 : Int) ≤ n := Int.natCast_nonneg n
  simp only [natural, hlow, hbound, decide_true, Bool.and_self, if_true, Int.toNat_natCast]

theorem natural_lt {node : Node} {n : Nat} (h : natural node = .ok n) : n < Nat.pow 2 64 := by
  unfold natural at h
  split at h
  · split at h
    · rename_i m hbounds
      simp only [Bool.and_eq_true, decide_eq_true_eq] at hbounds
      rw [← Except.ok.inj h]
      have hpow : (Nat.pow 2 64 : Nat) = 18446744073709551616 := rfl
      omega
    · exact absurd h (by simp)
  · exact absurd h (by simp)

end Node

theorem Json.printed_nat {n depth : Nat} (h : n < Nat.pow 2 64) : Printed depth (.nat n) := by
  refine printed_integer ?_
  have hlow : -(Nat.pow 2 63 : Int) ≤ n := by
    have hpow : (Nat.pow 2 63 : Nat) = 9223372036854775808 := rfl
    omega
  have hhigh : (n : Int) < (Nat.pow 2 64 : Int) := Int.ofNat_lt.2 h
  simp only [Number.fitsInteger, hlow, hhigh, decide_true, Bool.and_self]

/-! ## Parts -/

section

variable {α : Type} {read : Node → Content α} {write : α → Json}

theorem readsBack_text (text : String) : ReadsBack Node.text .string text := by
  rw [ReadsBack, Node.ofJson_string]
  rfl

theorem readsBack_optional {value : Option α}
    (h : ∀ part ∈ value, ReadsBack read write part)
    (hthere : ∀ part ∈ value, (Node.ofJson (write part)).isAbsent = false) :
    ReadsBack (Node.optional read) (.orNull write) value := by
  cases value with
  | none =>
    rw [ReadsBack, Json.orNull, Node.ofJson_null]
    rfl
  | some part =>
    have hpart : read (.ofJson (write part)) = .ok part := h part rfl
    rw [ReadsBack, Json.orNull, Node.optional, hthere part rfl, hpart]
    rfl

theorem stringOrNull_eq : Json.stringOrNull = .orNull .string := by
  funext text
  cases text <;> rfl

theorem readsBack_textOrNull (text : Option String) :
    ReadsBack (Node.optional Node.text) .stringOrNull text := by
  rw [stringOrNull_eq]
  refine readsBack_optional (fun part _ => readsBack_text part) fun part _ => ?_
  rw [Node.ofJson_string]
  rfl

theorem each_ofJson {values : List α} (h : ∀ value ∈ values, ReadsBack read write value) :
    Node.each read (values.map fun value => .ofJson (write value)) = .ok values := by
  induction values with
  | nil => rfl
  | cons value rest ih =>
    have hvalue : read (.ofJson (write value)) = .ok value := h value (by simp)
    have hrest := ih fun part hpart => h part (List.mem_cons_of_mem value hpart)
    rw [List.map_cons, Node.each, hvalue, hrest]
    rfl

theorem mem_each {nodes : List Node} {values : List α} (h : Node.each read nodes = .ok values)
    {value : α} (hvalue : value ∈ values) : ∃ node, read node = .ok value := by
  induction nodes generalizing values with
  | nil =>
    obtain rfl := Except.ok.inj h
    exact absurd hvalue (by simp)
  | cons node rest ih =>
    rw [Node.each] at h
    obtain ⟨first, hfirst, h⟩ := ok_of_bind h
    obtain ⟨others, hothers, h⟩ := ok_of_bind h
    obtain rfl : first :: others = values := Except.ok.inj h
    rcases List.mem_cons.1 hvalue with rfl | hmem
    · exact ⟨node, hfirst⟩
    · exact ih hothers hmem

theorem readsBack_listOf {values : List α} (h : ∀ value ∈ values, ReadsBack read write value) :
    ReadsBack (Node.listOf read) (fun values => .array (values.map write)) values := by
  rw [ReadsBack, Node.ofJson_array, List.map_map]
  exact each_ofJson h

theorem eachMember_ofJson {entries : List (String × α)}
    (h : ∀ entry ∈ entries, ReadsBack read write entry.2) :
    Node.eachMember read (entries.map fun entry => (entry.1, .ofJson (write entry.2))) =
      .ok entries := by
  induction entries with
  | nil => rfl
  | cons entry rest ih =>
    have hentry : read (.ofJson (write entry.2)) = .ok entry.2 := h entry (by simp)
    have hrest := ih fun part hpart => h part (List.mem_cons_of_mem entry hpart)
    rw [List.map_cons, Node.eachMember, hentry, hrest]
    rfl

/-- A map is read back with its entries in their order. -/
theorem readsBack_mapOf {m : OrderedMap α} (h : ∀ entry ∈ m.entries, ReadsBack read write entry.2) :
    ReadsBack (Node.mapOf read)
      (fun m => .object (m.entries.map fun entry => (entry.1, write entry.2))) m := by
  rw [ReadsBack, Node.ofJson_object, List.map_map]
  have hentries := eachMember_ofJson h
  simp only [Function.comp_def, Node.mapOf, hentries, Except.map, OrderedMap.ofList_entries]

end

/-! ## Maps of texts -/

theorem whole_string (text : String) : (Node.string text).whole = .ok (.string text) := by
  simp [Node.whole, Node.settle, Node.complete, Node.toJson]

theorem scalarTexts_string (entries : List (String × String)) :
    Node.scalarTexts (entries.map fun entry => (entry.1, .string entry.2)) = .ok entries := by
  induction entries with
  | nil => rfl
  | cons entry rest ih =>
    rw [List.map_cons, Node.scalarTexts, ih]
    rfl

/-- The map with its texts as values. -/
def TextMap.toValues (m : TextMap) : OrderedMap Json where
  entries := m.entries.map fun entry => (entry.1, .string entry.2)
  nodup := by
    rw [List.map_map]
    exact m.nodup

/-- A map of texts is read back, although it might hold scalars of any kind. -/
theorem readsBack_scalarMap (m : TextMap) : ReadsBack Node.scalarMap TextMap.toJson m := by
  have hparts : ∀ entry ∈ m.toValues.entries, ReadsBack Node.whole id entry.2 := by
    intro entry hentry
    obtain ⟨text, -, rfl⟩ := List.mem_map.1 hentry
    rw [ReadsBack, id, Node.ofJson_string]
    exact whole_string text.2
  have hread : (Node.ofJson m.toJson).mapOf Node.whole = .ok m.toValues := by
    have hvalues := readsBack_mapOf hparts
    simpa [ReadsBack, TextMap.toJson, TextMap.toValues, Function.comp_def] using hvalues
  have hthere : (Node.ofJson m.toJson).isAbsent = false := by
    rw [TextMap.toJson, Node.ofJson_object]
    rfl
  rw [ReadsBack, Node.scalarMap, Node.optional, hthere, if_neg (by decide), hread]
  have htexts := scalarTexts_string m.entries
  simp only [Except.map, bind, Except.bind, Option.getD_some, TextMap.toValues, htexts, pure,
    Except.pure, OrderedMap.ofList_entries]

/-! ## Records -/

namespace Layout

variable {α : Type} (layout : Layout α)

/-- The keys are fields of the record, each once, and no required field is missing. -/
def Fits (keys : List String) : Bool :=
  keys.all (· ∈ layout.fields) && decide keys.Nodup && layout.required.all (· ∈ keys)

/-- Fills in the fields that members name, in turn. -/
def fillAll (value : α) (members : List (String × Node)) : Content α :=
  members.foldlM (fun value member => layout.fill value member.1 member.2) value

variable {layout}

theorem fillMembers_of_fields {members : List (String × Node)} {value : α} {seen : List String}
    (hfields : ∀ member ∈ members, member.1 ∈ layout.fields)
    (hnodup : (members.map Prod.fst ++ seen).Nodup) :
    layout.fillMembers value seen members =
      (layout.fillAll value members).map fun value =>
        (value, (members.map Prod.fst).reverse ++ seen) := by
  induction members generalizing value seen with
  | nil => rfl
  | cons member rest ih =>
    obtain ⟨key, node⟩ := member
    have hkey : key ∈ layout.fields := hfields (key, node) (by simp)
    have hseen : key ∉ seen := by
      simp only [List.map_cons, List.cons_append, List.nodup_cons, List.mem_append, not_or] at hnodup
      exact hnodup.1.2
    have hrest : (rest.map Prod.fst ++ key :: seen).Nodup :=
      (List.perm_middle.nodup_iff).2 (by simpa using hnodup)
    rw [fillMembers, if_pos hkey, if_neg hseen, fillAll, List.foldlM_cons]
    cases hfill : layout.fill value key node with
    | error fault => rfl
    | ok filled =>
      have hih := @ih filled (key :: seen) (fun part hpart => hfields part (by simp [hpart])) hrest
      simpa [bind, Except.bind, fillAll] using hih

theorem ofMembers_of_fits {members : List (String × Node)}
    (h : layout.Fits (members.map Prod.fst) = true) :
    layout.ofMembers members = layout.fillAll layout.blank members := by
  simp only [Fits, Bool.and_eq_true, List.all_eq_true, decide_eq_true_eq] at h
  obtain ⟨⟨hfields, hnodup⟩, hrequired⟩ := h
  rw [ofMembers, fillMembers_of_fields (fun member hmem => hfields _ (List.mem_map_of_mem hmem))
    (by simpa using hnodup)]
  have hall : (layout.required.all (· ∈ (members.map Prod.fst).reverse ++ [])) = true := by
    simpa using hrequired
  cases layout.fillAll layout.blank members with
  | error fault => rfl
  | ok value => simp only [Except.map, bind, Except.bind, hall, if_true, pure, Except.pure]

/-- A record is what its members make of it in turn. -/
theorem read_object {positional : Bool} {members : List (String × Json)}
    (h : layout.Fits (members.map Prod.fst) = true) :
    layout.read positional (.ofJson (.object members)) =
      layout.fillAll layout.blank (members.map fun member => (member.1, .ofJson member.2)) := by
  rw [Node.ofJson_object, read]
  refine ofMembers_of_fits ?_
  rw [List.map_map]
  exact h

section

variable {P : α → List String → Prop} {seen : List String} {value result : α}

theorem fillMembers_induction
    (hfill : ∀ value seen field node result, P value seen →
      layout.fill value field node = .ok result → P result (field :: seen))
    {members : List (String × Node)} {after : List String} (h : P value seen)
    (hread : layout.fillMembers value seen members = .ok (result, after)) : P result after := by
  induction members generalizing value seen with
  | nil =>
    obtain ⟨rfl, rfl⟩ := Prod.mk.inj (Except.ok.inj hread)
    exact h
  | cons member rest ih =>
    obtain ⟨key, node⟩ := member
    rw [fillMembers] at hread
    split at hread
    · split at hread
      · exact absurd hread (by simp)
      · obtain ⟨filled, hvalue, hread⟩ := ok_of_bind hread
        exact ih (hfill value seen key node filled h hvalue) hread
    · split at hread
      · exact ih h hread
      · exact absurd hread (by simp)

theorem fillItems_induction
    (hfill : ∀ value seen field node result, P value seen →
      layout.fill value field node = .ok result → P result (field :: seen))
    {fields : List String} {items : List Node} (h : P value seen)
    (hrequired : ∀ field ∈ layout.required, field ∈ fields ∨ field ∈ seen)
    (hread : layout.fillItems value fields items = .ok result) :
    ∃ after, P result after ∧ ∀ field ∈ layout.required, field ∈ after := by
  induction items generalizing value seen fields with
  | nil =>
    rw [fillItems] at hread
    split at hread
    · exact absurd hread (by simp)
    · rename_i hnone
      obtain rfl := Except.ok.inj hread
      refine ⟨seen, h, fun field hfield => (hrequired field hfield).resolve_left fun hleft => ?_⟩
      exact hnone (List.any_eq_true.2 ⟨field, hleft, decide_eq_true hfield⟩)
  | cons node rest ih =>
    cases fields with
    | nil => exact absurd hread (by simp [fillItems])
    | cons first fields =>
      rw [fillItems] at hread
      obtain ⟨filled, hvalue, hread⟩ := ok_of_bind hread
      refine ih (hfill value seen first node filled h hvalue) (fun field hfield => ?_) hread
      rcases hrequired field hfield with hleft | hseen
      · rcases List.mem_cons.1 hleft with rfl | hleft
        · exact .inr (List.mem_cons_self ..)
        · exact .inl hleft
      · exact .inr (List.mem_cons_of_mem first hseen)

/-- What holds of the blank record, and is kept whenever a field is filled in, holds of every record
that is read; `P` also knows the fields filled in, and those required are among them. -/
theorem read_induction (hblank : P layout.blank [])
    (hfill : ∀ value seen field node result, P value seen →
      layout.fill value field node = .ok result → P result (field :: seen))
    (hrequired : ∀ field ∈ layout.required, field ∈ layout.fields) {positional : Bool} {node : Node}
    (hread : layout.read positional node = .ok result) :
    ∃ seen, P result seen ∧ ∀ field ∈ layout.required, field ∈ seen := by
  have hmembers : ∀ members, layout.ofMembers members = .ok result →
      ∃ seen, P result seen ∧ ∀ field ∈ layout.required, field ∈ seen := by
    intro members hread
    rw [ofMembers] at hread
    obtain ⟨⟨value, seen⟩, hfilled, hread⟩ := ok_of_bind hread
    simp only at hread
    split at hread
    · rename_i hall
      obtain rfl := Except.ok.inj hread
      exact ⟨seen, fillMembers_induction hfill hblank hfilled, by simpa using hall⟩
    · exact absurd hread (by simp)
  unfold Layout.read at hread
  split at hread
  · exact hmembers _ hread
  · split at hread
    · exact fillItems_induction hfill hblank (fun field hfield => .inl (hrequired field hfield)) hread
    · exact absurd hread (by simp)
  · split at hread
    · exact hmembers _ hread
    · exact absurd hread (by simp)

end

/-- A field of its own is taken out from among the members of another record. -/
theorem besides_object {β : Type} {field : String} {read : Option Node → Content β} {value : β}
    {record : α} {node : Node} {before after : List (String × Node)}
    (hothers : ∀ member ∈ before ++ after, member.1 ≠ field) (hown : read (some node) = .ok value)
    (hrecord : layout.ofMembers (before ++ after) = .ok record) :
    layout.besides field read (.object (before ++ (field, node) :: after)) = .ok (value, record) := by
  have hnone : (before ++ after).filter (fun member => member.1 == field) = [] :=
    List.filter_eq_nil_iff.2 fun member hmem => by simpa using hothers member hmem
  have hall : (before ++ after).filter (fun member => member.1 != field) = before ++ after :=
    List.filter_eq_self.2 fun member hmem => by simpa using hothers member hmem
  rw [List.filter_append] at hnone hall
  obtain ⟨hbefore, hafter⟩ := List.append_eq_nil_iff.1 hnone
  simp [besides, List.filter_append, hbefore, hafter, hall, hown, hrecord]
  rfl

end Layout

/-! ## Texts -/

section

variable {α : Type} (read : Node → Content α) {value : Json}

/-- What a text describes was read from a node. -/
theorem Content.exists_of_ofJson {text : String} {result : α}
    (h : Content.ofJson read text = .ok result) : ∃ node, read node = .ok result := by
  rw [Content.ofJson] at h
  generalize JsonText.read text.toList = outcome at h
  obtain ⟨value, hread, h⟩ := ok_of_bind h
  cases hfault : outcome.2.isSome with
  | true =>
    rw [hfault] at h
    exact absurd h (by simp [throw, throwThe, MonadExceptOf.throw, bind, Except.bind])
  | false =>
    rw [hfault] at h
    obtain rfl : value = result := Except.ok.inj h
    exact ⟨_, hread⟩

theorem Content.ofJson_compact (h : Json.Printed JsonText.maxDepth value) :
    Content.ofJson read value.compact = read (.ofJson value) := by
  rw [Content.ofJson, Json.read_compact h]
  exact bind_pure (read (.ofJson value))

theorem Content.ofJson_indented (h : Json.Printed JsonText.maxDepth value) :
    Content.ofJson read value.indented = read (.ofJson value) := by
  rw [Content.ofJson, Json.read_indented h]
  exact bind_pure (read (.ofJson value))

end

end RequestFlow
