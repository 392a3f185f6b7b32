import Mathlib.Data.List.Basic

/-!
# Texts that say what was written

A writer puts values of some kind into a text, part by part. It is legible if the text says what was
written: two values that give the same text, whatever follows, are the same, and so is what follows.
A part may be left out, or come any number of times; then a mark at its front tells it from what
comes next. So what may follow a part is stated by marks as well, and what a part begins with is
what may follow the part before it.

* `Begins`, `Distinct`, `Led`: what texts begin with;
* `Legible`: the writers whose texts say what was written;
* `Legible.seq`: one part after another, the second legible once the first is known;
* `Legible.each`, `Legible.joined`: a part that comes any number of times, none included;
* `legible_until`: plain text, up to the first of some characters.
-/

namespace RequestFlow.Text

variable {α β : Type} {before middle after : List String} {mark sep : String}
variable {valid : α → Prop} {write : α → List Char}

/-! ## Marks -/

/-- Nothing is left, or what is left begins with one of the marks. -/
def Begins (marks : List String) (cs : List Char) : Prop :=
  cs = [] ∨ ∃ mark ∈ marks, mark.toList <+: cs

/-- No text begins both with the mark and with one of the others. -/
def Distinct (mark : String) (others : List String) : Prop :=
  mark.toList ≠ [] ∧
    ∀ other ∈ others, ¬ mark.toList <+: other.toList ∧ ¬ other.toList <+: mark.toList

instance (mark : String) (others : List String) : Decidable (Distinct mark others) :=
  inferInstanceAs (Decidable (_ ∧ _))

theorem begins_append (h : mark ∈ before) (cs : List Char) : Begins before (mark.toList ++ cs) :=
  .inr ⟨mark, h, List.prefix_append mark.toList cs⟩

theorem Begins.cons {cs : List Char} (h : Begins after cs) : Begins (mark :: after) cs := by
  rcases h with hnil | ⟨other, hother, hprefix⟩
  · exact .inl hnil
  · exact .inr ⟨other, List.mem_cons_of_mem mark hother, hprefix⟩

/-- What begins with one of the marks does not begin with a mark distinct from them. -/
theorem Distinct.ne_append (h : Distinct mark after) {rest : List Char} (hrest : Begins after rest)
    (cs : List Char) : rest ≠ mark.toList ++ cs := by
  rintro rfl
  rcases hrest with hnil | ⟨other, hother, hprefix⟩
  · exact h.1 (List.append_eq_nil_iff.1 hnil).1
  · have hmark : mark.toList <+: mark.toList ++ cs := List.prefix_append ..
    rcases List.prefix_or_prefix_of_prefix hmark hprefix with hle | hle
    · exact (h.2 other hother).1 hle
    · exact (h.2 other hother).2 hle

theorem Distinct.cons {other : String} (h : Distinct mark [other]) (h' : Distinct mark after) :
    Distinct mark (other :: after) :=
  ⟨h.1, List.forall_mem_cons.2 ⟨h.2 other List.mem_cons_self, h'.2⟩⟩

/-- Each of the marks begins with one of the characters. -/
def Led (stops : List Char) (marks : List String) : Prop :=
  ∀ mark ∈ marks, mark.toList.head?.any (stops.contains ·) = true

instance (stops : List Char) (marks : List String) : Decidable (Led stops marks) :=
  inferInstanceAs (Decidable (∀ mark ∈ marks, mark.toList.head?.any (stops.contains ·) = true))

theorem Led.cons {stops : List Char} (h : Led stops after) (hmark : Led stops [mark]) :
    Led stops (mark :: after) :=
  List.forall_mem_cons.2 ⟨hmark mark List.mem_cons_self, h⟩

theorem Led.head {stops : List Char} (h : Led stops after) (hmark : mark ∈ after) :
    ∃ c ∈ stops, ∃ cs, mark.toList = c :: cs := by
  obtain ⟨c, hhead, hstop⟩ := (Option.any_eq_true _ _).1 (h mark hmark)
  exact ⟨c, List.contains_iff_mem.1 hstop, List.head?_eq_some_iff.1 hhead⟩

theorem Led.mono {stops more : List Char} (h : Led stops after) (hmore : stops ⊆ more) :
    Led more after := by
  intro mark hmark
  obtain ⟨c, hstop, cs, hcs⟩ := h.head hmark
  simp [hcs, hmore hstop]

/-- A mark is told from marks that are led by other characters. -/
theorem Led.distinct {stops : List Char} {c : Char} (h : Led stops after)
    (hmark : mark.toList.head? = some c) (hc : c ∉ stops) : Distinct mark after := by
  obtain ⟨cs, hcs⟩ := List.head?_eq_some_iff.1 hmark
  refine ⟨by simp [hcs], fun other hother => ?_⟩
  obtain ⟨d, hstop, ds, hds⟩ := h.head hother
  have hne : c ≠ d := fun heq => hc (heq ▸ hstop)
  simp [hcs, hds, List.cons_prefix_cons, hne, hne.symm]

/-- What begins with one of the marks is led by a character of theirs. -/
theorem Led.of_begins {stops : List Char} (h : Led stops after) {cs : List Char}
    (hbegins : Begins after cs) : ∀ c ∈ cs.head?, c ∈ stops := by
  rintro c hc
  rcases hbegins with rfl | ⟨mark, hmark, rest, rfl⟩
  · cases hc
  · obtain ⟨stop, hstop, tail, htail⟩ := h.head hmark
    rw [htail] at hc
    cases hc
    exact hstop

/-- Two texts that end where the same characters end them. -/
theorem append_unique {p : Char → Bool} {cs ds rest rest' : List Char}
    (hcs : ∀ c ∈ cs, p c = true) (hds : ∀ d ∈ ds, p d = true)
    (hrest : ∀ c ∈ rest.head?, p c = false) (hrest' : ∀ c ∈ rest'.head?, p c = false)
    (h : cs ++ rest = ds ++ rest') : cs = ds ∧ rest = rest' := by
  have hends {rest : List Char} (hrest : ∀ c ∈ rest.head?, p c = false) :
      rest.takeWhile p = [] := by
    cases rest with
    | nil => rfl
    | cons c rest => exact List.takeWhile_cons_of_neg (by simp [hrest c rfl])
  have hfront : cs = ds := by
    have htaken := congrArg (List.takeWhile p) h
    rwa [List.takeWhile_append_of_pos hcs, List.takeWhile_append_of_pos hds, hends hrest,
      hends hrest', List.append_nil, List.append_nil] at htaken
  subst hfront
  exact ⟨rfl, List.append_cancel_left h⟩

/-! ## Legible writers -/

/-- The text says which of the valid values was written, whatever follows that begins with one of
the marks after it; and with what follows, it begins with one of the marks before it. -/
structure Legible (before after : List String) (valid : α → Prop) (write : α → List Char) :
    Prop where
  begins : ∀ {a rest}, valid a → Begins after rest → Begins before (write a ++ rest)
  unique : ∀ {a b rest rest'}, valid a → valid b → Begins after rest → Begins after rest' →
    write a ++ rest = write b ++ rest' → a = b ∧ rest = rest'

namespace Legible

theorem congr {write' : α → List Char} (h : Legible before after valid write)
    (heq : ∀ a, valid a → write' a = write a) : Legible before after valid write' := by
  refine ⟨fun {a rest} ha hrest => ?_, fun {a b rest rest'} ha hb hrest hrest' hsame => ?_⟩
  · rw [heq a ha]
    exact h.begins ha hrest
  · rw [heq a ha, heq b hb] at hsame
    exact h.unique ha hb hrest hrest' hsame

theorem mono {valid' : α → Prop} (h : Legible before after valid write)
    (hvalid : ∀ a, valid' a → valid a) : Legible before after valid' write :=
  ⟨fun ha => h.begins (hvalid _ ha), fun ha hb => h.unique (hvalid _ ha) (hvalid _ hb)⟩

/-- A value is written through something that identifies it. -/
theorem comap {valid' : β → Prop} (h : Legible before after valid write) (f : β → α)
    (hvalid : ∀ b, valid' b → valid (f b))
    (hf : ∀ b b', valid' b → valid' b' → f b = f b' → b = b') :
    Legible before after valid' fun b => write (f b) := by
  refine ⟨fun hb hrest => h.begins (hvalid _ hb) hrest, ?_⟩
  intro b b' rest rest' hb hb' hrest hrest' hsame
  obtain ⟨hfb, htail⟩ := h.unique (hvalid b hb) (hvalid b' hb') hrest hrest' hsame
  exact ⟨hf b b' hb hb' hfb, htail⟩

/-- Marks may be made shorter. -/
theorem loosen (h : Legible middle after valid write)
    (hmarks : ∀ mark ∈ middle, ∃ short ∈ before, short.toList <+: mark.toList) :
    Legible before after valid write := by
  refine ⟨fun ha hrest => ?_, h.unique⟩
  rcases h.begins ha hrest with hnil | ⟨mark, hmark, hprefix⟩
  · exact .inl hnil
  · obtain ⟨short, hshort, hle⟩ := hmarks mark hmark
    exact .inr ⟨short, hshort, hle.trans hprefix⟩

/-- A mark in front. -/
theorem marked (h : Legible before after valid write) (mark : String) :
    Legible [mark] after valid fun a => mark.toList ++ write a := by
  refine ⟨fun {a rest} _ _ => ?_, fun {a b rest rest'} ha hb hrest hrest' hsame => ?_⟩
  · rw [List.append_assoc]
    exact begins_append List.mem_cons_self _
  · rw [List.append_assoc, List.append_assoc] at hsame
    exact h.unique ha hb hrest hrest' (List.append_cancel_left hsame)

/-- Nothing is written where nothing is left to be told. -/
theorem nothing (h : ∀ a b, valid a → valid b → a = b) :
    Legible after after valid fun _ => [] :=
  ⟨fun _ hrest => hrest, fun ha hb _ _ hsame => ⟨h _ _ ha hb, hsame⟩⟩

/-- One part after another: what is behind the first is legible among values that agree in it. -/
theorem seq {part : β → Prop} {first : β → List Char} {f : α → β} {later : α → List Char}
    (hfirst : Legible before middle part first) (hvalid : ∀ a, valid a → part (f a))
    (hlater : ∀ a, valid a → Legible middle after (fun b => valid b ∧ f b = f a) later) :
    Legible before after valid fun a => first (f a) ++ later a := by
  have hbegins {a rest} (ha : valid a) (hrest : Begins after rest) :
      Begins middle (later a ++ rest) :=
    (hlater a ha).begins ⟨ha, rfl⟩ hrest
  refine ⟨fun {a rest} ha hrest => ?_, fun {a b rest rest'} ha hb hrest hrest' hsame => ?_⟩
  · rw [List.append_assoc]
    exact hfirst.begins (hvalid a ha) (hbegins ha hrest)
  · rw [List.append_assoc, List.append_assoc] at hsame
    obtain ⟨hf, htail⟩ := hfirst.unique (hvalid a ha) (hvalid b hb) (hbegins ha hrest)
      (hbegins hb hrest') hsame
    exact (hlater b hb).unique ⟨ha, hf⟩ ⟨hb, rfl⟩ hrest hrest' htail

/-- One part after another, which have nothing to do with each other. -/
theorem pair {valid' : β → Prop} {write' : β → List Char} (h : Legible before middle valid write)
    (h' : Legible middle after valid' write') :
    Legible before after (fun both => valid both.1 ∧ valid' both.2)
      fun both : α × β => write both.1 ++ write' both.2 := by
  refine h.seq (f := Prod.fst) (fun _ hboth => hboth.1) fun _ _ => ?_
  refine h'.comap Prod.snd (fun _ hboth => hboth.1.2) ?_
  exact fun _ _ hboth hother hsnd => Prod.ext (hboth.2.trans hother.2.symm) hsnd

/-- Values that are all made in one way, from what is written of them. -/
theorem through (make : β → α)
    (h : Legible before after (fun b => valid (make b)) fun b => write (make b))
    (hmake : ∀ a, valid a → ∃ b, make b = a) : Legible before after valid write := by
  refine ⟨fun {a rest} ha hrest => ?_, fun {a a' rest rest'} ha ha' hrest hrest' hsame => ?_⟩
  · obtain ⟨b, rfl⟩ := hmake a ha
    exact h.begins ha hrest
  · obtain ⟨b, rfl⟩ := hmake a ha
    obtain ⟨b', rfl⟩ := hmake a' ha'
    obtain ⟨rfl, htail⟩ := h.unique ha ha' hrest hrest' hsame
    exact ⟨rfl, htail⟩

end Legible

/-! ## Parts that come any number of times -/

/-- Each of the items, with the mark in front. -/
def each (mark : String) (write : α → List Char) (items : List α) : List Char :=
  items.flatMap fun item => mark.toList ++ write item

/-- The items with separators between them, and the mark in front if there are any. -/
def joined (mark sep : String) (write : α → List Char) : List α → List Char
  | [] => []
  | first :: later => mark.toList ++ (write first ++ each sep write later)

theorem each_cons (mark : String) (write : α → List Char) (item : α) (items : List α) :
    each mark write (item :: items) = mark.toList ++ (write item ++ each mark write items) := by
  simp [each]

theorem joined_self (mark : String) (write : α → List Char) (items : List α) :
    joined mark mark write items = each mark write items := by
  cases items with
  | nil => rfl
  | cons item items => rw [joined, each_cons]

theorem joined_eq_intercalate (mark sep : String) (write : α → List Char) {items : List α}
    (hne : items ≠ []) :
    joined mark sep write items = mark.toList ++ sep.toList.intercalate (items.map write) := by
  cases items with
  | nil => exact absurd rfl hne
  | cons item items =>
    rw [joined, List.append_cancel_left_eq]
    clear hne
    induction items generalizing item with
    | nil => simp [each]
    | cons next items ih =>
      rw [each_cons, ih, List.map_cons, List.map_cons, List.map_cons, List.intercalate_cons_cons,
        List.append_assoc]

namespace Legible

theorem each (h : Legible before (mark :: after) valid write) (hmark : Distinct mark after) :
    Legible (mark :: after) after (fun items => ∀ item ∈ items, valid item)
      (each mark write) := by
  have hbegins {items rest} (hrest : Begins after rest) :
      Begins (mark :: after) (Text.each mark write items ++ rest) := by
    cases items with
    | nil => exact hrest.cons
    | cons item items =>
      rw [each_cons, List.append_assoc]
      exact begins_append List.mem_cons_self _
  refine ⟨fun _ hrest => hbegins hrest, ?_⟩
  intro as bs rest rest' has hbs hrest hrest' hsame
  -- where one list ends before the other, its rest would begin with the mark of the next item
  induction as generalizing bs with
  | nil =>
    cases bs with
    | nil => exact ⟨rfl, hsame⟩
    | cons b bs =>
      rw [each_cons, List.append_assoc] at hsame
      exact absurd hsame (hmark.ne_append hrest _)
  | cons a as ih =>
    cases bs with
    | nil =>
      rw [each_cons, List.append_assoc] at hsame
      exact absurd hsame.symm (hmark.ne_append hrest' _)
    | cons b bs =>
      rw [List.forall_mem_cons] at has hbs
      simp only [each_cons, List.append_assoc, List.append_cancel_left_eq] at hsame
      obtain ⟨rfl, htail⟩ := h.unique has.1 hbs.1 (hbegins hrest) (hbegins hrest') hsame
      obtain ⟨rfl, hends⟩ := ih has.2 hbs.2 htail
      exact ⟨rfl, hends⟩

/-- A part that may be left out. -/
theorem optional (h : Legible before (mark :: after) valid write) (hmark : Distinct mark after) :
    Legible (mark :: after) after (fun part => ∀ item ∈ part, valid item)
      (fun part : Option α => Text.each mark write part.toList) := by
  refine (h.each hmark).comap Option.toList (fun part hpart item hitem => ?_) ?_
  · exact hpart item (Option.mem_toList.1 hitem)
  · intro part part' _ _ hsame
    cases part <;> cases part' <;> simp_all

theorem joined (h : Legible before (sep :: after) valid write) (hmark : Distinct mark after)
    (hsep : Distinct sep after) :
    Legible (mark :: after) after (fun items => ∀ item ∈ items, valid item)
      (joined mark sep write) := by
  have hlater := h.each hsep
  refine ⟨fun {items rest} hitems hrest => ?_, ?_⟩
  · cases items with
    | nil => exact hrest.cons
    | cons item items =>
      rw [Text.joined, List.append_assoc]
      exact begins_append List.mem_cons_self _
  intro as bs rest rest' has hbs hrest hrest' hsame
  cases as with
  | nil =>
    cases bs with
    | nil => exact ⟨rfl, hsame⟩
    | cons b bs =>
      simp only [Text.joined, List.nil_append, List.append_assoc] at hsame
      exact absurd hsame (hmark.ne_append hrest _)
  | cons a as =>
    cases bs with
    | nil =>
      simp only [Text.joined, List.nil_append, List.append_assoc] at hsame
      exact absurd hsame.symm (hmark.ne_append hrest' _)
    | cons b bs =>
      rw [List.forall_mem_cons] at has hbs
      simp only [Text.joined, List.append_assoc, List.append_cancel_left_eq] at hsame
      obtain ⟨rfl, htail⟩ := h.unique has.1 hbs.1 (hlater.begins has.2 hrest)
        (hlater.begins hbs.2 hrest') hsame
      obtain ⟨rfl, hends⟩ := hlater.unique has.2 hbs.2 hrest hrest' htail
      exact ⟨rfl, hends⟩

end Legible

/-! ## Plain text -/

/-- Plain text is read up to the first of the characters that end it. -/
theorem legible_until {stops : List Char} (h : Led stops after) :
    Legible [""] after (fun text => ∀ c ∈ stops, c ∉ text.toList) String.toList := by
  refine ⟨fun _ _ => begins_append List.mem_cons_self _, ?_⟩
  intro text text' rest rest' htext htext' hrest hrest' hsame
  have hinside {text : String} (htext : ∀ c ∈ stops, c ∉ text.toList) :
      ∀ c ∈ text.toList, (decide (c ∉ stops)) = true :=
    fun c hc => decide_eq_true fun hstop => htext c hstop hc
  have hends {rest : List Char} (hrest : Begins after rest) :
      ∀ c ∈ rest.head?, (decide (c ∉ stops)) = false :=
    fun c hc => by simpa using h.of_begins hrest c hc
  obtain ⟨hfront, htail⟩ := append_unique (hinside htext) (hinside htext') (hends hrest)
    (hends hrest') hsame
  exact ⟨String.toList_injective hfront, htail⟩

end RequestFlow.Text
