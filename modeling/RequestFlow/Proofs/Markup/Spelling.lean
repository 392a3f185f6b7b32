import Mathlib.Data.Nat.Init
import RequestFlow.Json.Printer
import RequestFlow.Proofs.Markup.Numeral

/-!
# Reading values

The grammar of JSON texts as a relation, with blanks wherever they may stand, and what the reader
makes of a text that follows it.

* `Spells`: a text spells a value whose lists and objects nest no deeper than a number;
* `Spells.takes`: the reader takes such a text off the front of a text and gives the value, its
  members in the order of the text;
* `read_of_spells`: so it reads such a text to its end and finds no fault.
-/

namespace RequestFlow.JsonText

/-! ## What the reader takes -/

/-- A value is taken off a text, and `rest` is left. -/
def Outcome.Takes {α : Type} {n : Nat} (outcome : Outcome α n) (value : α) (rest : List Char) :
    Prop :=
  ∃ h, outcome = .done value rest h

section

variable {α β : Type} {m n : Nat} {value : α} {rest : List Char}

theorem Outcome.takes_widen {outcome : Outcome α m} (hle : m ≤ n) :
    (outcome.widen hle).Takes value rest ↔ outcome.Takes value rest := by
  cases outcome with
  | done taken left hshort =>
    constructor
    · rintro ⟨_, ⟨⟩⟩
      exact ⟨hshort, rfl⟩
    · rintro ⟨_, ⟨⟩⟩
      exact ⟨Nat.lt_of_lt_of_le hshort hle, rfl⟩
  | cut =>
    constructor <;> rintro ⟨_, ⟨⟩⟩

theorem Outcome.Takes.map {outcome : Outcome α n} (h : outcome.Takes value rest) (f : α → β) :
    (outcome.map f).Takes (f value) rest := by
  obtain ⟨hshort, rfl⟩ := h
  exact ⟨hshort, rfl⟩

end

/-! ## Blanks -/

/-- Nothing but blanks. -/
def Gap (cs : List Char) : Prop := ∀ c ∈ cs, isSpace c = true

/-- The next character is there, and is no blank. -/
def Solid (cs : List Char) : Prop := ∃ c rest, cs = c :: rest ∧ isSpace c = false

theorem gap_nil : Gap [] := by simp [Gap]

theorem Solid.append {cs : List Char} (h : Solid cs) (rest : List Char) : Solid (cs ++ rest) := by
  obtain ⟨c, more, rfl, hc⟩ := h
  exact ⟨c, more ++ rest, rfl, hc⟩

theorem solid_cons {c : Char} (h : isSpace c = false) (rest : List Char) : Solid (c :: rest) :=
  ⟨c, rest, rfl, h⟩

/-- Blanks are skipped up to the next character. -/
theorem skipSpace_gap {gap cs : List Char} (hgap : Gap gap) (hcs : Solid cs) :
    ∃ h, skipSpace (gap ++ cs) = ⟨cs, h⟩ := by
  obtain ⟨c, rest, rfl, hc⟩ := hcs
  refine ⟨by simp, Subtype.ext ?_⟩
  simp only [skipSpace]
  rw [List.dropWhile_append_of_pos hgap, List.dropWhile_cons_of_neg (by simp [hc])]

/-- A blank is no character of a number. -/
theorem ended_gap {gap cs : List Char} (hgap : Gap gap) (hcs : Ended cs) : Ended (gap ++ cs) := by
  match gap, hgap with
  | [], _ => exact hcs
  | c :: gap, hgap =>
    refine ended_cons ?_ (gap ++ cs)
    have hc : isSpace c = true := hgap c (by simp)
    simp only [isSpace, Bool.or_eq_true, beq_iff_eq] at hc
    rcases hc with ((rfl | rfl) | rfl) | rfl <;> decide

/-! ## Strings -/

theorem hexValue_hexDigit : ∀ n < 16, hexValue? (Json.hexDigit n) = some n := by decide

theorem hexCode_hexDigit {n : Nat} (hn : n < 256) (rest : List Char) :
    ∃ h, hexCode ('0' :: '0' :: Json.hexDigit (n / 16) :: Json.hexDigit (n % 16) :: rest) =
      .ok ⟨n, rest, h⟩ := by
  have hzero : hexValue? '0' = some 0 := by decide
  have hhigh := hexValue_hexDigit (n / 16) (by omega)
  have hlow := hexValue_hexDigit (n % 16) (by omega)
  refine ⟨by simp only [List.length_cons]; omega, ?_⟩
  have hvalue : ((0 * 16 + 0) * 16 + n / 16) * 16 + n % 16 = n := by omega
  simp only [hexCode, hzero, hhigh, hlow, hvalue]

/-- A control character is read from its code. -/
theorem escapeSequence_control {c : Char} (hc : c.toNat < 32) (rest : List Char) :
    ∃ h, escapeSequence ('u' :: '0' :: '0' :: Json.hexDigit (c.toNat / 16) ::
      Json.hexDigit (c.toNat % 16) :: rest) = .ok ⟨c, rest, h⟩ := by
  obtain ⟨h, hcode⟩ := hexCode_hexDigit (n := c.toNat) (by omega) rest
  refine ⟨by simp only [List.length_cons]; omega, ?_⟩
  have hlow : isLowSurrogate c.toNat = false := by
    simp only [isLowSurrogate, Bool.and_eq_false_iff, decide_eq_false_iff_not]
    omega
  have hhigh : isHighSurrogate c.toNat = false := by
    simp only [isHighSurrogate, Bool.and_eq_false_iff, decide_eq_false_iff_not]
    omega
  simp only [escapeSequence, if_true, unicodeEscape, bind, Except.bind, hcode, hlow, hhigh,
    Bool.false_eq_true, if_false, Bool.not_false, Char.ofNat_toNat]
  rfl

/-- A character that is written with a backslash is read from what follows the backslash. -/
theorem escapeSequence_simple {letter c : Char} (hletter : simpleEscape? letter = some c)
    (hu : letter ≠ 'u') (rest : List Char) :
    ∃ h, escapeSequence (letter :: rest) = .ok ⟨c, rest, h⟩ :=
  ⟨by simp, by simp only [escapeSequence, if_neg hu, hletter]⟩

section

variable {body rest cs more : List Char}

/-- The characters of a string are taken off a text up to its closing quote. -/
def TakesBody (cs body rest : List Char) : Prop := ∃ h, stringBody cs = .ok ⟨body, rest, h⟩

theorem takesBody_escaped {c : Char} (hc : ∃ h, escapeSequence cs = .ok ⟨c, more, h⟩)
    (h : TakesBody more body rest) : TakesBody ('\\' :: cs) (c :: body) rest := by
  obtain ⟨hshort, hc⟩ := hc
  obtain ⟨hshort', h⟩ := h
  refine ⟨by simp only [List.length_cons]; omega, ?_⟩
  rw [stringBody]
  simp [hc, h]

theorem takesBody_plain {c : Char} (hquote : c ≠ '"') (hslash : c ≠ '\\') (hc : ¬ c.toNat < 32)
    (h : TakesBody cs body rest) : TakesBody (c :: cs) (c :: body) rest := by
  obtain ⟨hshort, h⟩ := h
  refine ⟨by simp only [List.length_cons]; omega, ?_⟩
  rw [stringBody]
  simp [hquote, hslash, hc, h]

/-- A character is read back from the way it is written. -/
theorem takesBody_escapeChar (c : Char) (h : TakesBody cs body rest) :
    TakesBody (Json.escapeChar c ++ cs) (c :: body) rest := by
  unfold Json.escapeChar
  split
  · subst c
    exact takesBody_escaped (escapeSequence_simple (by decide) (by decide) cs) h
  split
  · subst c
    exact takesBody_escaped (escapeSequence_simple (by decide) (by decide) cs) h
  split
  · subst c
    exact takesBody_escaped (escapeSequence_simple (by decide) (by decide) cs) h
  split
  · subst c
    exact takesBody_escaped (escapeSequence_simple (by decide) (by decide) cs) h
  split
  · subst c
    exact takesBody_escaped (escapeSequence_simple (by decide) (by decide) cs) h
  split
  · rename_i hcode
    rw [← Char.ofNat_toNat c, hcode]
    exact takesBody_escaped (escapeSequence_simple (by decide) (by decide) cs) h
  split
  · rename_i hcode
    rw [← Char.ofNat_toNat c, hcode]
    exact takesBody_escaped (escapeSequence_simple (by decide) (by decide) cs) h
  split
  · rename_i hcontrol
    exact takesBody_escaped (escapeSequence_control hcontrol cs) h
  · rename_i hquote hslash _ _ _ _ _ hcontrol
    exact takesBody_plain hquote hslash hcontrol h

/-- A string is read back from what stands between its quotes. -/
theorem takesBody_escape (text rest : List Char) :
    TakesBody (Json.escape text ++ '"' :: rest) text rest := by
  induction text with
  | nil =>
    have hclose : TakesBody ('"' :: rest) [] rest := ⟨by simp, by rw [stringBody]; simp⟩
    exact hclose
  | cons c text ih =>
    have hcons : Json.escape (c :: text) ++ '"' :: rest =
        Json.escapeChar c ++ (Json.escape text ++ '"' :: rest) := by
      simp only [Json.escape, List.flatMap_cons, List.append_assoc]
    rw [hcons]
    exact takesBody_escapeChar c ih

theorem takesBody_toList (text : String) (rest : List Char) :
    TakesBody (Json.escape text.toList ++ '"' :: rest) text.toList rest :=
  takesBody_escape text.toList rest

end

/-! ## The grammar -/

/-- What stands in front of an item or a member: blanks, behind a comma unless it is the first. -/
inductive Lead : Bool → List Char → Prop where
  | first {gap : List Char} (h : Gap gap) : Lead true gap
  | next {gap gap' : List Char} (h : Gap gap) (h' : Gap gap') : Lead false (gap ++ ',' :: gap')

mutual

/-- The text spells the value, whose lists and objects nest at most `depth` deep. -/
inductive Spells : Nat → Json → List Char → Prop where
  | null {depth : Nat} : Spells depth .null ['n', 'u', 'l', 'l']
  | yes {depth : Nat} : Spells depth (.bool true) ['t', 'r', 'u', 'e']
  | no {depth : Nat} : Spells depth (.bool false) ['f', 'a', 'l', 's', 'e']
  | number {depth : Nat} (x : Numeral) {n : Number} (h : x.literal.value? = some n) :
    Spells depth (.number n) x.text
  | string {depth : Nat} (text : String) : Spells depth (.string text) (Json.quoted text)
  | array {depth : Nat} {items : List Json} {cs : List Char} (h : SpellsItems depth true items cs) :
    Spells (depth + 1) (.array items) ('[' :: cs)
  | object {depth : Nat} {members : List (String × Json)} {cs : List Char}
    (h : SpellsMembers depth true members cs) :
    Spells (depth + 1) (.object members) ('{' :: cs)

/-- The text spells the items of a list that are left, up to the closing bracket; the flag says that
there was none before them. -/
inductive SpellsItems : Nat → Bool → List Json → List Char → Prop where
  | close {depth : Nat} {first : Bool} {gap : List Char} (h : Gap gap) :
    SpellsItems depth first [] (gap ++ [']'])
  | item {depth : Nat} {first : Bool} {item : Json} {items : List Json} {lead cs rest : List Char}
    (hlead : Lead first lead) (hitem : Spells depth item cs)
    (hrest : SpellsItems depth false items rest) :
    SpellsItems depth first (item :: items) (lead ++ (cs ++ rest))

/-- The text spells the members of an object that are left, up to the closing brace. -/
inductive SpellsMembers : Nat → Bool → List (String × Json) → List Char → Prop where
  | close {depth : Nat} {first : Bool} {gap : List Char} (h : Gap gap) :
    SpellsMembers depth first [] (gap ++ ['}'])
  | member {depth : Nat} {first : Bool} {key : String} {value : Json}
    {members : List (String × Json)} {lead gap gap' cs rest : List Char}
    (hlead : Lead first lead) (hgap : Gap gap) (hgap' : Gap gap') (hvalue : Spells depth value cs)
    (hrest : SpellsMembers depth false members rest) :
    SpellsMembers depth first ((key, value) :: members)
      (lead ++ (Json.quoted key ++ (gap ++ ':' :: (gap' ++ (cs ++ rest)))))

end

section

variable {depth : Nat} {first : Bool} {json : Json} {items : List Json}
  {members : List (String × Json)} {cs : List Char}

/-- The character that begins the text of a value. -/
theorem Spells.head (h : Spells depth json cs) :
    ∃ c rest, cs = c :: rest ∧ isSpace c = false ∧ c ≠ ']' := by
  cases h with
  | number x =>
    obtain ⟨c, rest, hcs, hc⟩ := x.text_head
    refine ⟨c, rest, hcs, ?_⟩
    rcases hc with rfl | hc
    · decide
    · exact ⟨isSpace_of_isDigit hc, ne_of_isDigit hc (by decide)⟩
  | _ => exact ⟨_, _, rfl, by decide, by decide⟩

theorem Spells.solid (h : Spells depth json cs) : Solid cs := by
  obtain ⟨c, rest, hcs, hc, -⟩ := h.head
  exact ⟨c, rest, hcs, hc⟩

theorem ended_lead {lead : List Char} (h : Lead false lead) (rest : List Char) :
    Ended (lead ++ rest) := by
  cases h with
  | next hgap =>
    rw [List.append_assoc]
    exact ended_gap hgap (ended_cons (by decide) _)

theorem SpellsItems.ended (h : SpellsItems depth false items cs) (rest : List Char) :
    Ended (cs ++ rest) := by
  cases h with
  | close hgap =>
    rw [List.append_assoc]
    exact ended_gap hgap (ended_cons (by decide) rest)
  | item hlead =>
    rw [List.append_assoc]
    exact ended_lead hlead _

theorem SpellsMembers.ended (h : SpellsMembers depth false members cs) (rest : List Char) :
    Ended (cs ++ rest) := by
  cases h with
  | close hgap =>
    rw [List.append_assoc]
    exact ended_gap hgap (ended_cons (by decide) rest)
  | member hlead =>
    rw [List.append_assoc]
    exact ended_lead hlead _

end

/-! ## Reading -/

section

variable {depth : Nat} {node : Node} {cs rest : List Char}

/-- Blanks in front of a value are passed over. -/
theorem value_gap {gap : List Char} (hgap : Gap gap) (hcs : Solid cs)
    (h : (value depth cs).Takes node rest) : (value depth (gap ++ cs)).Takes node rest := by
  obtain ⟨hle, hskip⟩ := skipSpace_gap hgap hcs
  obtain ⟨c, more, rfl, hc⟩ := hcs
  rw [value, skipSpace_of_not_space hc] at h
  rw [value, hskip]
  exact (Outcome.takes_widen hle).2 ((Outcome.takes_widen (Nat.le_refl _)).1 h)

theorem value_word {c : Char} {letters : List Char}
    (hc : (c, letters, node) ∈ [('n', ['u', 'l', 'l'], Node.null),
      ('t', ['r', 'u', 'e'], .bool true), ('f', ['a', 'l', 's', 'e'], .bool false)]) :
    (value depth (c :: (letters ++ rest))).Takes node rest := by
  simp only [List.mem_cons, List.not_mem_nil, or_false, Prod.mk.injEq] at hc
  rcases hc with ⟨rfl, rfl, rfl⟩ | ⟨rfl, rfl, rfl⟩ | ⟨rfl, rfl, rfl⟩ <;>
  · refine ⟨by simp; omega, ?_⟩
    rw [value, skipSpace_of_not_space (by decide)]
    simp [wordValue, word, Except.map, Outcome.widen]

theorem value_string (text : String) :
    (value depth (Json.quoted text ++ rest)).Takes (.string text) rest := by
  obtain ⟨h, hbody⟩ := takesBody_toList text rest
  have htext : Json.quoted text ++ rest = '"' :: (Json.escape text.toList ++ '"' :: rest) := by
    simp [Json.quoted]
  rw [htext]
  refine ⟨Nat.lt_succ_of_lt h, ?_⟩
  rw [value, skipSpace_of_not_space (by decide)]
  simp [hbody, Outcome.ofStep, Outcome.widen, String.ofList_toList]

theorem value_array {nodes : List Node} (h : (items depth true cs).Takes nodes rest) :
    (value (depth + 1) ('[' :: cs)).Takes (.array nodes) rest := by
  obtain ⟨hshort, hitems⟩ := h
  refine ⟨Nat.lt_succ_of_lt hshort, ?_⟩
  rw [value, skipSpace_of_not_space (by decide)]
  simp [hitems, Outcome.map, Outcome.widen]

theorem value_object {nodes : List (String × Node)} (h : (members depth true cs).Takes nodes rest) :
    (value (depth + 1) ('{' :: cs)).Takes (.object nodes) rest := by
  obtain ⟨hshort, hmembers⟩ := h
  refine ⟨Nat.lt_succ_of_lt hshort, ?_⟩
  rw [value, skipSpace_of_not_space (by decide)]
  simp [hmembers, Outcome.map, Outcome.widen]

theorem items_close {first : Bool} {gap : List Char} (hgap : Gap gap) :
    (items depth first (gap ++ ']' :: rest)).Takes [] rest := by
  obtain ⟨hle, hskip⟩ := skipSpace_gap hgap (solid_cons (c := ']') (by decide) rest)
  refine ⟨by simp; omega, ?_⟩
  rw [items, hskip]
  simp [Outcome.widen]

theorem members_close {first : Bool} {gap : List Char} (hgap : Gap gap) :
    (members depth first (gap ++ '}' :: rest)).Takes [] rest := by
  obtain ⟨hle, hskip⟩ := skipSpace_gap hgap (solid_cons (c := '}') (by decide) rest)
  refine ⟨by simp; omega, ?_⟩
  rw [members, hskip]
  simp [Outcome.widen]

/-- An item is read behind what stands in front of it. -/
theorem items_lead {first : Bool} {lead : List Char} {nodes : List Node} (hlead : Lead first lead)
    (hcs : ∃ c more, cs = c :: more ∧ isSpace c = false ∧ c ≠ ']')
    (h : (item depth cs).Takes nodes rest) : (items depth first (lead ++ cs)).Takes nodes rest := by
  obtain ⟨c, more, rfl, hspace, hclose⟩ := hcs
  have hsolid : Solid (c :: more) := solid_cons hspace more
  cases hlead with
  | first hgap =>
    obtain ⟨hle, hskip⟩ := skipSpace_gap hgap hsolid
    rw [items, hskip]
    simpa [hclose, Outcome.takes_widen] using h
  | next hgap hgap' =>
    obtain ⟨hle, hskip⟩ := skipSpace_gap hgap (solid_cons (c := ',') (by decide) _)
    obtain ⟨hle', hskip'⟩ := skipSpace_gap hgap' hsolid
    rw [List.append_assoc, List.cons_append, items, hskip]
    simp only [if_neg (show ¬ ',' = ']' by decide), Bool.false_eq_true, if_false, if_true]
    generalize skipSpace _ = skipped at hskip' ⊢
    subst hskip'
    simpa [hclose, Outcome.takes_widen] using h

/-- A member is read behind what stands in front of it. -/
theorem members_lead {first : Bool} {lead : List Char} {nodes : List (String × Node)}
    (hlead : Lead first lead) (h : (member depth cs).Takes nodes rest) :
    (members depth first (lead ++ '"' :: cs)).Takes nodes rest := by
  have hsolid : Solid ('"' :: cs) := solid_cons (by decide) cs
  cases hlead with
  | first hgap =>
    obtain ⟨hle, hskip⟩ := skipSpace_gap hgap hsolid
    rw [members, hskip]
    simpa [Outcome.takes_widen] using h
  | next hgap hgap' =>
    obtain ⟨hle, hskip⟩ := skipSpace_gap hgap (solid_cons (c := ',') (by decide) _)
    obtain ⟨hle', hskip'⟩ := skipSpace_gap hgap' hsolid
    rw [List.append_assoc, List.cons_append, members, hskip]
    simp only [if_neg (show ¬ ',' = '}' by decide), Bool.false_eq_true, if_false, if_true]
    generalize skipSpace _ = skipped at hskip' ⊢
    subst hskip'
    simpa [Outcome.takes_widen] using h

theorem item_takes {more : List Char} {nodes : List Node} (h : (value depth cs).Takes node more)
    (hrest : (items depth false more).Takes nodes rest) :
    (item depth cs).Takes (node :: nodes) rest := by
  obtain ⟨hshort, hvalue⟩ := h
  rw [item, hvalue]
  exact (Outcome.takes_widen _).2 (hrest.map _)

theorem member_takes {key : String} {gap gap' more : List Char} {nodes : List (String × Node)}
    (hgap : Gap gap) (hgap' : Gap gap') (hcs : Solid cs) (h : (value depth cs).Takes node more)
    (hrest : (members depth false more).Takes nodes rest) :
    (member depth (Json.escape key.toList ++ '"' :: (gap ++ ':' :: (gap' ++ cs)))).Takes
      ((key, node) :: nodes) rest := by
  obtain ⟨_, hbody⟩ := takesBody_toList key (gap ++ ':' :: (gap' ++ cs))
  obtain ⟨_, hskip⟩ := skipSpace_gap hgap (solid_cons (c := ':') (by decide) (gap' ++ cs))
  obtain ⟨hshort, hvalue⟩ := value_gap hgap' hcs h
  rw [member, hbody]
  simp only [String.ofList_toList]
  generalize skipSpace _ = skipped at hskip ⊢
  subst hskip
  simp only [if_true, hvalue]
  exact (Outcome.takes_widen _).2 (hrest.map _)

end

mutual

/-- The reader takes the text of a value off the front of a text. -/
theorem Spells.takes {depth : Nat} {json : Json} {cs : List Char} (h : Spells depth json cs)
    {rest : List Char} (hr : Ended rest) :
    (value depth (cs ++ rest)).Takes (.ofJson json) rest := by
  match h with
  | .null =>
    rw [Node.ofJson]
    exact value_word (by simp)
  | .yes =>
    rw [Node.ofJson]
    exact value_word (by simp)
  | .no =>
    rw [Node.ofJson]
    exact value_word (by simp)
  | .number x hn => exact value_numeral x hn depth hr
  | .string text => exact value_string text
  | .array hitems => exact value_array (hitems.takes rest)
  | .object hmembers => exact value_object (hmembers.takes rest)

/-- The reader takes the items of a list and the closing bracket off the front of a text. -/
theorem SpellsItems.takes {depth : Nat} {first : Bool} {list : List Json} {cs : List Char}
    (h : SpellsItems depth first list cs) (rest : List Char) :
    (items depth first (cs ++ rest)).Takes (Node.ofJsonItems list) rest := by
  match h with
  | .close hgap =>
    rw [List.append_assoc]
    exact items_close hgap
  | .item hlead hitem hrest =>
    rw [List.append_assoc, List.append_assoc]
    obtain ⟨c, more, hcs, hc⟩ := hitem.head
    refine items_lead hlead ⟨c, _, by rw [hcs, List.cons_append], hc⟩ ?_
    exact item_takes (hitem.takes (hrest.ended rest)) (hrest.takes rest)

/-- The reader takes the members of an object and the closing brace off the front of a text. -/
theorem SpellsMembers.takes {depth : Nat} {first : Bool} {list : List (String × Json)}
    {cs : List Char} (h : SpellsMembers depth first list cs) (rest : List Char) :
    (members depth first (cs ++ rest)).Takes (Node.ofJsonMembers list) rest := by
  match h with
  | .close hgap =>
    rw [List.append_assoc]
    exact members_close hgap
  | @SpellsMembers.member _ _ key _ _ lead gap gap' cs more hlead hgap hgap' hvalue hrest =>
    have htext : lead ++ (Json.quoted key ++ (gap ++ ':' :: (gap' ++ (cs ++ more)))) ++ rest =
        lead ++ '"' :: (Json.escape key.toList ++
          '"' :: (gap ++ ':' :: (gap' ++ (cs ++ (more ++ rest))))) := by
      simp [Json.quoted]
    rw [htext]
    refine members_lead hlead (member_takes hgap hgap' (hvalue.solid.append _) ?_ (hrest.takes rest))
    exact hvalue.takes (hrest.ended rest)

end

/-- The reader reads the text of a value to its end and finds no fault. -/
theorem read_of_spells {json : Json} {cs : List Char} (h : Spells maxDepth json cs) :
    read cs = (.ofJson json, none) := by
  have htakes := h.takes ended_nil
  rw [List.append_nil] at htakes
  obtain ⟨hshort, hvalue⟩ := htakes
  rw [read, hvalue]
  rfl

end RequestFlow.JsonText
