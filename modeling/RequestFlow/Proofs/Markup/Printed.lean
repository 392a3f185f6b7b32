import RequestFlow.Proofs.Markup.Spelling
import RequestFlow.Proofs.Number.Digits

/-!
# Reading what was printed

Both layouts of a value spell the value, so the reader gives it back. This holds of values made of
null, flags, strings and integers that fit in 64 bits; how deep they nest is said by a number.

* `Printed`: both layouts of a value spell it;
* `Printed.array`, `Printed.object`: lists and objects of such values are such values;
* `read_compact`, `read_indented`: what the reader makes of the two layouts.
-/

namespace RequestFlow.Json

open JsonText

/-! ## Integers -/

/-- The numeral that an integer is written with. -/
def integerNumeral (n : Int) : Numeral where
  negative := n < 0
  whole := ⟨Nat.toDigits 10 n.natAbs, Nat.toDigits_ne_nil, fun _ hc =>
    Nat.isDigit_of_mem_toDigits (by decide) (by decide) hc⟩
  zeroAlone := fun h => by rw [Number.toDigits_head h]; decide
  fraction := none
  exponent := none

theorem integerNumeral_text (n : Int) : (integerNumeral n).text = Number.integerText n := by
  by_cases h : n < 0 <;>
    simp [integerNumeral, Numeral.text, Numeral.unsigned, Numeral.fractionText,
      Numeral.exponentText, Number.integerText, h]

/-- An integer that is kept as it is, is read back. -/
theorem integerNumeral_value {n : Int} (h : Number.fitsInteger n = true) :
    (integerNumeral n).literal.value? = some (.integer n) := by
  simp only [Number.fitsInteger, Bool.and_eq_true, decide_eq_true_eq] at h
  obtain ⟨hlow, hhigh⟩ := h
  have hbound : n.natAbs < Nat.pow 2 64 := by
    have h63 : (Nat.pow 2 63 : Nat) = 9223372036854775808 := rfl
    have h64 : (Nat.pow 2 64 : Nat) = 18446744073709551616 := rfl
    omega
  simp only [Number.Literal.value?, Numeral.literal, integerNumeral,
    Number.absorb_toDigits hbound, Option.map_none, Option.isNone_none, List.isEmpty_nil,
    Bool.and_self, if_true]
  by_cases hneg : n < 0
  · have hsize : ¬ (n.natAbs = 0 ∨ Nat.pow 2 63 < n.natAbs) := by omega
    have hvalue : -(n.natAbs : Int) = n := by omega
    simp only [hneg, decide_true, Bool.not_true, Bool.false_eq_true, if_false, Bool.or_eq_true,
      decide_eq_true_eq, hsize, hvalue]
  · have hvalue : (n.natAbs : Int) = n := by omega
    simp only [hneg, decide_false, Bool.not_false, if_true, hvalue]

/-! ## The two layouts -/

/-- Both layouts of the value spell it; its lists and objects nest at most `depth` deep. -/
structure Printed (depth : Nat) (value : Json) : Prop where
  compact : Spells depth value value.chars
  indented : ∀ indent, Spells depth value (indentedChars indent value)

section

variable {depth : Nat}

@[simp] theorem printed_null : Printed depth .null := ⟨.null, fun _ => .null⟩

@[simp] theorem printed_bool (flag : Bool) : Printed depth (.bool flag) := by
  cases flag
  · exact ⟨.no, fun _ => .no⟩
  · exact ⟨.yes, fun _ => .yes⟩

@[simp] theorem printed_string (text : String) : Printed depth (.string text) :=
  ⟨.string text, fun _ => .string text⟩

theorem printed_integer {n : Int} (h : Number.fitsInteger n = true) :
    Printed depth (.number (.integer n)) := by
  have hspells : Spells depth (.number (.integer n)) (Number.integerText n) := by
    rw [← integerNumeral_text]
    exact .number (integerNumeral n) (integerNumeral_value h)
  exact ⟨hspells, fun _ => hspells⟩

theorem gap_newline (indent : Nat) : Gap (newline indent) := by
  intro c hc
  simp only [newline, List.mem_cons, List.mem_replicate] at hc
  rcases hc with rfl | ⟨-, rfl⟩ <;> decide

/-- What stands in front of an item or a member when blanks follow the comma. -/
theorem lead_of_gap (first : Bool) {gap : List Char} (h : Gap gap) :
    Lead first ((if first then [] else [',']) ++ gap) := by
  cases first with
  | true => exact .first h
  | false => exact .next gap_nil h

/-- The texts of items with commas between them, up to the bracket. -/
theorem spellsItems_compact {items : List Json} (h : ∀ item ∈ items, Printed depth item)
    (hne : items ≠ []) (first : Bool) :
    SpellsItems depth first items
      ((if first then [] else [',']) ++ (itemChars items ++ [']'])) := by
  induction items generalizing first with
  | nil => exact absurd rfl hne
  | cons item rest ih =>
    have hitem := (h item (by simp)).compact
    have hlead := lead_of_gap first gap_nil
    rw [List.append_nil] at hlead
    cases rest with
    | nil => exact .item hlead hitem (.close gap_nil)
    | cons next rest =>
      have hrest := ih (fun x hx => h x (List.mem_cons_of_mem item hx)) (by simp) false
      simpa [itemChars] using SpellsItems.item hlead hitem hrest

/-- The texts of items on lines of their own, up to the bracket. -/
theorem spellsItems_indented {items : List Json} (h : ∀ item ∈ items, Printed depth item)
    (hne : items ≠ []) (first : Bool) (indent close : Nat) :
    SpellsItems depth first items
      ((if first then [] else [',']) ++ (indentedItems indent items ++ (newline close ++ [']']))) := by
  induction items generalizing first with
  | nil => exact absurd rfl hne
  | cons item rest ih =>
    have hitem := (h item (by simp)).indented indent
    have hlead := lead_of_gap first (gap_newline indent)
    cases rest with
    | nil => simpa [indentedItems] using SpellsItems.item hlead hitem (.close (gap_newline close))
    | cons next rest =>
      have hrest := ih (fun x hx => h x (List.mem_cons_of_mem item hx)) (by simp) false
      simpa [indentedItems] using SpellsItems.item hlead hitem hrest

/-- The texts of members with commas between them, up to the brace. -/
theorem spellsMembers_compact {members : List (String × Json)}
    (h : ∀ member ∈ members, Printed depth member.2) (hne : members ≠ []) (first : Bool) :
    SpellsMembers depth first members
      ((if first then [] else [',']) ++ (memberChars members ++ ['}'])) := by
  induction members generalizing first with
  | nil => exact absurd rfl hne
  | cons member rest ih =>
    obtain ⟨key, value⟩ := member
    have hvalue := (h (key, value) (by simp)).compact
    have hlead := lead_of_gap first gap_nil
    rw [List.append_nil] at hlead
    cases rest with
    | nil =>
      have hmember : SpellsMembers depth first [(key, value)] _ :=
        .member hlead gap_nil gap_nil hvalue (.close gap_nil)
      simpa [memberChars] using hmember
    | cons next rest =>
      have hrest := ih (fun x hx => h x (List.mem_cons_of_mem (key, value) hx)) (by simp) false
      have hmember : SpellsMembers depth first ((key, value) :: next :: rest) _ :=
        .member hlead gap_nil gap_nil hvalue hrest
      simpa [memberChars] using hmember

/-- The texts of members on lines of their own, up to the brace. -/
theorem spellsMembers_indented {members : List (String × Json)}
    (h : ∀ member ∈ members, Printed depth member.2) (hne : members ≠ []) (first : Bool)
    (indent close : Nat) :
    SpellsMembers depth first members
      ((if first then [] else [',']) ++
        (indentedMembers indent members ++ (newline close ++ ['}']))) := by
  have hspace : Gap [' '] := by
    intro c hc
    rw [List.mem_singleton.1 hc]
    decide
  induction members generalizing first with
  | nil => exact absurd rfl hne
  | cons member rest ih =>
    obtain ⟨key, value⟩ := member
    have hvalue := (h (key, value) (by simp)).indented indent
    have hlead := lead_of_gap first (gap_newline indent)
    cases rest with
    | nil =>
      have hmember : SpellsMembers depth first [(key, value)] _ :=
        .member hlead gap_nil hspace hvalue (.close (gap_newline close))
      simpa [indentedMembers] using hmember
    | cons next rest =>
      have hrest := ih (fun x hx => h x (List.mem_cons_of_mem (key, value) hx)) (by simp) false
      have hmember : SpellsMembers depth first ((key, value) :: next :: rest) _ :=
        .member hlead gap_nil hspace hvalue hrest
      simpa [indentedMembers] using hmember

theorem printed_array {items : List Json} (h : ∀ item ∈ items, Printed depth item) :
    Printed (depth + 1) (.array items) := by
  match items, h with
  | [], _ => exact ⟨.array (.close gap_nil), fun _ => .array (.close gap_nil)⟩
  | item :: rest, h =>
    refine ⟨.array (spellsItems_compact h (by simp) true), fun indent => ?_⟩
    have hitems := spellsItems_indented h (by simp) true (indent + 1) indent
    simpa [indentedChars] using Spells.array hitems

theorem printed_object {members : List (String × Json)}
    (h : ∀ member ∈ members, Printed depth member.2) : Printed (depth + 1) (.object members) := by
  match members, h with
  | [], _ => exact ⟨.object (.close gap_nil), fun _ => .object (.close gap_nil)⟩
  | member :: rest, h =>
    refine ⟨.object (spellsMembers_compact h (by simp) true), fun indent => ?_⟩
    have hmembers := spellsMembers_indented h (by simp) true (indent + 1) indent
    simpa [indentedChars] using Spells.object hmembers

end

/-! ## Reading -/

section

variable {value : Json}

theorem read_compact (h : Printed maxDepth value) :
    read value.compact.toList = (.ofJson value, none) := by
  rw [compact, String.toList_ofList]
  exact read_of_spells h.compact

theorem read_indented (h : Printed maxDepth value) :
    read value.indented.toList = (.ofJson value, none) := by
  rw [Json.indented, String.toList_ofList]
  exact read_of_spells (h.indented 0)

end

end RequestFlow.Json
