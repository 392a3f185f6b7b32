import Mathlib.Data.List.TakeWhile
import RequestFlow.Text.Blank

/-!
# Texts up to the blanks around them

What is read of a text is often what is left of it without the blanks at its two ends. A text
surrounds each part of it that has nothing but blanks before and behind, and trimming picks the
shortest of these parts.

* `surrounds_trim`: a text surrounds what is left of it after trimming;
* `Surrounds.trim_eq`: the parts that a text surrounds are left with the same text by trimming;
* `map_toLower_trim`: the case of letters makes no difference to what is trimmed.
-/

namespace RequestFlow.Text

/-- The first text is the second with blanks around it. -/
def Surrounds (cs core : List Char) : Prop :=
  ∃ before after, (∀ c ∈ before, isBlank c = true) ∧ (∀ c ∈ after, isBlank c = true) ∧
    cs = before ++ (core ++ after)

section

variable {cs core : List Char} {c : Char}

/-- A text is what is left of it after trimming, with blanks around. -/
theorem surrounds_trim (cs : List Char) : Surrounds cs (trim cs) := by
  refine ⟨cs.takeWhile isBlank, ((trimStart cs).reverse.takeWhile isBlank).reverse,
    fun c hc => List.mem_takeWhile_imp hc,
    fun c hc => List.mem_takeWhile_imp (List.mem_reverse.1 hc), ?_⟩
  rw [trim, trimEnd, ← List.reverse_append, List.takeWhile_append_dropWhile, List.reverse_reverse,
    trimStart, List.takeWhile_append_dropWhile]

theorem Surrounds.trim_eq (h : Surrounds cs core) : trim cs = trim core := by
  obtain ⟨before, after, hbefore, hafter, rfl⟩ := h
  exact trim_surrounded hbefore hafter core

/-- Without blanks there is nothing to trim. -/
theorem trim_eq_self (h : ∀ c ∈ cs, isBlank c = false) : trim cs = cs := by
  have hstart : trimStart cs = cs := by
    cases cs with
    | nil => rfl
    | cons c rest => simp [trimStart, h c List.mem_cons_self]
  have hend : cs.reverse.dropWhile isBlank = cs.reverse := by
    cases hreverse : cs.reverse with
    | nil => rfl
    | cons c rest =>
      have hc : c ∈ cs := List.mem_reverse.1 (hreverse ▸ List.mem_cons_self)
      simp [h c hc]
  rw [trim, hstart, trimEnd, hend, List.reverse_reverse]

/-! ## Blanks and letters -/

/-- What changes between the two cases of letters is not blank, before and after. -/
theorem toLower_cases (c : Char) :
    c.toLower = c ∨ isBlank c = false ∧ isBlank c.toLower = false := by
  unfold Char.toLower
  split
  · rename_i hupper
    obtain ⟨hlow, hhigh⟩ := hupper
    rw [ge_iff_le, UInt32.le_iff_toNat_le] at hlow
    rw [UInt32.le_iff_toNat_le] at hhigh
    have hlow : 65 ≤ c.toNat := hlow
    have hhigh : c.toNat ≤ 90 := hhigh
    refine .inr ⟨isBlank_of_visible (by omega) (by omega), ?_⟩
    have hval : (c.val + ('a'.val - 'A'.val)).toNat = c.toNat + 32 := by
      rw [UInt32.toNat_add]
      exact Nat.mod_eq_of_lt (show c.toNat + 32 < 2 ^ 32 by omega)
    refine isBlank_of_visible ?_ ?_
    · show 32 < (c.val + ('a'.val - 'A'.val)).toNat
      omega
    · show (c.val + ('a'.val - 'A'.val)).toNat < 127
      omega
  · exact .inl rfl

theorem isBlank_toLower (c : Char) : isBlank c.toLower = isBlank c := by
  rcases toLower_cases c with h | ⟨h, hlower⟩
  · rw [h]
  · rw [h, hlower]

/-- The case of letters makes no difference to what is trimmed. -/
theorem map_toLower_trim (cs : List Char) :
    (trim cs).map Char.toLower = trim (cs.map Char.toLower) := by
  have hblank : isBlank ∘ Char.toLower = isBlank := funext isBlank_toLower
  simp only [trim, trimStart, trimEnd, List.dropWhile_map, ← List.map_reverse, hblank]

theorem isBlank_of_isDigit (h : c.isDigit = true) : isBlank c = false := by
  simp only [Char.isDigit, Bool.and_eq_true, decide_eq_true_eq] at h
  have hlow : '0'.toNat ≤ c.toNat := h.1
  have hhigh : c.toNat ≤ '9'.toNat := h.2
  exact isBlank_of_visible (Nat.lt_of_lt_of_le (by decide) hlow)
    (Nat.lt_of_le_of_lt hhigh (by decide))

end

end RequestFlow.Text
