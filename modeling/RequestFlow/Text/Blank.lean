/-!
# Blank characters

A character is blank when Unicode gives it the property White_Space. Names, operands and header
values are compared and read with the blanks around them taken off.

* `trim`: a text without the blanks at its two ends;
* `length_trim_le`: trimming never lengthens a text;
* `trim_surrounded`: blanks around a text make no difference to what trimming leaves of it;
* `trim_eq_nil_iff`, `trimmed_eq_empty_iff`: nothing is left of blanks, and of nothing else;
* `isBlank_of_visible`: no visible ASCII character is blank.
-/

namespace RequestFlow.Text

/-- The code points with the property White_Space, as ranges with both ends included. -/
def blankRanges : List (Nat × Nat) :=
  [(0x9, 0xD), (0x20, 0x20), (0x85, 0x85), (0xA0, 0xA0), (0x1680, 0x1680), (0x2000, 0x200A),
   (0x2028, 0x2029), (0x202F, 0x202F), (0x205F, 0x205F), (0x3000, 0x3000)]

/-- A code point lies in one of the ranges. -/
def inRanges (ranges : List (Nat × Nat)) (c : Char) : Bool :=
  ranges.any fun range => range.1 ≤ c.toNat && c.toNat ≤ range.2

/-- The property White_Space. -/
def isBlank (c : Char) : Bool := inRanges blankRanges c

/-- The text from its first character that is not blank. -/
def trimStart (cs : List Char) : List Char := cs.dropWhile isBlank

/-- The text up to its last character that is not blank. -/
def trimEnd (cs : List Char) : List Char := (cs.reverse.dropWhile isBlank).reverse

/-- The text without the blanks at its two ends. -/
def trim (cs : List Char) : List Char := trimEnd (trimStart cs)

/-- `trim`, on strings. -/
def trimmed (s : String) : String := String.ofList (trim s.toList)

/-- Nothing but blanks, or nothing at all. -/
def isBlankText (s : String) : Bool := s.toList.all isBlank

/-- A text that holds something besides blanks. -/
def nonBlank? (s : Option String) : Option String := s.filter fun text => !isBlankText text

theorem length_dropWhile_le {α : Type} (p : α → Bool) (xs : List α) :
    (xs.dropWhile p).length ≤ xs.length :=
  (List.dropWhile_sublist p).length_le

theorem length_trimStart_le (cs : List Char) : (trimStart cs).length ≤ cs.length :=
  length_dropWhile_le _ _

theorem length_trimEnd_le (cs : List Char) : (trimEnd cs).length ≤ cs.length := by
  simpa [trimEnd] using length_dropWhile_le isBlank cs.reverse

theorem length_trim_le (cs : List Char) : (trim cs).length ≤ cs.length :=
  Nat.le_trans (length_trimEnd_le _) (length_trimStart_le _)

/-- Blanks around a text make no difference to what trimming leaves of it. -/
theorem trim_surrounded {before after : List Char} (hbefore : ∀ c ∈ before, isBlank c = true)
    (hafter : ∀ c ∈ after, isBlank c = true) (cs : List Char) :
    trim (before ++ (cs ++ after)) = trim cs := by
  have hstart : trimStart (before ++ (cs ++ after)) =
      if (trimStart cs).isEmpty then [] else trimStart cs ++ after := by
    have hdropped : after.dropWhile isBlank = [] := by
      simpa using @List.dropWhile_append_of_pos _ isBlank _ [] hafter
    simp only [trimStart]
    rw [List.dropWhile_append_of_pos hbefore, List.dropWhile_append, hdropped]
    rfl
  have hreverse : ∀ c ∈ after.reverse, isBlank c = true :=
    fun c hc => hafter c (List.mem_reverse.1 hc)
  rw [trim, hstart, trim]
  split
  · rename_i hempty
    rw [List.isEmpty_iff.1 hempty]
  · simp only [trimEnd, List.reverse_append]
    rw [List.dropWhile_append_of_pos hreverse]

/-- Nothing is left by trimming if and only if there is nothing but blanks. -/
theorem trim_eq_nil_iff {cs : List Char} : trim cs = [] ↔ ∀ c ∈ cs, isBlank c = true := by
  have hdrop (cs : List Char) : cs.dropWhile isBlank = [] ↔ ∀ c ∈ cs, isBlank c = true := by
    induction cs with
    | nil => simp
    | cons c rest ih => cases h : isBlank c <;> simp [h, ih]
  constructor
  · intro hnil
    have hstart : ∀ c ∈ trimStart cs, isBlank c = true := by
      simpa [trim, trimEnd, hdrop] using hnil
    rw [← List.takeWhile_append_dropWhile (p := isBlank) (l := cs)]
    intro c hc
    rcases List.mem_append.1 hc with hc | hc
    · exact List.all_eq_true.1 List.all_takeWhile c hc
    · exact hstart c hc
  · intro hblank
    rw [trim, trimStart, (hdrop cs).2 hblank]
    rfl

theorem trimmed_eq_empty_iff {s : String} : trimmed s = "" ↔ isBlankText s = true := by
  have hempty : trimmed s = "" ↔ trim s.toList = [] := by
    rw [trimmed, ← String.ofList_nil]
    exact ⟨fun h => String.ofList_injective h, congrArg String.ofList⟩
  rw [hempty, trim_eq_nil_iff, isBlankText, List.all_eq_true]

theorem isBlank_of_visible {c : Char} (h : 32 < c.toNat) (h' : c.toNat < 127) :
    isBlank c = false := by
  simp only [isBlank, inRanges, blankRanges, List.any_cons, List.any_nil, Bool.or_false,
    Bool.or_eq_false_iff, Bool.and_eq_false_iff, decide_eq_false_iff_not]
  omega

end RequestFlow.Text
