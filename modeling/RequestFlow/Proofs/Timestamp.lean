import RequestFlow.Proofs.Number.Digits
import RequestFlow.Proofs.Text.Blanks
import RequestFlow.Timestamp

/-!
# Moments survive being written

The text of a moment is read as the moment, in every year that is within reach and to the
nanosecond: a field is written with as many digits as the reader takes at most, something that is
no digit stands behind it, and the fraction is read as if it always had nine digits.

* `digits?_append`, `number?_padded`, `year?_yearText`, `fraction?_fractionText`: each field with
  whatever follows it;
* `parse?_text`: the text as a whole;
* `isValid_of_parse?`: whatever is read exists.
-/

namespace RequestFlow.Timestamp

variable {rest : List Char}

/-! ## Digits -/

theorem isDigit_of_mem_padded {width n : Nat} {c : Char} (h : c ∈ padded width n) :
    c.isDigit = true := by
  rcases List.mem_append.1 h with hzero | hdigit
  · rw [(List.mem_replicate.1 hzero).2]
    rfl
  · exact Nat.isDigit_of_mem_toDigits (by decide) (by decide) hdigit

theorem padded_ne_nil (width n : Nat) : padded width n ≠ [] :=
  List.append_ne_nil_of_right_ne_nil _ Nat.toDigits_ne_nil

theorem digitsValue_padded (width n : Nat) : Number.digitsValue (padded width n) = n :=
  Number.digitsValue_padded _ n

theorem length_padded {width n : Nat} (hwidth : 0 < width) (h : n < Nat.pow 10 width) :
    (padded width n).length = width := by
  have hdigits := (Nat.length_toDigits_le_iff (by decide : 1 < 10) hwidth).2 h
  rw [padded, List.length_append, List.length_replicate]
  omega

/-- What follows a field does not begin with a digit. -/
def Apart (rest : List Char) : Prop := ∀ c ∈ rest.head?, c.isDigit = false

theorem apart_cons {c : Char} (h : c.isDigit = false) : Apart (c :: rest) := by simpa [Apart] using h

/-- Digits are taken up to the first character that is none. -/
theorem digits?_append {width : Nat} {ds : List Char} (hds : ∀ c ∈ ds, c.isDigit = true)
    (hne : ds ≠ []) (hwidth : ds.length ≤ width) (hrest : Apart rest) :
    digits? width (ds ++ rest) = some (ds, rest) := by
  have hstop : (rest.take (width - ds.length)).takeWhile Char.isDigit = [] := by
    cases rest with
    | nil => simp
    | cons c rest =>
      have hc : c.isDigit = false := hrest c rfl
      cases width - ds.length <;> simp [hc]
  have hfront : ((ds ++ rest).take width).takeWhile Char.isDigit = ds := by
    rw [List.take_append, List.take_of_length_le hwidth, List.takeWhile_append_of_pos hds, hstop,
      List.append_nil]
  have hempty : ds.isEmpty = false := by simpa using hne
  simp only [digits?, hfront, hempty, Bool.false_eq_true, if_false, List.drop_left]

theorem trimStart_of_visible {c : Char} (h : Text.isBlank c = false) :
    Text.trimStart (c :: rest) = c :: rest := by
  simp [Text.trimStart, h]

theorem trimStart_digits {ds : List Char} (hds : ∀ c ∈ ds, c.isDigit = true) (hne : ds ≠ []) :
    Text.trimStart (ds ++ rest) = ds ++ rest := by
  obtain ⟨d, ds, rfl⟩ := List.exists_cons_of_ne_nil hne
  exact trimStart_of_visible (Text.isBlank_of_isDigit (hds d (by simp)))

/-! ## Fields -/

theorem number?_padded {width n : Nat} (hwidth : 0 < width) (h : n < Nat.pow 10 width)
    (hrest : Apart rest) : number? width (padded width n ++ rest) = some (n, rest) := by
  have hdigits : ∀ c ∈ padded width n, c.isDigit = true := fun _ => isDigit_of_mem_padded
  have hne := padded_ne_nil width n
  rw [number?, trimStart_digits hdigits hne,
    digits?_append hdigits hne (Nat.le_of_eq (length_padded hwidth h)) hrest, Option.map_some]
  simp only [digitsValue_padded]

theorem number?_two {n : Nat} (h : n < 100) (hrest : Apart rest) :
    number? 2 (padded 2 n ++ rest) = some (n, rest) :=
  number?_padded (by decide) h hrest

theorem mark?_self {mark : Char} (h : Text.isBlank mark = false) :
    mark? mark (mark :: rest) = some rest := by
  rw [mark?, trimStart_of_visible h]
  simp

/-- A year is read back, with a sign if it has one. -/
theorem year?_yearText (year : Int) (hrest : Apart rest) :
    year? (yearText year ++ rest) = some (year, rest) := by
  have hdigits : ∀ c ∈ padded 4 year.natAbs, c.isDigit = true := fun _ => isDigit_of_mem_padded
  have hne := padded_ne_nil 4 year.natAbs
  have hall : digits? (padded 4 year.natAbs ++ rest).length (padded 4 year.natAbs ++ rest) =
      some (padded 4 year.natAbs, rest) :=
    digits?_append hdigits hne (by rw [List.length_append]; omega) hrest
  by_cases hneg : year < 0
  · have hyear : -(year.natAbs : Int) = year := by omega
    rw [yearText, if_pos hneg, List.cons_append, year?, trimStart_of_visible (by decide)]
    simp only [hall, Option.map_some, digitsValue_padded, hyear]
  have hyear : (year.natAbs : Int) = year := by omega
  by_cases hfour : year ≤ 9999
  · -- Without a sign the reader takes four digits at most, and there are four.
    have hlength : (padded 4 year.natAbs).length ≤ 4 :=
      Nat.le_of_eq (length_padded (by decide) (by show year.natAbs < 10000; omega))
    have hread := digits?_append hdigits hne hlength hrest
    have hsign : ∀ c ∈ (padded 4 year.natAbs ++ rest).head?, c ≠ '-' ∧ c ≠ '+' := by
      obtain ⟨d, ds, hds⟩ := List.exists_cons_of_ne_nil hne
      have hd : d.isDigit = true := hdigits d (by rw [hds]; simp)
      rw [hds]
      rintro c ⟨rfl⟩
      exact ⟨by rintro rfl; exact absurd hd (by decide), by rintro rfl; exact absurd hd (by decide)⟩
    rw [yearText, if_neg hneg, if_pos hfour, year?, trimStart_digits hdigits hne]
    split
    · rename_i heq
      exact absurd rfl (hsign '-' (by rw [heq]; rfl)).1
    · rename_i heq
      exact absurd rfl (hsign '+' (by rw [heq]; rfl)).2
    · simp only [hread, Option.map_some, digitsValue_padded, hyear]
  · rw [yearText, if_neg hneg, if_neg hfour, List.cons_append, year?,
      trimStart_of_visible (by decide)]
    simp only [hall, Option.map_some, digitsValue_padded, hyear]

theorem dropWhile_apart (hrest : Apart rest) : rest.dropWhile Char.isDigit = rest := by
  cases rest with
  | nil => rfl
  | cons c rest => simp [show c.isDigit = false from hrest c rfl]

/-- A fraction with digits for so many powers of ten is as many units of the last of them. -/
theorem fraction?_padded {width n : Nat} (hwidth : 0 < width ∧ width ≤ 9) (h : n < Nat.pow 10 width)
    (hrest : Apart rest) :
    fraction? ('.' :: (padded width n ++ rest)) = some (n * Nat.pow 10 (9 - width), rest) := by
  have hlength := length_padded hwidth.1 h
  have hdigits : digits? 9 (padded width n ++ rest) = some (padded width n, rest) :=
    digits?_append (fun _ => isDigit_of_mem_padded) (padded_ne_nil width n) (by omega) hrest
  simp only [fraction?, hdigits, digitsValue_padded, hlength, dropWhile_apart hrest, Option.bind_eq_bind,
    Option.bind_some, Option.pure_def]

theorem fraction?_fractionText {nano : Nat} (h : nano < 1000000000) :
    fraction? (fractionText nano ++ 'Z' :: rest) = some (nano, 'Z' :: rest) := by
  have hz : Apart ('Z' :: rest) := apart_cons (by decide)
  by_cases hnone : nano = 0
  · rw [hnone]
    rfl
  rw [fractionText, if_neg hnone]
  by_cases hmilli : nano % 1000000 = 0
  · have hnano : nano / 1000000 * Nat.pow 10 (9 - 3) = nano := by
      show nano / 1000000 * 1000000 = nano
      omega
    have hsize : nano / 1000000 < 1000 := by omega
    rw [if_pos hmilli, List.cons_append, fraction?_padded (by decide) hsize hz, hnano]
  rw [if_neg hmilli]
  by_cases hmicro : nano % 1000 = 0
  · have hnano : nano / 1000 * Nat.pow 10 (9 - 6) = nano := by
      show nano / 1000 * 1000 = nano
      omega
    have hsize : nano / 1000 < 1000000 := by omega
    rw [if_pos hmicro, List.cons_append, fraction?_padded (by decide) hsize hz, hnano]
  · have hnano : nano * Nat.pow 10 (9 - 9) = nano := Nat.mul_one nano
    rw [if_neg hmicro, List.cons_append, fraction?_padded (by decide) h hz, hnano]

theorem apart_fractionText (nano : Nat) : Apart (fractionText nano ++ 'Z' :: rest) := by
  rw [fractionText]
  split
  · exact apart_cons (by decide)
  · split
    · exact apart_cons (by decide)
    · split <;> exact apart_cons (by decide)

/-! ## Moments -/

theorem monthLength_le (year : Int) (month : Nat) : Date.monthLength year month ≤ 31 := by
  unfold Date.monthLength
  split
  · split <;> omega
  all_goals omega

theorem date?_dateText {time : Timestamp} (h : time.date.isValid = true) (hrest : Apart rest) :
    date? (time.dateText ++ rest) = some (time.date, rest) := by
  simp only [Date.isValid, Bool.and_eq_true, decide_eq_true_eq] at h
  obtain ⟨⟨⟨⟨-, -⟩, hmonth⟩, -⟩, hday⟩ := h
  have hlength : Date.monthLength time.date.year time.date.month ≤ 31 := monthLength_le _ _
  have hminus : ∀ cs : List Char, Apart ('-' :: cs) := fun _ => apart_cons (by decide)
  simp only [date?, dateText, List.append_assoc, List.cons_append, year?_yearText _ (hminus _),
    Option.bind_eq_bind, Option.bind_some, mark?_self (by decide : Text.isBlank '-' = false),
    number?_two (by omega : time.date.month < 100) (hminus _),
    number?_two (by omega : time.date.day < 100) hrest, Option.pure_def]

/-- A moment that an offset of zero is taken off from stays where it is. -/
theorem shift_zero {time : Timestamp} (h : time.isValid = true) : time.shift 0 = time := by
  simp only [isValid, Bool.and_eq_true, decide_eq_true_eq] at h
  obtain ⟨⟨⟨⟨-, hhour⟩, hminute⟩, -⟩, -⟩ := h
  have hlow : ¬ 60 * (time.hour : Int) + time.minute - 0 < 0 := by omega
  have hhigh : ¬ 1440 ≤ 60 * (time.hour : Int) + time.minute - 0 := by omega
  have hminutes : ((60 * (time.hour : Int) + time.minute - 0) % 1440).toNat =
      60 * time.hour + time.minute := by omega
  have hhours : (60 * time.hour + time.minute) / 60 = time.hour := by omega
  have hrest : (60 * time.hour + time.minute) % 60 = time.minute := by omega
  simp only [shift, hlow, hhigh, hminutes, hhours, hrest, if_false]

/-- Every moment is read back from its text. -/
theorem parse?_text {time : Timestamp} (h : time.isValid = true) :
    parse? time.text = some time := by
  have hshift := shift_zero h
  have hvalid := h
  simp only [isValid, Bool.and_eq_true, decide_eq_true_eq] at hvalid
  obtain ⟨⟨⟨⟨hdate, hhour⟩, hminute⟩, hsecond⟩, hnano⟩ := hvalid
  -- Each field ends at something that is no digit, so each reader stops where its field does.
  have ht : ∀ cs : List Char, Apart ('T' :: cs) := fun _ => apart_cons (by decide)
  have hcolon : ∀ cs : List Char, Apart (':' :: cs) := fun _ => apart_cons (by decide)
  have hfraction := @fraction?_fractionText [] _ hnano
  have hafter : Apart (fractionText time.nano ++ ['Z']) := apart_fractionText _
  simp only [parse?, text, String.toList_ofList, List.append_assoc, List.cons_append,
    date?_dateText hdate (ht _), Option.bind_eq_bind, Option.bind_some, between?, clockText,
    number?_two (by omega : time.hour < 100) (hcolon _),
    mark?_self (by decide : Text.isBlank ':' = false),
    number?_two (by omega : time.minute < 100) (hcolon _),
    number?_two (by omega : time.second < 100) hafter, hfraction]
  show (if true && time.isValid && (time.shift 0).isValid then some (time.shift 0) else none) =
    some time
  rw [hshift, h]
  rfl

/-- Whatever is read is a moment that exists. -/
theorem isValid_of_parse? {text : String} {time : Timestamp} (h : parse? text = some time) :
    time.isValid = true := by
  simp only [parse?, Option.bind_eq_bind, Option.bind_eq_some_iff] at h
  obtain ⟨_, -, _, -, _, -, _, -, _, -, _, -, _, -, _, -, _, -, hread⟩ := h
  split at hread
  · rename_i hvalid
    simp only [Bool.and_eq_true] at hvalid
    rw [← Option.some.inj hread]
    exact hvalid.2
  · exact absurd hread (by simp)

end RequestFlow.Timestamp
