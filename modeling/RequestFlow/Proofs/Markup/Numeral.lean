import RequestFlow.Markup.JsonText

/-!
# Reading numbers

The grammar of numbers in JSON as data, and what the reader makes of a text that follows it.

* `Numeral`: a sign, digits, a fraction and an exponent, each as it may be written;
* `value_numeral`: the reader takes the text of a numeral off the front of a text, whatever follows
  it that no number could go on with, and gives the number that its literal stands for;
* `parse_numeral`: so the text spells that number.
-/

namespace RequestFlow.JsonText

/-- A row of decimal digits, one or more. -/
structure Digits where
  chars : List Char
  nonempty : chars ≠ []
  areDigits : ∀ c ∈ chars, c.isDigit = true

/-- The sign of an exponent as it is written. -/
inductive Sign where
  | bare
  | plus
  | minus

/-- The text of a sign. -/
def Sign.text : Sign → List Char
  | bare => []
  | plus => ['+']
  | minus => ['-']

/-- The sign is a minus. -/
def Sign.negative : Sign → Bool
  | minus => true
  | _ => false

/-- An exponent as it is written. -/
structure Exponent where
  letter : Char
  isLetter : letter = 'e' ∨ letter = 'E'
  sign : Sign
  size : Digits

/-- The text of an exponent. -/
def Exponent.text (x : Exponent) : List Char := x.letter :: (x.sign.text ++ x.size.chars)

/-- A number as JSON admits it. -/
structure Numeral where
  negative : Bool
  whole : Digits
  /-- A zero that begins the number stands alone before the point. -/
  zeroAlone : whole.chars.head? = some '0' → whole.chars = ['0']
  fraction : Option Digits
  exponent : Option Exponent

namespace Numeral

/-- The text of a fraction, if there is one. -/
def fractionText : Option Digits → List Char
  | none => []
  | some ds => '.' :: ds.chars

/-- The text of an exponent, if there is one. -/
def exponentText : Option Exponent → List Char
  | none => []
  | some x => x.text

/-- The text after the sign. -/
def unsigned (x : Numeral) : List Char :=
  x.whole.chars ++ (fractionText x.fraction ++ exponentText x.exponent)

/-- The text of a number. -/
def text (x : Numeral) : List Char :=
  if x.negative then '-' :: x.unsigned else x.unsigned

/-- What a number's text says of its value. -/
def literal (x : Numeral) : Number.Literal where
  negative := x.negative
  whole := x.whole.chars
  fraction := x.fraction.map Digits.chars
  exponent := x.exponent.map fun e => (e.sign.negative, e.size.chars)

end Numeral

/-! ## Digits and what may follow them -/

/-- A character that a number may have. -/
def inNumber (c : Char) : Bool :=
  c.isDigit || c == '-' || c == '+' || c == '.' || c == 'e' || c == 'E'

/-- No digit comes next. -/
def NoDigit (cs : List Char) : Prop := ∀ c rest, cs = c :: rest → c.isDigit = false

/-- No character that a number could go on with comes next. -/
def Ended (cs : List Char) : Prop := ∀ c rest, cs = c :: rest → inNumber c = false

theorem ended_nil : Ended [] := by
  intro c rest h
  cases h

theorem ended_cons {c : Char} (h : inNumber c = false) (rest : List Char) : Ended (c :: rest) := by
  rintro _ _ ⟨⟩
  exact h

theorem Ended.noDigit {cs : List Char} (h : Ended cs) : NoDigit cs := by
  intro c rest hcs
  have hc := h c rest hcs
  simp only [inNumber, Bool.or_eq_false_iff] at hc
  exact hc.1.1.1.1.1

theorem noDigit_exponent (exponent : Option Exponent) {rest : List Char} (hr : Ended rest) :
    NoDigit (Numeral.exponentText exponent ++ rest) := by
  match exponent with
  | none => exact hr.noDigit
  | some x =>
    rintro c more h
    cases h
    rcases x.isLetter with h | h <;> rw [h] <;> decide

theorem noDigit_fraction (fraction : Option Digits) (exponent : Option Exponent)
    {rest : List Char} (hr : Ended rest) :
    NoDigit (Numeral.fractionText fraction ++ (Numeral.exponentText exponent ++ rest)) := by
  match fraction with
  | none => exact noDigit_exponent exponent hr
  | some ds =>
    rintro c more h
    cases h
    decide

section

variable {ds rest : List Char}

theorem takeWhile_digits (hd : ∀ c ∈ ds, c.isDigit = true) (hr : NoDigit rest) :
    (ds ++ rest).takeWhile Char.isDigit = ds := by
  rw [List.takeWhile_append_of_pos hd]
  match rest, hr with
  | [], _ => simp
  | c :: rest, hr => simp [hr c rest rfl]

theorem dropWhile_digits (hd : ∀ c ∈ ds, c.isDigit = true) (hr : NoDigit rest) :
    (ds ++ rest).dropWhile Char.isDigit = rest := by
  rw [List.dropWhile_append_of_pos hd]
  match rest, hr with
  | [], _ => rfl
  | c :: rest, hr => simp [hr c rest rfl]

end

/-! ## The parts of a number -/

theorem wholePart_append (x : Numeral) {rest : List Char} (hr : NoDigit rest) :
    ∃ h, wholePart (x.whole.chars ++ rest) = .ok ⟨x.whole.chars, rest, h⟩ := by
  obtain ⟨c, ds, hcs⟩ := List.exists_cons_of_ne_nil x.whole.nonempty
  have hdigits := x.whole.areDigits
  have hzero := x.zeroAlone
  rw [hcs] at hdigits hzero ⊢
  have hc : c.isDigit = true := hdigits c (by simp)
  have hds : ∀ d ∈ ds, d.isDigit = true := fun d hd => hdigits d (by simp [hd])
  refine ⟨by simp only [List.cons_append, List.length_cons, List.length_append]; omega, ?_⟩
  by_cases h0 : c = '0'
  · obtain rfl : ds = [] := by simpa [h0] using hzero
    match rest, hr with
    | [], _ => simp [wholePart, h0]
    | d :: rest, hr => simp [wholePart, h0, hr d rest rfl]
  · simp [wholePart, h0, hc, digits, takeWhile_digits hds hr, dropWhile_digits hds hr]

theorem digits_append (ds : Digits) {rest : List Char} (hr : NoDigit rest) :
    ∃ c cs h, ds.chars = c :: cs ∧ digits (ds.chars ++ rest) = (c :: cs, ⟨rest, h⟩) := by
  obtain ⟨c, cs, hcs⟩ := List.exists_cons_of_ne_nil ds.nonempty
  refine ⟨c, cs, by simp, hcs, ?_⟩
  simp only [digits, takeWhile_digits ds.areDigits hr, dropWhile_digits ds.areDigits hr, ← hcs]

theorem fractionPart_append (fraction : Option Digits) {rest : List Char} (hr : NoDigit rest)
    (hp : rest.head? ≠ some '.') :
    ∃ h, fractionPart (Numeral.fractionText fraction ++ rest) =
      .ok ⟨fraction.map Digits.chars, rest, h⟩ := by
  match fraction with
  | none =>
    refine ⟨Nat.le_refl _, fractionPart.eq_2 rest ?_⟩
    rintro more rfl
    exact hp rfl
  | some ds =>
    obtain ⟨c, cs, h, hcs, hdigits⟩ := digits_append ds hr
    refine ⟨by simp [Numeral.fractionText]; omega, ?_⟩
    simp [Numeral.fractionText, fractionPart, hdigits, hcs]

theorem exponentSign_append (sign : Sign) (ds : Digits) (rest : List Char) :
    ∃ h, exponentSign (sign.text ++ (ds.chars ++ rest)) =
      ⟨sign.negative, ds.chars ++ rest, h⟩ := by
  refine ⟨by simp, ?_⟩
  match sign with
  | .plus => rfl
  | .minus => rfl
  | .bare =>
    obtain ⟨c, cs, hcs⟩ := List.exists_cons_of_ne_nil ds.nonempty
    have hc : c.isDigit = true := ds.areDigits c (by simp [hcs])
    rw [hcs]
    have hplus : ∀ more, c :: cs ++ rest ≠ '+' :: more := by
      rintro more ⟨⟩
      cases hc
    have hminus : ∀ more, c :: cs ++ rest ≠ '-' :: more := by
      rintro more ⟨⟩
      cases hc
    exact exponentSign.eq_3 (c :: cs ++ rest) hplus hminus

theorem exponentPart_append (exponent : Option Exponent) {rest : List Char} (hr : Ended rest) :
    ∃ h, exponentPart (Numeral.exponentText exponent ++ rest) =
      .ok ⟨exponent.map fun e => (e.sign.negative, e.size.chars), rest, h⟩ := by
  match exponent with
  | none =>
    refine ⟨Nat.le_refl _, ?_⟩
    match rest, hr with
    | [], _ => rfl
    | c :: more, hr =>
      have hc : ¬ (c = 'e' ∨ c = 'E') := by
        rintro (rfl | rfl) <;> cases hr _ _ rfl
      simp [Numeral.exponentText, exponentPart, hc]
  | some x =>
    obtain ⟨h, hsign⟩ := exponentSign_append x.sign x.size rest
    obtain ⟨c, cs, h', hcs, hdigits⟩ := digits_append x.size hr.noDigit
    have htext : Numeral.exponentText (some x) ++ rest =
        x.letter :: (x.sign.text ++ (x.size.chars ++ rest)) := by
      simp [Numeral.exponentText, Exponent.text]
    rw [htext]
    refine ⟨by simp only [List.length_cons]; omega, ?_⟩
    simp only [exponentPart, if_pos x.isLetter]
    rw [hsign]
    simp only
    rw [hdigits]
    simp [hcs]

/-! ## Numbers -/

theorem number_unsigned (x : Numeral) {n : Number} (hn : x.literal.value? = some n)
    {rest : List Char} (hr : Ended rest) :
    ∃ h, number x.negative (x.unsigned ++ rest) = .ok ⟨n, rest, h⟩ := by
  have hpoint : (Numeral.exponentText x.exponent ++ rest).head? ≠ some '.' := by
    match x.exponent with
    | none =>
      intro hhead
      match rest, hr with
      | [], _ => cases hhead
      | c :: more, hr =>
        cases hhead
        cases hr _ _ rfl
    | some e => rcases e.isLetter with h | h <;> simp [Numeral.exponentText, Exponent.text, h]
  obtain ⟨h, hwhole⟩ := wholePart_append x (noDigit_fraction x.fraction x.exponent hr)
  obtain ⟨h', hfraction⟩ := fractionPart_append x.fraction (noDigit_exponent x.exponent hr) hpoint
  obtain ⟨h'', hexponent⟩ := exponentPart_append x.exponent hr
  have hunsigned : x.unsigned ++ rest = x.whole.chars ++
      (Numeral.fractionText x.fraction ++ (Numeral.exponentText x.exponent ++ rest)) := by
    simp only [Numeral.unsigned, List.append_assoc]
  have hlength : rest.length < (x.unsigned ++ rest).length := by
    rw [hunsigned]
    omega
  refine ⟨hlength, ?_⟩
  unfold Numeral.literal at hn
  generalize hcs : x.unsigned ++ rest = cs at hlength ⊢
  obtain rfl := hcs.symm.trans hunsigned
  unfold number
  rw [hwhole]
  simp only [bind, Except.bind, hfraction, hexponent, hn]
  rfl

theorem unsigned_head (x : Numeral) :
    ∃ c cs, x.unsigned = c :: cs ∧ c.isDigit = true := by
  obtain ⟨c, cs, hcs⟩ := List.exists_cons_of_ne_nil x.whole.nonempty
  refine ⟨c, cs ++ (Numeral.fractionText x.fraction ++ Numeral.exponentText x.exponent), ?_,
    x.whole.areDigits c (by simp [hcs])⟩
  simp [Numeral.unsigned, hcs]

theorem skipSpace_of_not_space {c : Char} {cs : List Char} (h : isSpace c = false) :
    skipSpace (c :: cs) = ⟨c :: cs, Nat.le_refl _⟩ :=
  Subtype.ext (by simp [skipSpace, h])

theorem ne_of_isDigit {c d : Char} (hc : c.isDigit = true) (hd : d.isDigit = false) : c ≠ d := by
  rintro rfl
  cases hc.symm.trans hd

theorem isSpace_of_isDigit {c : Char} (hc : c.isDigit = true) : isSpace c = false := by
  simp [isSpace, ne_of_isDigit hc]

theorem value_of_minus {cs rest : List Char} {n : Number} (depth : Nat)
    (hn : ∃ h, number true cs = .ok ⟨n, rest, h⟩) :
    ∃ h, value depth ('-' :: cs) = .done (.number n) rest h := by
  obtain ⟨h, hn⟩ := hn
  refine ⟨Nat.lt_succ_of_lt h, ?_⟩
  rw [value, skipSpace_of_not_space (by decide)]
  simp [hn, Outcome.ofStep, Outcome.widen]

theorem value_of_digit {c : Char} {cs rest : List Char} {n : Number} (depth : Nat)
    (hc : c.isDigit = true) (hn : ∃ h, number false (c :: cs) = .ok ⟨n, rest, h⟩) :
    ∃ h, value depth (c :: cs) = .done (.number n) rest h := by
  obtain ⟨h, hn⟩ := hn
  refine ⟨h, ?_⟩
  rw [value, skipSpace_of_not_space (isSpace_of_isDigit hc)]
  simp [ne_of_isDigit hc, hc, hn, Outcome.ofStep, Outcome.widen]

/-- The reader takes the text of a numeral off the front of a text. -/
theorem value_numeral (x : Numeral) {n : Number} (hn : x.literal.value? = some n) (depth : Nat)
    {rest : List Char} (hr : Ended rest) :
    ∃ h, value depth (x.text ++ rest) = .done (.number n) rest h := by
  have hnumber := number_unsigned x hn hr
  unfold Numeral.text
  cases hneg : x.negative with
  | true =>
    rw [hneg] at hnumber
    exact value_of_minus depth hnumber
  | false =>
    obtain ⟨c, cs, hcs, hc⟩ := unsigned_head x
    rw [hneg, hcs] at hnumber
    rw [if_neg (by decide), hcs]
    exact value_of_digit depth hc hnumber

/-- The text of a numeral spells the number that it stands for. -/
theorem parse_numeral (x : Numeral) {n : Number} (hn : x.literal.value? = some n) :
    parse x.text = .ok (.number n) := by
  have hvalue := value_numeral x hn maxDepth ended_nil
  rw [List.append_nil] at hvalue
  obtain ⟨h, hvalue⟩ := hvalue
  simp [parse, read, hvalue, skipSpace, Node.toJson]

/-! ## The characters of a number -/

theorem Digits.inNumber (ds : Digits) : ∀ c ∈ ds.chars, inNumber c = true := by
  intro c hc
  simp [JsonText.inNumber, ds.areDigits c hc]

theorem Exponent.inNumber (x : Exponent) : ∀ c ∈ x.text, inNumber c = true := by
  have hletter : JsonText.inNumber x.letter = true := by
    rcases x.isLetter with h | h <;> rw [h] <;> decide
  have hsign : ∀ c ∈ x.sign.text, JsonText.inNumber c = true := by
    cases x.sign <;> exact List.all_eq_true.1 (by decide)
  intro c hc
  simp only [text, List.mem_cons, List.mem_append] at hc
  rcases hc with rfl | hc | hc
  · exact hletter
  · exact hsign c hc
  · exact x.size.inNumber c hc

theorem Numeral.inNumber_unsigned (x : Numeral) : ∀ c ∈ x.unsigned, inNumber c = true := by
  have hfraction : ∀ c ∈ fractionText x.fraction, inNumber c = true := by
    match x.fraction with
    | none => simp [fractionText]
    | some ds => exact List.forall_mem_cons.2 ⟨by decide, ds.inNumber⟩
  have hexponent : ∀ c ∈ exponentText x.exponent, inNumber c = true := by
    match x.exponent with
    | none => simp [exponentText]
    | some e => exact e.inNumber
  intro c hc
  simp only [unsigned, List.mem_append] at hc
  rcases hc with hc | hc | hc
  · exact x.whole.inNumber c hc
  · exact hfraction c hc
  · exact hexponent c hc

theorem Numeral.inNumber_text (x : Numeral) : ∀ c ∈ x.text, inNumber c = true := by
  unfold text
  split
  · exact List.forall_mem_cons.2 ⟨by decide, x.inNumber_unsigned⟩
  · exact x.inNumber_unsigned

theorem Numeral.text_head (x : Numeral) :
    ∃ c cs, x.text = c :: cs ∧ (c = '-' ∨ c.isDigit = true) := by
  unfold text
  split
  · exact ⟨'-', x.unsigned, rfl, .inl rfl⟩
  · obtain ⟨c, cs, hcs, hc⟩ := unsigned_head x
    exact ⟨c, cs, hcs, .inr hc⟩

end RequestFlow.JsonText
