import RequestFlow.Proofs.Expression.Scan
import RequestFlow.Proofs.Markup.Numeral

/-!
# How operands are written

Names, words, numbers, quotations and placeholders as data that carries what makes it well formed,
each with its text and with the operand that the reader finds in that text.

* `Bare`: the texts of characters that mean nothing to a scan, as those of names, words and numbers;
* `parse_word`, `parse_number`, `parse_name`, `parse_quotation`, `parse_placeholder`: the operand of
  each text.
-/

namespace RequestFlow

open Text JsonText

namespace Expression

/-! ## Bare texts -/

/-- A character that means nothing to a scan. -/
def isBare (c : Char) : Bool := c.isAlphanum || c == '_' || c == '.' || c == '-' || c == '+'

/-- Some such characters, and nothing else. -/
def Bare (cs : List Char) : Prop := cs ≠ [] ∧ ∀ c ∈ cs, isBare c = true

section

variable {c d : Char} {cs : List Char}

theorem ne_of_isBare (hc : isBare c = true) (hd : isBare d = false) : c ≠ d := by
  rintro rfl
  cases hc.symm.trans hd

theorem isNeutral_of_isBare (h : isBare c = true) : isNeutral c = true := by
  have hne : ∀ d, isBare d = false → c ≠ d := fun d hd => ne_of_isBare h hd
  simp [isNeutral, Scan.isQuote, Scan.opens, Scan.closes, hne _ (by decide : isBare '"' = false),
    hne _ (by decide : isBare '\'' = false), hne _ (by decide : isBare '(' = false),
    hne _ (by decide : isBare '[' = false), hne _ (by decide : isBare '{' = false),
    hne _ (by decide : isBare ')' = false), hne _ (by decide : isBare ']' = false),
    hne _ (by decide : isBare '}' = false)]

theorem toNat_of_isDigit (h : c.isDigit = true) : 48 ≤ c.toNat ∧ c.toNat ≤ 57 := by
  simpa [Char.isDigit, UInt32.le_iff_toNat_le] using h

theorem toNat_of_isAlpha (h : c.isAlpha = true) : 65 ≤ c.toNat ∧ c.toNat ≤ 122 := by
  rcases (Bool.or_eq_true _ _).mp h with h | h
  · obtain ⟨hlow, hhigh⟩ : 65 ≤ c.toNat ∧ c.toNat ≤ 90 := of_decide_eq_true h
    omega
  · obtain ⟨hlow, hhigh⟩ := (Bool.and_eq_true _ _).mp h
    have hlow : 97 ≤ c.toNat := of_decide_eq_true hlow
    have hhigh : c.toNat ≤ 122 := of_decide_eq_true hhigh
    omega

theorem isBlank_of_isBare (h : isBare c = true) : isBlank c = false := by
  have hrange : 43 ≤ c.toNat ∧ c.toNat ≤ 122 := by
    simp only [isBare, Char.isAlphanum, Bool.or_eq_true, beq_iff_eq] at h
    rcases h with ((((h | h) | rfl) | rfl) | rfl) | rfl
    · have := toNat_of_isAlpha h
      omega
    · have := toNat_of_isDigit h
      omega
    all_goals decide
  exact isBlank_of_visible (by omega) (by omega)

theorem Bare.hides (h : Bare cs) (op : Operator) (depth : Nat) : Hides op depth cs := by
  refine hides_of_all (fun c hc => isNeutral_of_isBare (h.2 c hc)) (.inr fun c hc => ?_)
  exact ne_of_isBare (h.2 c hc) (by cases op <;> decide)

theorem Bare.framed (h : Bare cs) : Framed cs := by
  constructor
  · obtain ⟨c, rest, rfl⟩ := List.exists_cons_of_ne_nil h.1
    have hc : isBare c = true := h.2 c (by simp)
    exact ⟨c, rest, rfl, isBlank_of_isBare hc, ne_of_isBare hc (by decide)⟩
  · obtain ⟨front, c, hcs⟩ := (List.eq_nil_or_concat cs).resolve_left h.1
    rw [List.concat_eq_append] at hcs
    subst hcs
    exact ⟨front, c, rfl, isBlank_of_isBare (h.2 c (by simp))⟩

theorem Bare.not_mem (h : Bare cs) (hd : isBare d = false) : d ∉ cs :=
  fun hmem => ne_of_isBare (h.2 d hmem) hd rfl

theorem Bare.balanced (h : Bare cs) : Balanced cs :=
  balanced_of_not_mem (h.not_mem (by decide)) (h.not_mem (by decide))

theorem Bare.head_ne (h : Bare cs) (hd : isBare d = false) : cs.head? ≠ some d := by
  obtain ⟨c, rest, rfl⟩ := List.exists_cons_of_ne_nil h.1
  simpa using ne_of_isBare (h.2 c (by simp)) hd

end

/-! ## Words, numbers and names -/

/-- The words that stand for values. -/
inductive Word where
  | true
  | false
  | null

namespace Word

/-- The letters of a word. -/
def letters : Word → List Char
  | true => ['t', 'r', 'u', 'e']
  | false => ['f', 'a', 'l', 's', 'e']
  | null => ['n', 'u', 'l', 'l']

/-- The value of a word. -/
def value : Word → Json
  | true => .bool .true
  | false => .bool .false
  | null => .null

theorem bare (w : Word) : Bare w.letters := by
  cases w <;> exact ⟨by decide, List.all_eq_true.1 (by decide)⟩

end Word

/-- A name that a variable may have in an expression. -/
structure Name where
  letters : List Char
  isName : Operand.isName letters = true

theorem Name.head (name : Name) :
    ∃ c rest, name.letters = c :: rest ∧ Operand.startsName c = true ∧
      ∀ d ∈ rest, Operand.inName d = true := by
  have h := name.isName
  match hcs : name.letters with
  | [] => simp [hcs, Operand.isName] at h
  | c :: rest =>
    rw [hcs, Operand.isName, Bool.and_eq_true, List.all_eq_true] at h
    exact ⟨c, rest, rfl, h⟩

theorem isDigit_of_startsName {c : Char} (h : Operand.startsName c = true) :
    c.isDigit = false := by
  cases hd : c.isDigit with
  | false => rfl
  | true =>
    have hdigit := toNat_of_isDigit hd
    simp only [Operand.startsName, Bool.or_eq_true, beq_iff_eq] at h
    rcases h with h | rfl
    · have := toNat_of_isAlpha h
      omega
    · cases hd

theorem Name.bare (name : Name) : Bare name.letters := by
  obtain ⟨c, rest, hcs, hc, hrest⟩ := name.head
  rw [hcs]
  refine ⟨by simp, List.forall_mem_cons.2 ⟨?_, fun d hd => ?_⟩⟩
  · simp only [Operand.startsName, Bool.or_eq_true] at hc
    rcases hc with hc | hc <;> simp [isBare, Char.isAlphanum, hc]
  · have hd := hrest d hd
    simp only [Operand.inName, Bool.or_eq_true] at hd
    rcases hd with ((hd | hd) | hd) | hd <;> simp [isBare, hd]

theorem bare_number (x : Numeral) : Bare x.text := by
  obtain ⟨c, cs, hcs, -⟩ := x.text_head
  refine ⟨by simp [hcs], fun c hc => ?_⟩
  have h := x.inNumber_text c hc
  simp only [inNumber, Bool.or_eq_true, beq_iff_eq] at h
  rcases h with ((((h | rfl) | rfl) | rfl) | rfl) | rfl
  · simp [isBare, Char.isAlphanum, h]
  all_goals decide

section

variable {c : Char} {cs : List Char}

theorem placeholder_of_head (h : c ≠ '{') : Operand.placeholder? (c :: cs) = none := by
  unfold Operand.placeholder?
  split
  · rename_i heq
    cases heq
    exact absurd rfl h
  · rfl

/-- A bare text other than a word is a number, else a name, else itself. -/
theorem parse_of_bare (h : Bare cs) (hw : ∀ w : Word, cs ≠ w.letters) :
    Operand.parse cs = (Operand.number? cs).elim
      (if Operand.isName cs then .variable (String.ofList cs) else .template (String.ofList cs))
      fun n => .constant (.number n) := by
  obtain ⟨c, rest, rfl⟩ := List.exists_cons_of_ne_nil h.1
  have hne : ∀ d, isBare d = false → c ≠ d := fun d => ne_of_isBare (h.2 c (by simp))
  have hunquoted : Operand.unquoted? (c :: rest) = none := by
    simp [Operand.unquoted?, Scan.isQuote, hne '"' (by decide), hne '\'' (by decide)]
  have htrue := hw .true
  have hfalse := hw .false
  have hnull := hw .null
  simp only [Word.letters] at htrue hfalse hnull
  rw [Operand.parse, placeholder_of_head (hne '{' (by decide)), hunquoted]
  simp only [List.head?_cons, Option.some.injEq, if_neg (hne '[' (by decide)), if_neg htrue,
    if_neg hfalse, if_neg hnull]
  cases Operand.number? (c :: rest) <;> rfl

end

theorem parse_word (w : Word) : Operand.parse w.letters = .constant w.value := by
  cases w <;> rfl

theorem parse_number (x : Numeral) {n : Number} (hn : x.literal.value? = some n) :
    Operand.parse x.text = .constant (.number n) := by
  have hbare := bare_number x
  have hparse := parse_numeral x hn
  obtain ⟨c, cs, hcs, hc⟩ := x.text_head
  rw [hcs] at hbare hparse ⊢
  have hstart : (c == '-' || c.isDigit) = true := by simpa using hc
  have hnumber : Operand.number? (c :: cs) = some n := by
    simp [Operand.number?, hstart, hparse]
  have hword : ∀ w : Word, c :: cs ≠ w.letters := by
    intro w hw
    cases w <;> cases hw <;> exact absurd hstart (by decide)
  rw [parse_of_bare hbare hword, hnumber]
  rfl

theorem parse_name (name : Name) (h : ∀ w : Word, name.letters ≠ w.letters) :
    Operand.parse name.letters = .variable (String.ofList name.letters) := by
  have hnumber : Operand.number? name.letters = none := by
    obtain ⟨c, cs, hcs, hc, -⟩ := name.head
    have hminus : c ≠ '-' := by
      rintro rfl
      cases hc
    simp [hcs, Operand.number?, hminus, isDigit_of_startsName hc]
  rw [parse_of_bare name.bare h, hnumber, Option.elim_none, if_pos name.isName]

/-! ## Quotations and placeholders -/

/-- A text in quotes; in round brackets it has no round brackets. -/
structure Quotation (grouped : Bool) where
  mark : Char
  body : List Char
  isMark : Scan.isQuote mark = true
  unmarked : mark ∉ body
  ungrouped : grouped = true → '(' ∉ body ∧ ')' ∉ body

/-- The text of a quotation. -/
def Quotation.text {grouped : Bool} (q : Quotation grouped) : List Char :=
  q.mark :: (q.body ++ [q.mark])

section

variable {grouped : Bool}

theorem Quotation.mark_ne (q : Quotation grouped) {c : Char} (hc : Scan.isQuote c = false) :
    q.mark ≠ c := by
  rintro rfl
  cases q.isMark.symm.trans hc

theorem Quotation.framed (q : Quotation grouped) : Framed q.text := by
  have hblank : isBlank q.mark = false := by
    have h := q.isMark
    simp only [Scan.isQuote, Bool.or_eq_true, beq_iff_eq] at h
    rcases h with h | h <;> rw [h] <;> decide
  exact Framed.enclosed ⟨hblank, q.mark_ne (by decide)⟩ hblank

theorem Quotation.balanced (q : Quotation grouped) (hg : grouped = true) : Balanced q.text := by
  obtain ⟨hopen, hclose⟩ := q.ungrouped hg
  refine balanced_of_not_mem ?_ ?_
  · simp [text, hopen, (q.mark_ne (by decide : Scan.isQuote '(' = false)).symm]
  · simp [text, hclose, (q.mark_ne (by decide : Scan.isQuote ')' = false)).symm]

theorem parse_quotation (q : Quotation grouped) :
    Operand.parse q.text = .template (String.ofList q.body) := by
  have hunquoted : Operand.unquoted? q.text = some q.body := by
    simp [Quotation.text, Operand.unquoted?, q.isMark]
  rw [Operand.parse, hunquoted, Quotation.text, placeholder_of_head (q.mark_ne (by decide))]

end

/-- The text of a name in double braces. -/
def Name.placeholder (name : Name) : List Char := '{' :: '{' :: (name.letters ++ ['}', '}'])

theorem Name.placeholder_eq (name : Name) :
    name.placeholder = '{' :: (('{' :: (name.letters ++ ['}'])) ++ ['}']) := by
  simp [placeholder]

theorem hasDouble_of_not_mem {brace : Char} {cs : List Char} (h : brace ∉ cs) :
    Operand.hasDouble brace cs = false := by
  induction cs with
  | nil => rfl
  | cons c cs ih =>
    simp only [List.mem_cons, not_or] at h
    cases cs with
    | nil => rfl
    | cons d cs => simp [Operand.hasDouble, Ne.symm h.1, ih h.2]

theorem parse_placeholder (name : Name) :
    Operand.parse name.placeholder = .variable (String.ofList name.letters) := by
  have hopen := hasDouble_of_not_mem (name.bare.not_mem (by decide : isBare '{' = false))
  have hclose := hasDouble_of_not_mem (name.bare.not_mem (by decide : isBare '}' = false))
  have hend : Operand.dropEnd? '}' '}' (name.letters ++ ['}', '}']) = some name.letters := by
    simp [Operand.dropEnd?]
  have hinner : Operand.placeholder? name.placeholder = some name.letters := by
    simp [Name.placeholder, Operand.placeholder?, hend, hopen, hclose, name.bare.framed.trim_eq]
  rw [Operand.parse, hinner]

end Expression

end RequestFlow
