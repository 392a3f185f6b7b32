import RequestFlow.Expression.Error

/-!
# Operators at the top level

An operator counts only outside quotes and brackets. One pass from the left keeps track of the
quote that is open and of how many brackets are; a closing bracket that closes nothing is ignored.

* `cut`: the text before and after the first such operator;
* `split`: the parts between all of them;
* `length_split`: the parts of a text that has the operator are shorter than the text.
-/

namespace RequestFlow.Expression

/-- What a scan has open: a quote, and a number of brackets. -/
structure Scan where
  quote : Option Char
  depth : Nat
deriving DecidableEq, Repr

namespace Scan

/-- Nothing is open. -/
def start : Scan := ⟨none, 0⟩

/-- The scan is outside quotes and brackets. -/
def outside (s : Scan) : Bool := s.quote.isNone && s.depth == 0

/-- One of the two quotes. -/
def isQuote (c : Char) : Bool := c == '"' || c == '\''

/-- A bracket that opens. -/
def opens (c : Char) : Bool := c == '(' || c == '[' || c == '{'

/-- A bracket that closes. -/
def closes (c : Char) : Bool := c == ')' || c == ']' || c == '}'

/-- The scan after one more character. -/
def step (s : Scan) (c : Char) : Scan :=
  match s.quote with
  | some q => if c = q then { s with quote := none } else s
  | none =>
    if isQuote c then { s with quote := some c }
    else if opens c then { s with depth := s.depth + 1 }
    else if closes c then { s with depth := s.depth - 1 }
    else s

end Scan

/-- The text begins with the operator. -/
def startsWith (op : Operator) : List Char → Bool
  | a :: b :: _ => a == op.symbol.1 && b == op.symbol.2
  | _ => false

/-- The text before and after the first operator at the top level. -/
def cut (op : Operator) (s : Scan) : List Char → Option (List Char × List Char)
  | [] => none
  | c :: rest =>
    if s.outside && startsWith op (c :: rest) then some ([], rest.drop 1)
    else (cut op (s.step c) rest).map fun parts => (c :: parts.1, parts.2)

theorem length_cut {op : Operator} {s : Scan} {cs before after : List Char}
    (h : cut op s cs = some (before, after)) : before.length + 2 + after.length = cs.length := by
  induction cs generalizing s before with
  | nil => simp [cut] at h
  | cons c rest ih =>
    rw [cut] at h
    split at h
    · rename_i hs
      obtain ⟨rfl, rfl⟩ := Prod.mk.injEq .. ▸ Option.some.injEq .. ▸ h
      match rest with
      | [] => simp [startsWith] at hs
      | _ :: rest => simp; omega
    · obtain ⟨⟨b, a⟩, hb, he⟩ := Option.map_eq_some_iff.1 h
      obtain ⟨rfl, rfl⟩ := Prod.mk.injEq .. ▸ he
      have := ih hb
      simp only [List.length_cons] at *
      omega

/-- The parts of a text between the operators at its top level. -/
def split (op : Operator) (cs : List Char) : List (List Char) :=
  match _h : cut op .start cs with
  | none => [cs]
  | some (before, after) => before :: split op after
termination_by cs.length
decreasing_by
  have := length_cut _h
  omega

theorem length_le_of_mem_split {op : Operator} {cs part : List Char} (h : part ∈ split op cs) :
    part.length ≤ cs.length := by
  fun_induction split op cs with
  | case1 cs _ =>
    exact Nat.le_of_eq (congrArg List.length (List.mem_singleton.1 h))
  | case2 cs before after hc ih =>
    have := length_cut hc
    rcases List.mem_cons.1 h with rfl | h
    · omega
    · have := ih h
      omega

/-- The parts of a text that has the operator are shorter than the text. -/
theorem length_split {op : Operator} {cs part : List Char} (hc : (cut op .start cs).isSome)
    (h : part ∈ split op cs) : part.length < cs.length := by
  obtain ⟨⟨before, after⟩, hb⟩ := Option.isSome_iff_exists.1 hc
  rw [split] at h
  split at h
  · rename_i hn
    simp [hn] at hb
  · rename_i b a ha
    have := length_cut ha
    rcases List.mem_cons.1 h with rfl | h
    · omega
    · have := length_le_of_mem_split h
      omega

/-- The depth of round brackets after a text, unless one closes that was not opened. -/
def groupDepth (depth : Nat) : List Char → Option Nat
  | [] => some depth
  | c :: rest =>
    if c = '(' then groupDepth (depth + 1) rest
    else if c = ')' then (if depth = 0 then none else groupDepth (depth - 1) rest)
    else groupDepth depth rest

/-- The text in a pair of round brackets that belong to each other; brackets in quotes count. -/
def group? : List Char → Option (List Char)
  | '(' :: rest =>
    if rest.getLast? = some ')' ∧ groupDepth 0 rest.dropLast = some 0 then some rest.dropLast
    else none
  | _ => none

theorem length_group {cs inner : List Char} (h : group? cs = some inner) :
    inner.length < cs.length := by
  unfold group? at h
  split at h
  · split at h
    · cases h
      simp only [List.length_cons, List.length_dropLast]
      omega
    · cases h
  · cases h

/-- The text after the exclamation marks at its front, with the number of them. -/
def negations : List Char → Nat × List Char
  | [] => (0, [])
  | c :: rest =>
    if c = '!' then
      let (count, inner) := negations rest
      (count + 1, inner)
    else if Text.isBlank c then negations rest
    else (0, c :: rest)

theorem length_negations (cs : List Char) :
    (negations cs).2.length + (negations cs).1 ≤ cs.length := by
  induction cs with
  | nil => simp [negations]
  | cons c rest ih =>
    rw [negations]
    split
    · simp only [List.length_cons]
      omega
    · split
      · simp only [List.length_cons]
        omega
      · simp

end RequestFlow.Expression
