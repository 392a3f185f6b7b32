import RequestFlow.Text.Word

/-!
# Redaction

Texts that are kept must not give secrets away. A secret is recognised by the mark in front of it:
a rule says which marks there are and which characters a secret after them is made of, and
everything up to the first other character is replaced. A mark with nothing of a secret after it
stays as it is. Marks are recognised in any case.

* `Rule.apply`: a text with the secrets of one rule replaced;
* `redact`: a text with the secrets of all rules replaced.
-/

namespace RequestFlow.Redaction

/-- A letter as it is compared: small, where the Kelvin sign is a `k` and the long s an `s`. -/
def foldLetter (c : Char) : Char :=
  if c = '\u212a' then 'k' else if c = '\u017f' then 's' else c.toLower

/-- The text that stands for a secret. -/
def placeholder : List Char := "<redacted>".toList

/-- How secrets of one kind are recognised. -/
structure Rule where
  /-- What stands in front of a secret, in small letters. -/
  marks : List String
  /-- The characters that secrets are made of. -/
  covers : Char → Bool

/-- The front of a text that reads as `mark`, and what follows it. -/
def splitMark : List Char → List Char → Option (List Char × List Char)
  | [], cs => some ([], cs)
  | _ :: _, [] => none
  | m :: mark, c :: cs =>
    if foldLetter c = m then (splitMark mark cs).map fun split => (c :: split.1, split.2) else none

theorem append_of_splitMark {mark cs front rest : List Char}
    (h : splitMark mark cs = some (front, rest)) : front ++ rest = cs := by
  induction mark generalizing cs front with
  | nil => cases h; rfl
  | cons m mark ih =>
    cases cs with
    | nil => cases h
    | cons c cs =>
      simp only [splitMark] at h
      split at h
      · obtain ⟨split, hsplit, heq⟩ := Option.map_eq_some_iff.1 h
        cases heq
        exact congrArg (c :: ·) (ih hsplit)
      · cases h

namespace Rule

/-- A mark at the front of a text with a secret after it: the mark and what follows the mark. -/
def secret? (rule : Rule) (cs : List Char) : Option (List Char × List Char) :=
  (rule.marks.findSome? fun mark => splitMark mark.toList cs).filter fun split =>
    split.2.head?.any rule.covers

theorem append_of_secret {rule : Rule} {cs front rest : List Char}
    (h : rule.secret? cs = some (front, rest)) : front ++ rest = cs := by
  obtain ⟨mark, -, hmark⟩ := List.exists_of_findSome?_eq_some (Option.filter_eq_some_iff.1 h).1
  exact append_of_splitMark hmark

theorem length_dropWhile_lt_of_secret {rule : Rule} {cs front rest : List Char}
    (h : rule.secret? cs = some (front, rest)) :
    (rest.dropWhile rule.covers).length < cs.length := by
  have hcs := congrArg List.length (append_of_secret h)
  have hhead := (Option.filter_eq_some_iff.1 h).2
  cases rest with
  | nil => simp at hhead
  | cons c rest =>
    have hc : rule.covers c = true := by simpa using hhead
    have hle := Text.length_dropWhile_le rule.covers rest
    simp only [List.length_append, List.length_cons] at hcs
    simp only [List.dropWhile_cons, hc, if_true]
    omega

/-- The text with the secrets of a rule replaced. -/
def apply (rule : Rule) (cs : List Char) : List Char :=
  match _h : rule.secret? cs with
  | some (mark, rest) => mark ++ placeholder ++ rule.apply (rest.dropWhile rule.covers)
  | none =>
    match cs with
    | [] => []
    | c :: cs => c :: rule.apply cs
termination_by cs.length
decreasing_by
  · exact length_dropWhile_lt_of_secret (by assumption)
  · simp

end Rule

/-- Characters of credentials in a header. -/
def isCredential (c : Char) : Bool := Text.isWord c || "-.=:/+ ".toList.contains c

/-- Credentials in a header. -/
def header : Rule := ⟨["authorization: "], isCredential⟩

/-- Values of parameters and assignments whose names end in a telling word. -/
def parameter : Rule :=
  ⟨["key=", "token=", "secret=", "password="], fun c => !Text.isBlank c && c != '&'⟩

/-- Addresses of databases. -/
def database : Rule := ⟨["database_url="], fun c => !Text.isBlank c⟩

/-- The rules, in the order in which they are applied. -/
def rules : List Rule := [header, parameter, database]

end RequestFlow.Redaction

namespace RequestFlow

/-- A text with its secrets replaced. -/
def redact (text : String) : String :=
  String.ofList (Redaction.rules.foldl (fun cs rule => rule.apply cs) text.toList)

end RequestFlow
