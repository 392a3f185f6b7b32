import RequestFlow.Proofs.Expression.Operand
import RequestFlow.Proofs.Expression.Shape

/-!
# The meaning of conditions

The language of conditions as a grammar: its trees, the text of each and what each means in a scope.
Evaluation never builds such a tree. It looks through the text of a condition again at every level,
and still gives the meaning of the tree that the text is written from.

* `Tree`: the conditions of each level, in round brackets or not;
* `Tree.text`, `Tree.denote`: how a condition is written, and what it means;
* `Spells`: what a text of a level must be for the levels around it, and the meaning it is given;
* `evaluate_text`: the value of a condition's text is what the condition means.
-/

namespace RequestFlow

open Text JsonText

namespace Expression

/-! ## The grammar -/

/-- The levels of the grammar, from the loosest operator to none. -/
inductive Level where
  | joined (j : Junction)
  | compared
  | negated
  | atom

/-- The level of the terms that are joined. -/
def Junction.operand : Junction → Level
  | or => .joined .and
  | and => .compared

/-- A condition of a level; whether it is in round brackets matters to its quotations only. -/
inductive Tree : Bool → Level → Type where
  /-- Two terms or more, the last of which may be joined terms again. -/
  | join {grouped : Bool} (j : Junction) (first : Tree grouped j.operand)
    (rest : Tree grouped (.joined j)) : Tree grouped (.joined j)
  /-- One term, which is not joined to another. -/
  | term {grouped : Bool} (j : Junction) (operand : Tree grouped j.operand) :
    Tree grouped (.joined j)
  | comparison {grouped : Bool} (equal : Bool) (left right : Tree grouped .negated) :
    Tree grouped .compared
  /-- One side alone, which is not compared with another. -/
  | side {grouped : Bool} (operand : Tree grouped .negated) : Tree grouped .compared
  | negation {grouped : Bool} (count : Nat) (operand : Tree grouped .atom) : Tree grouped .negated
  | quotation {grouped : Bool} (quotation : Quotation grouped) : Tree grouped .atom
  | number {grouped : Bool} (numeral : Numeral) (value : Number)
    (spells : numeral.literal.value? = some value) : Tree grouped .atom
  | word {grouped : Bool} (word : Word) : Tree grouped .atom
  | name {grouped : Bool} (name : Name) (free : ∀ w : Word, name.letters ≠ w.letters) :
    Tree grouped .atom
  | placeholder {grouped : Bool} (name : Name) : Tree grouped .atom
  | group {grouped : Bool} (inner : Tree true (.joined .or)) : Tree grouped .atom

/-- A condition as it is written. -/
def Tree.text {grouped : Bool} {level : Level} : Tree grouped level → List Char
  | join j first rest => spaced j.operator first.text rest.text
  | term _ operand => operand.text
  | comparison equal left right => spaced (comparator equal) left.text right.text
  | side operand => operand.text
  | negation count operand => List.replicate count '!' ++ operand.text
  | quotation q => q.text
  | number numeral _ _ => numeral.text
  | word w => w.letters
  | name x _ => x.letters
  | placeholder x => x.placeholder
  | group inner => '(' :: (inner.text ++ [')'])

/-! ## What conditions mean -/

/-- What a text means: its value in a scope, or why it has none there. -/
abbrev Meaning := TextMap → Except EvalError Json

namespace Meaning

/-- Terms that are joined: the first one that decides is the last that is looked at. -/
def join (j : Junction) (first rest : Meaning) : Meaning := fun scope => do
  let value ← first scope
  if value.truthy = j.decisive then return .bool j.decisive
  else
    let others ← rest scope
    return .bool others.truthy

/-- The left side and then the right side, compared. -/
def comparison (equal : Bool) (left right : Meaning) : Meaning := fun scope => do
  let l ← left scope
  let r ← right scope
  return .bool (l.same r == equal)

/-- The truth of the operand, negated so many times; without negation it is the operand. -/
def negation (count : Nat) (operand : Meaning) : Meaning :=
  match count with
  | 0 => operand
  | _ + 1 => fun scope => do
    let value ← operand scope
    return .bool (Nat.repeat not count value.truthy)

/-- A text with its placeholders filled. -/
def template (body : List Char) : Meaning := fun scope =>
  (EvalError.ofLookup (Template.render scope (String.ofList body))).map .string

/-- The value of a variable. -/
def lookup (name : Name) : Meaning := fun scope =>
  (EvalError.ofLookup (scope.lookup (String.ofList name.letters))).map .string

end Meaning

/-- What a condition means. -/
def Tree.denote {grouped : Bool} {level : Level} : Tree grouped level → Meaning
  | join j first rest => .join j first.denote rest.denote
  | term _ operand => operand.denote
  | comparison equal left right => .comparison equal left.denote right.denote
  | side operand => operand.denote
  | negation count operand => .negation count operand.denote
  | quotation q => .template q.body
  | number _ value _ => fun _ => .ok (.number value)
  | word w => fun _ => .ok w.value
  | name x _ => .lookup x
  | placeholder x => .lookup x
  | group inner => inner.denote

/-! ## Texts of a level -/

/-- The operators that a text of the level has in quotes and brackets only. -/
def Level.hides : Level → Operator → Bool
  | .joined .or, _ => false
  | .joined .and, op => op == .or
  | .compared, op => op == .or || op == .and
  | _, _ => true

/-- What the levels around it need of a text, with the meaning it is given. -/
structure Spells (grouped : Bool) (level : Level) (cs : List Char) (meaning : Meaning) : Prop where
  /-- In brackets nothing is found in it, and outside of them no operator looser than its own. -/
  hides : ∀ op depth, 0 < depth ∨ level.hides op = true → Hides op depth cs
  framed : Framed cs
  balanced : grouped = true → Balanced cs
  unmarked : level = .atom → cs.head? ≠ some '!'
  eval : ∀ scope, (Expr.parse cs).eval scope = meaning scope
  /-- The terms that it joins have its truth. -/
  terms : ∀ j, level = .joined j → ∃ parts, Terms j.operator cs parts ∧
    ∀ scope, j.truth scope (parts.map Expr.parse) = (meaning scope).map Json.truthy

section

variable {grouped : Bool} {cs as bs : List Char} {m n : Meaning}

theorem hides_of_joined {j : Junction} {op : Operator}
    (h : (Level.joined j).hides op = true) : j = .and ∧ op = .or := by
  cases j with
  | or => cases h
  | and => exact ⟨rfl, by simpa [Level.hides] using h⟩

/-- A term hides what the terms around it hide, and the operator that it is joined with. -/
theorem hides_operand {j : Junction} {op : Operator}
    (h : (Level.joined j).hides op = true ∨ op = j.operator) : j.operand.hides op = true := by
  rcases h with h | rfl
  · obtain ⟨rfl, rfl⟩ := hides_of_joined h
    rfl
  · cases j <;> rfl

theorem hides_joined {j : Junction} (h : Spells grouped j.operand as m)
    (h' : Spells grouped (.joined j) bs n) {op : Operator} {depth : Nat}
    (hd : 0 < depth ∨ (Level.joined j).hides op = true) :
    Hides op depth (spaced j.operator as bs) := by
  refine hides_spaced (h.hides op depth (hd.imp_right fun hop => hides_operand (.inl hop)))
    (h'.hides op depth hd) (hd.imp_right fun hop => ?_)
  obtain ⟨rfl, rfl⟩ := hides_of_joined hop
  decide

/-- What terms that are joined mean, from the truth of each up to the one that decides. -/
theorem join_eq_truth {j : Junction} {scope : TextMap} {part : Expr} {rest : List Expr}
    (hpart : part.eval scope = m scope)
    (hrest : j.truth scope rest = (n scope).map Json.truthy) :
    Meaning.join j m n scope = (j.truth scope (part :: rest)).map .bool := by
  rw [Junction.truth_cons, hpart, hrest, Meaning.join]
  cases m scope with
  | error e => rfl
  | ok value =>
    simp only [bind, Except.bind, pure, Except.pure]
    split
    · rfl
    · cases n scope <;> rfl

theorem spells_join (j : Junction) (h : Spells grouped j.operand as m)
    (h' : Spells grouped (.joined j) bs n) :
    Spells grouped (.joined j) (spaced j.operator as bs) (.join j m n) := by
  obtain ⟨parts, hparts, htruth⟩ := h'.terms j rfl
  have hoperator : Hides j.operator 0 as := h.hides _ _ (.inr (hides_operand (.inr rfl)))
  have hor : j.operator ≠ .or → Hides .or 0 (spaced j.operator as bs) := by
    intro hne
    cases j with
    | or => exact (hne rfl).elim
    | and => exact hides_joined h h' (.inr rfl)
  have hmeaning (scope : TextMap) : Meaning.join j m n scope =
      (j.truth scope ((as :: parts).map Expr.parse)).map .bool :=
    join_eq_truth (h.eval scope) (htruth scope)
  refine ⟨fun op depth => hides_joined h h', h.framed.spaced h'.framed,
    fun hg => (h.balanced hg).spaced (h'.balanced hg), by rintro ⟨⟩, fun scope => ?_, ?_⟩
  · rw [parse_joined j hoperator h.framed hparts hor, Junction.eval_expr, hmeaning]
  · rintro _ ⟨⟩
    refine ⟨as :: parts, .more hoperator h.framed hparts, fun scope => ?_⟩
    rw [hmeaning]
    cases j.truth scope ((as :: parts).map Expr.parse) <;> rfl

theorem spells_term (j : Junction) (h : Spells grouped j.operand cs m) :
    Spells grouped (.joined j) cs m := by
  have hides : ∀ op depth, 0 < depth ∨ (Level.joined j).hides op = true → Hides op depth cs :=
    fun op depth hd => h.hides op depth (hd.imp_right fun hop => hides_operand (.inl hop))
  refine ⟨hides, h.framed, h.balanced, by rintro ⟨⟩, h.eval, ?_⟩
  rintro _ ⟨⟩
  refine ⟨[cs], .one (h.hides _ _ (.inr (hides_operand (.inr rfl)))) h.framed, fun scope => ?_⟩
  rw [List.map_singleton, Junction.truth_one, h.eval]

theorem spells_comparison (equal : Bool) (h : Spells grouped .negated as m)
    (h' : Spells grouped .negated bs n) :
    Spells grouped .compared (spaced (comparator equal) as bs) (.comparison equal m n) := by
  refine ⟨fun op depth hd => ?_, h.framed.spaced h'.framed,
    fun hg => (h.balanced hg).spaced (h'.balanced hg), by rintro ⟨⟩, fun scope => ?_, by rintro _ ⟨⟩⟩
  · refine hides_spaced (h.hides op depth (.inr rfl)) (h'.hides op depth (.inr rfl))
      (hd.imp_right fun hop => ?_)
    cases equal <;> cases op <;> simp_all [comparator, Operator.symbol, Level.hides]
  · have hequal : (comparator equal == .equals) = equal := by cases equal <;> rfl
    rw [parse_comparison equal (fun op => h.hides op 0 (.inr rfl)) (fun op => h'.hides op 0 (.inr rfl))
      h.framed h'.framed, Expr.eval, h.eval, h'.eval, hequal]
    rfl

theorem spells_side (h : Spells grouped .negated cs m) : Spells grouped .compared cs m :=
  ⟨fun op depth _ => h.hides op depth (.inr rfl), h.framed, h.balanced, by rintro ⟨⟩,
    h.eval, by rintro _ ⟨⟩⟩

theorem repeat_not (count : Nat) (b : Bool) :
    Nat.repeat not count b = (b != (count % 2 == 1)) := by
  induction count with
  | zero => cases b <;> rfl
  | succ count ih =>
    have hmod : count % 2 = 0 ∧ (count + 1) % 2 = 1 ∨ count % 2 = 1 ∧ (count + 1) % 2 = 0 := by omega
    rw [Nat.repeat, ih]
    rcases hmod with ⟨h, h'⟩ | ⟨h, h'⟩ <;> rw [h, h'] <;> cases b <;> rfl

theorem balanced_replicate (count : Nat) : Balanced (List.replicate count '!') :=
  balanced_of_not_mem (by simp) (by simp)

theorem spells_negation (count : Nat) (h : Spells grouped .atom cs m) :
    Spells grouped .negated (List.replicate count '!' ++ cs) (.negation count m) := by
  have hides : ∀ op depth, Hides op depth cs := fun op depth => h.hides op depth (.inr rfl)
  refine ⟨fun op depth _ => (hides_replicate (hides op depth) h.framed count).1,
    (hides_replicate (hides .or 0) h.framed count).2,
    fun hg => (balanced_replicate count).append (h.balanced hg), by rintro ⟨⟩, fun scope => ?_,
    by rintro _ ⟨⟩⟩
  cases count with
  | zero => exact h.eval scope
  | succ count =>
    rw [parse_marked (fun op => hides op 0) h.framed (h.unmarked rfl), Expr.eval, h.eval]
    simp only [Meaning.negation, repeat_not]

theorem spells_operand {x : Operand} (hides : ∀ op depth, Hides op depth cs) (framed : Framed cs)
    (balanced : grouped = true → Balanced cs) (hm : cs.head? ≠ some '!') (hg : cs.head? ≠ some '(')
    (hparse : Operand.parse cs = x) : Spells grouped .atom cs fun scope => x.eval scope := by
  refine ⟨fun op depth _ => hides op depth, framed, balanced, fun _ => hm, fun scope => ?_,
    by rintro _ ⟨⟩⟩
  rw [parse_operand (fun op => hides op 0) framed hm hg, hparse, Expr.eval]

theorem spells_bare {x : Operand} (h : Bare cs) (hparse : Operand.parse cs = x) :
    Spells grouped .atom cs fun scope => x.eval scope :=
  spells_operand h.hides h.framed (fun _ => h.balanced) (h.head_ne (by decide))
    (h.head_ne (by decide)) hparse

theorem spells_quotation (q : Quotation grouped) :
    Spells grouped .atom q.text (.template q.body) := by
  refine spells_operand (fun op depth => hides_quoted q.isMark q.unmarked) q.framed q.balanced ?_ ?_
    (parse_quotation q)
  · simpa [Quotation.text] using q.mark_ne (by decide : Scan.isQuote '!' = false)
  · simpa [Quotation.text] using q.mark_ne (by decide : Scan.isQuote '(' = false)

theorem spells_placeholder (x : Name) : Spells grouped .atom x.placeholder (.lookup x) := by
  have hides : ∀ op depth, Hides op depth x.placeholder := by
    intro op depth
    rw [x.placeholder_eq]
    refine hides_bracketed (by decide) (by decide) ?_
    exact hides_bracketed (by decide) (by decide) (x.bare.hides op (depth + 2))
  have framed : Framed x.placeholder := by
    rw [x.placeholder_eq]
    exact Framed.enclosed (by decide) (by decide)
  have balanced : Balanced x.placeholder := by
    have hopen : Balanced ['{', '{'] := balanced_of_not_mem (by decide) (by decide)
    have hclose : Balanced ['}', '}'] := balanced_of_not_mem (by decide) (by decide)
    exact hopen.append (x.bare.balanced.append hclose)
  exact spells_operand hides framed (fun _ => balanced) (by simp [Name.placeholder])
    (by simp [Name.placeholder]) (parse_placeholder x)

theorem spells_group (h : Spells true (.joined .or) cs m) :
    Spells grouped .atom ('(' :: (cs ++ [')'])) m := by
  have hides : ∀ op depth, Hides op (depth + 1) cs :=
    fun op depth => h.hides op (depth + 1) (.inl (Nat.succ_pos depth))
  refine ⟨fun op depth _ => hides_bracketed (by decide) (by decide) (hides op depth),
    Framed.enclosed (by decide) (by decide), fun _ => (h.balanced rfl).grouped, fun _ => by simp,
    fun scope => ?_, by rintro _ ⟨⟩⟩
  rw [parse_group (fun op => hides op 0) (h.balanced rfl), h.eval]

end

/-! ## Every condition -/

theorem Tree.spells {grouped : Bool} {level : Level} (tree : Tree grouped level) :
    Spells grouped level tree.text tree.denote := by
  induction tree with
  | join j first rest ihFirst ihRest => exact spells_join j ihFirst ihRest
  | term j operand ih => exact spells_term j ih
  | comparison equal left right ihLeft ihRight => exact spells_comparison equal ihLeft ihRight
  | side operand ih => exact spells_side ih
  | negation count operand ih => exact spells_negation count ih
  | quotation q => exact spells_quotation q
  | number numeral value spells => exact spells_bare (bare_number numeral) (parse_number numeral spells)
  | word w => exact spells_bare w.bare (parse_word w)
  | name x free => exact spells_bare x.bare (parse_name x free)
  | placeholder x => exact spells_placeholder x
  | group inner ih => exact spells_group ih

/-- The value of a condition's text is what the condition means, in every scope. -/
theorem evaluate_text (tree : Tree false (.joined .or)) (scope : TextMap) :
    evaluate (String.ofList tree.text) scope = tree.denote scope := by
  have h := tree.spells
  have hcore : (tree.text).isEmpty = false := by simpa using h.framed.ne_nil
  simp only [evaluate, String.toList_ofList, h.framed.trim_eq, hcore, Bool.false_eq_true, if_false]
  exact h.eval scope

example :
    (Tree.join .or (.term .and (.side (.negation 1 (.placeholder ⟨['a'], rfl⟩))))
      (.term .or (.term .and (.comparison false (.negation 0 (.word .true))
        (.negation 0 (.quotation ⟨'"', ['|', '|'], rfl, by decide, nofun⟩))))) :
      Tree false (.joined .or)).text = "!\x7b\x7ba\x7d\x7d || true != \"||\"".toList := by
  decide

end Expression

end RequestFlow
