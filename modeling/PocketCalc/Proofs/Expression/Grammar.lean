import Mathlib.Data.List.Induction
import PocketCalc.Expression.Postfix

/-!
# The precedence grammar and postfix order

Entries and tokens alternate between operands and operators; a `Chain` is such a list by
construction. The grammar reads the tokens of a chain as

    Expression = Term (('+' | '-') Term)*        Term = Operand (('*' | '/') Operand)*

with both repetitions grouped to the left. `IsTerm` and `IsExpression` are its rules, each with the
tree that it builds.

`toPostfix_of_isExpression`: the yard puts out the tree in postorder. Since a tree can be read off
its postorder (`postorder_injective`), no chain has two trees. It has one, `Chain.tree`, which is
built from left to right (`Chain.isExpression_tree`) and is written as the chain
(`Chain.chain_tree`).
-/

namespace PocketCalc

/-! ## Chains -/

/-- An operand, and after it operators each followed by a further operand. -/
structure Chain (β : Type) where
  first : β
  rest : List (Operator × β)
deriving DecidableEq, Repr

namespace Chain

variable {β γ : Type}

def operands (c : Chain β) : List β :=
  c.first :: c.rest.map Prod.snd

def map (f : β → γ) (c : Chain β) : Chain γ :=
  ⟨f c.first, c.rest.map fun p => (p.1, f p.2)⟩

theorem operands_map (f : β → γ) (c : Chain β) : (c.map f).operands = c.operands.map f := by
  simp [operands, map]

def entries (c : Chain Text) : List Text :=
  c.first :: c.rest.flatMap fun p => [[p.1.symbol], p.2]

def tokens (c : Chain β) : List (Token β) :=
  .number c.first :: c.rest.flatMap fun p => [.op p.1, .number p.2]

end Chain

section
variable {α : Type} [Operand α]

theorem tokenize_entries {c : Chain Text} (h : ∀ x ∈ c.operands, Operator.ofText? x = none) :
    tokenize c.entries = (c.map (Operand.ofText : Text → α)).tokens := by
  obtain ⟨x, rest⟩ := c
  simp only [Chain.operands, List.mem_cons, forall_eq_or_imp] at h
  obtain ⟨hx, hrest⟩ := h
  simp only [tokenize, Chain.entries, Chain.tokens, Chain.map, List.map_cons,
    Token.ofEntry_operand hx, List.cons.injEq, true_and]
  induction rest with
  | nil => rfl
  | cons p rest ih =>
    simp only [List.map_cons, List.mem_cons, forall_eq_or_imp] at hrest
    simp only [List.flatMap_cons, List.map_append, List.map_cons, List.map_nil,
      Token.ofEntry_symbol, Token.ofEntry_operand hrest.1, ih hrest.2]

end

/-! ## Trees and the grammar -/

/-- An operand, or an operator between two trees. -/
inductive Tree (α : Type) where
  | leaf (value : α)
  | node (left : Tree α) (operator : Operator) (right : Tree α)
deriving DecidableEq, Repr

namespace Operator

def Additive (o : Operator) : Prop :=
  o = .add ∨ o = .sub

def Multiplicative (o : Operator) : Prop :=
  o = .mul ∨ o = .div

theorem additive_or_multiplicative (o : Operator) : o.Additive ∨ o.Multiplicative := by
  cases o <;> simp [Additive, Multiplicative]

theorem Additive.precedence {o : Operator} (h : o.Additive) : o.precedence = 1 := by
  rcases h with rfl | rfl <;> rfl

theorem Multiplicative.precedence {o : Operator} (h : o.Multiplicative) : o.precedence = 2 := by
  rcases h with rfl | rfl <;> rfl

theorem one_le_precedence (o : Operator) : 1 ≤ o.precedence := by
  cases o <;> decide

theorem precedence_le_two (o : Operator) : o.precedence ≤ 2 := by
  cases o <;> decide

end Operator

variable {α : Type}

/-- `Term = Operand (('*' | '/') Operand)*`, grouped to the left. -/
inductive IsTerm : List (Token α) → Tree α → Prop
  | operand (x : α) : IsTerm [.number x] (.leaf x)
  | extend {ts : List (Token α)} {t : Tree α} (h : IsTerm ts t) {o : Operator}
      (ho : o.Multiplicative) (x : α) :
      IsTerm (ts ++ [.op o, .number x]) (.node t o (.leaf x))

/-- `Expression = Term (('+' | '-') Term)*`, grouped to the left. -/
inductive IsExpression : List (Token α) → Tree α → Prop
  | term {ts : List (Token α)} {t : Tree α} (h : IsTerm ts t) : IsExpression ts t
  | extend {ts us : List (Token α)} {e t : Tree α} (he : IsExpression ts e) {o : Operator}
      (ho : o.Additive) (ht : IsTerm us t) :
      IsExpression (ts ++ .op o :: us) (.node e o t)

/-! ## The tree of a chain -/

/-- The tree with one operator and one operand more. The operator takes the whole tree for its left
operand, unless the operator of the tree binds less tightly: then it goes into the right part. -/
def Tree.extend : Tree α → Operator → α → Tree α
  | .leaf y, o, x => .node (.leaf y) o (.leaf x)
  | .node l p r, o, x =>
    if p.precedence < o.precedence then .node l p (r.extend o x)
    else .node (.node l p r) o (.leaf x)

/-- The tree of a chain, built from left to right. -/
def Chain.tree (c : Chain α) : Tree α :=
  c.rest.foldl (fun t p => t.extend p.1 p.2) (.leaf c.first)

theorem Chain.tree_concat (x : α) (rest : List (Operator × α)) (p : Operator × α) :
    Chain.tree ⟨x, rest ++ [p]⟩ = (Chain.tree ⟨x, rest⟩).extend p.1 p.2 := by
  simp [Chain.tree]

def Tree.map {β : Type} (f : α → β) : Tree α → Tree β
  | .leaf x => .leaf (f x)
  | .node l o r => .node (l.map f) o (r.map f)

theorem Tree.map_extend {β : Type} (f : α → β) (t : Tree α) (o : Operator) (x : α) :
    (t.extend o x).map f = (t.map f).extend o (f x) := by
  induction t with
  | leaf y => rfl
  | node l p r _ ihr =>
    by_cases hp : p.precedence < o.precedence
    · simp [extend, map, hp, ihr]
    · simp [extend, map, hp]

/-- How operands are grouped does not depend on what they are. -/
theorem Chain.tree_map {β : Type} (f : α → β) (c : Chain α) : (c.map f).tree = c.tree.map f := by
  obtain ⟨x, rest⟩ := c
  induction rest using List.reverseRecOn with
  | nil => rfl
  | append_singleton rest p ih =>
    have hmap : Chain.map f ⟨x, rest ++ [p]⟩ =
        ⟨f x, (Chain.map f ⟨x, rest⟩).rest ++ [(p.1, f p.2)]⟩ := by
      simp [Chain.map]
    rw [hmap, Chain.tree_concat, Chain.tree_concat, Tree.map_extend, ← ih]
    rfl

/-- An additive operator begins a new term. -/
theorem Tree.extend_additive {o : Operator} (ho : o.Additive) (t : Tree α) (x : α) :
    t.extend o x = .node t o (.leaf x) := by
  cases t with
  | leaf y => rfl
  | node l p r =>
    have hle : ¬ p.precedence < o.precedence := by
      have := p.one_le_precedence
      rw [ho.precedence]
      omega
    rw [Tree.extend, if_neg hle]

/-- A multiplicative operator makes a term longer. -/
theorem IsTerm.tree_extend {ts : List (Token α)} {t : Tree α} (h : IsTerm ts t) {o : Operator}
    (ho : o.Multiplicative) (x : α) : t.extend o x = .node t o (.leaf x) := by
  cases h with
  | operand y => rfl
  | @extend _ _ _ p hp y =>
    have hle : ¬ p.precedence < o.precedence := by
      rw [hp.precedence, ho.precedence]
      decide
    rw [Tree.extend, if_neg hle]

/-- An operator and an operand more: a new last term, or a longer last term. -/
theorem IsExpression.tree_extend {ts : List (Token α)} {e : Tree α} (h : IsExpression ts e)
    (o : Operator) (x : α) : IsExpression (ts ++ [.op o, .number x]) (e.extend o x) := by
  rcases o.additive_or_multiplicative with ho | ho
  · rw [Tree.extend_additive ho]
    exact h.extend ho (.operand x)
  · cases h with
    | term ht =>
      rw [ht.tree_extend ho]
      exact .term (ht.extend ho x)
    | @extend ts us e t he p hp ht =>
      have hlt : p.precedence < o.precedence := by
        rw [hp.precedence, ho.precedence]
        decide
      rw [Tree.extend, if_pos hlt, ht.tree_extend ho]
      simpa using he.extend hp (ht.extend ho x)

/-- The tree of a chain is the one that the grammar builds. -/
theorem Chain.isExpression_tree (c : Chain α) : IsExpression c.tokens c.tree := by
  obtain ⟨x, rest⟩ := c
  induction rest using List.reverseRecOn with
  | nil => exact .term (.operand x)
  | append_singleton rest p ih =>
    rw [Chain.tree_concat]
    simpa [Chain.tokens] using ih.tree_extend p.1 p.2

theorem exists_isExpression (c : Chain α) : ∃ t, IsExpression c.tokens t :=
  ⟨c.tree, c.isExpression_tree⟩

/-- The operands and operators of the tree in the order in which they are written. -/
def Tree.chain : Tree α → Chain α
  | .leaf x => ⟨x, []⟩
  | .node l o r => ⟨l.chain.first, l.chain.rest ++ (o, r.chain.first) :: r.chain.rest⟩

theorem Tree.chain_extend (t : Tree α) (o : Operator) (x : α) :
    (t.extend o x).chain = ⟨t.chain.first, t.chain.rest ++ [(o, x)]⟩ := by
  induction t with
  | leaf y => rfl
  | node l p r _ ihr =>
    unfold Tree.extend
    split
    · simp [Tree.chain, ihr]
    · rfl

/-- **The tree of a chain is written as the chain.** -/
theorem Chain.chain_tree (c : Chain α) : c.tree.chain = c := by
  obtain ⟨x, rest⟩ := c
  induction rest using List.reverseRecOn with
  | nil => rfl
  | append_singleton rest p ih => rw [Chain.tree_concat, Tree.chain_extend, ih]

/-! ## Postfix order is the postorder of the tree -/

/-- The tree with every operator behind its two operands. -/
def Tree.postorder : Tree α → List (Token α)
  | .leaf x => [.number x]
  | .node l o r => l.postorder ++ r.postorder ++ [.op o]

/-- An arriving operator releases the waiting operators that bind as tightly, if none of those
behind them does. -/
theorem Yard.shift_op {o : Operator} (out : List (Token α)) {ws w : List Operator}
    (hws : ∀ p ∈ ws, o.precedence ≤ p.precedence) (hw : ∀ p ∈ w, p.precedence < o.precedence) :
    Yard.shift ⟨out, ws ++ w⟩ (.op o) = ⟨out ++ ws.map .op, o :: w⟩ := by
  have hws' : ∀ p ∈ ws, decide (o.precedence ≤ p.precedence) = true := by simpa using hws
  have htake : w.takeWhile (fun p => decide (o.precedence ≤ p.precedence)) = [] := by
    cases w with
    | nil => rfl
    | cons p w => simp [hw p]
  have hdrop : w.dropWhile (fun p => decide (o.precedence ≤ p.precedence)) = w := by
    cases w with
    | nil => rfl
    | cons p w => simp [hw p]
  simp only [Yard.shift, List.takeWhile_append_of_pos hws', List.dropWhile_append_of_pos hws',
    htake, hdrop, List.append_nil]

/-- The yard over a term that follows only additive operators: those keep waiting, and what is put
out, with the term's own waiting operators, is the term in postorder. -/
theorem IsTerm.foldl_shift {ts : List (Token α)} {t : Tree α} (h : IsTerm ts t)
    (out : List (Token α)) {w : List Operator} (hw : ∀ p ∈ w, p.Additive) :
    ∃ put ws, ts.foldl Yard.shift ⟨out, w⟩ = ⟨out ++ put, ws ++ w⟩ ∧
      put ++ ws.map .op = t.postorder ∧ ∀ p ∈ ws, p.Multiplicative := by
  induction h with
  | operand x => exact ⟨[.number x], [], rfl, rfl, by simp⟩
  | @extend ts t _ o ho x ih =>
    obtain ⟨put, ws, hfold, hput, hws⟩ := ih
    have hle : ∀ p ∈ ws, o.precedence ≤ p.precedence := by
      intro p hp
      have := ho.precedence; have := (hws p hp).precedence; omega
    have hlt : ∀ p ∈ w, p.precedence < o.precedence := by
      intro p hp
      have := ho.precedence; have := (hw p hp).precedence; omega
    -- The term so far is released, so only the operator before `x` waits.
    refine ⟨t.postorder ++ [.number x], [o], ?_, by simp [Tree.postorder], by simpa using ho⟩
    rw [List.foldl_append, hfold, List.foldl_cons, Yard.shift_op _ hle hlt, ← hput]
    simp [Yard.shift]

/-- An additive operator releases everything: the expression before it is out in postorder. -/
theorem shift_additive {o : Operator} (ho : o.Additive) {out : List (Token α)}
    {ws : List Operator} {e : Tree α} (he : out ++ ws.map .op = e.postorder) :
    Yard.shift ⟨out, ws⟩ (.op o) = ⟨e.postorder, [o]⟩ := by
  have hle : ∀ p ∈ ws, o.precedence ≤ p.precedence := by
    intro p _
    rw [ho.precedence]
    exact p.one_le_precedence
  rw [← he, ← List.append_nil ws, Yard.shift_op out hle (by simp), List.append_nil]

theorem IsExpression.foldl_shift {ts : List (Token α)} {e : Tree α} (h : IsExpression ts e) :
    ∃ out ws, ts.foldl Yard.shift Yard.empty = ⟨out, ws⟩ ∧ out ++ ws.map .op = e.postorder := by
  induction h with
  | term ht =>
    obtain ⟨put, ws, hfold, hput, -⟩ := ht.foldl_shift [] (w := []) (by simp)
    exact ⟨put, ws, by simpa [Yard.empty] using hfold, hput⟩
  | @extend ts us e t _ o ho ht ih =>
    obtain ⟨out, ws, hfold, hout⟩ := ih
    obtain ⟨put, vs, hterm, hput, -⟩ := ht.foldl_shift e.postorder (w := [o]) (by simpa using ho)
    refine ⟨e.postorder ++ put, vs ++ [o], ?_, ?_⟩
    · rw [List.foldl_append, hfold, List.foldl_cons, shift_additive ho hout, hterm]
    · simp [Tree.postorder, ← hput]

/-- **Postfix order is the postorder of the tree** that the grammar builds. -/
theorem toPostfix_of_isExpression {ts : List (Token α)} {t : Tree α} (h : IsExpression ts t) :
    toPostfix ts = t.postorder := by
  obtain ⟨out, ws, hfold, hout⟩ := h.foldl_shift
  rw [toPostfix, hfold, Yard.flush, hout]

/-! ## One tree for each chain -/

/-- The last token of a postorder says which kind of tree it is, and the rest can be cut in one
way only. -/
theorem append_postorder_inj {t u : Tree α} (xs ys : List (Token α))
    (h : xs ++ t.postorder = ys ++ u.postorder) : xs = ys ∧ t = u := by
  -- What is in front grows by the left part, so it has to be general in the induction.
  induction t generalizing u xs ys with
  | leaf x =>
    cases u with
    | leaf y =>
      obtain ⟨rfl, hxy⟩ := List.append_inj' h rfl
      exact ⟨rfl, by simpa [Tree.postorder] using hxy⟩
    | node l o r =>
      simp only [Tree.postorder, ← List.append_assoc] at h
      have := (List.append_inj' h rfl).2
      simp at this
  | node l o r ihl ihr =>
    cases u with
    | leaf y =>
      simp only [Tree.postorder, ← List.append_assoc] at h
      have := (List.append_inj' h rfl).2
      simp at this
    | node l' o' r' =>
      simp only [Tree.postorder, ← List.append_assoc] at h
      obtain ⟨hlr, ho⟩ := List.append_inj' h rfl
      obtain ⟨hl, rfl⟩ := ihr _ _ hlr
      obtain ⟨rfl, rfl⟩ := ihl _ _ hl
      exact ⟨rfl, by simpa using ho⟩

theorem postorder_injective {t u : Tree α} (h : t.postorder = u.postorder) : t = u :=
  (append_postorder_inj [] [] h).2

theorem IsExpression.unique {ts : List (Token α)} {t u : Tree α} (ht : IsExpression ts t)
    (hu : IsExpression ts u) : t = u :=
  postorder_injective (by rw [← toPostfix_of_isExpression ht, toPostfix_of_isExpression hu])

theorem IsExpression.chain_eq {c : Chain α} {t : Tree α} (h : IsExpression c.tokens t) :
    t.chain = c := by
  rw [h.unique c.isExpression_tree, c.chain_tree]

end PocketCalc
