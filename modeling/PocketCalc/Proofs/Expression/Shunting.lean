import Mathlib.Logic.Function.Iterate
import PocketCalc.Proofs.Expression.Grammar

/-!
# Through the yard move by move

`Yard.shift` takes a whole token at a time, and with it an operator may release several others. Here
the same way is gone move by move: a token comes in, or one waiting operator goes out (`move`). The
moves pass through every state between two tokens (`leads_shift`) and end with the postfix order
(`start_leads`).

What every move keeps is `InOrder`. The waiting operators bind the more tightly the later they came,
so an operator or a number overtakes only operators of another precedence than its own
(`tokens_move`). This is why nothing is lost and tokens of one kind never change places:
`toPostfix_stable`.
-/

namespace PocketCalc

variable {α : Type}

/-! ## Tokens of one precedence -/

/-- How tightly an operator binds. Numbers have no precedence. -/
def Token.precedence? : Token α → Option Nat
  | .number _ => none
  | .op o => some o.precedence

/-- The operators of a precedence, in order, or for `none` the numbers. -/
def ofPrecedence (k : Option Nat) (ts : List (Token α)) : List (Token α) :=
  ts.filter fun tok => tok.precedence? = k

theorem ofPrecedence_append (k : Option Nat) (ts us : List (Token α)) :
    ofPrecedence k (ts ++ us) = ofPrecedence k ts ++ ofPrecedence k us :=
  List.filter_append ts us

/-- A token may overtake tokens of other precedences. -/
theorem ofPrecedence_overtake {tok : Token α} {us : List (Token α)}
    (h : ∀ u ∈ us, u.precedence? ≠ tok.precedence?) (k : Option Nat) :
    ofPrecedence k (tok :: us) = ofPrecedence k (us ++ [tok]) := by
  rw [← List.singleton_append, ofPrecedence_append, ofPrecedence_append]
  by_cases hk : tok.precedence? = k
  · have hus : ofPrecedence k us = [] := by
      simpa [ofPrecedence, ← hk] using h
    rw [hus, List.append_nil, List.nil_append]
  · have htok : ofPrecedence k [tok] = [] := by
      simp [ofPrecedence, hk]
    rw [htok, List.append_nil, List.nil_append]

/-! ## The moves -/

/-- A yard and the tokens still to come. -/
structure Shunting (α : Type) where
  yard : Yard α
  coming : List (Token α)

namespace Shunting

def start (ts : List (Token α)) : Shunting α :=
  ⟨.empty, ts⟩

/-- The state in which the given tokens have been put out and nothing is left to do. -/
def finish (ts : List (Token α)) : Shunting α :=
  ⟨⟨ts, []⟩, []⟩

/-- One move. An operator that comes next waits as soon as the latest waiting one does not bind as
tightly; once nothing comes any more, the waiting operators go out. -/
def move : Shunting α → Shunting α
  | ⟨⟨out, waiting⟩, .number x :: rest⟩ => ⟨⟨out ++ [.number x], waiting⟩, rest⟩
  | ⟨⟨out, p :: waiting⟩, .op o :: rest⟩ =>
    if p.precedence < o.precedence then ⟨⟨out, o :: p :: waiting⟩, rest⟩
    else ⟨⟨out ++ [.op p], waiting⟩, .op o :: rest⟩
  | ⟨⟨out, []⟩, .op o :: rest⟩ => ⟨⟨out, [o]⟩, rest⟩
  | ⟨⟨out, p :: waiting⟩, []⟩ => ⟨⟨out ++ [.op p], waiting⟩, []⟩
  | ⟨⟨out, []⟩, []⟩ => ⟨⟨out, []⟩, []⟩

/-- All tokens: those put out, the waiting operators, the latest first, and those to come. -/
def tokens (s : Shunting α) : List (Token α) :=
  s.yard.flush ++ s.coming

@[simp] theorem tokens_finish (ts : List (Token α)) : (finish ts).tokens = ts := by
  simp [tokens, finish, Yard.flush]

/-! ## The moves lead to the postfix order -/

/-- Some number of moves leads from one state to the other. -/
def Leads (s t : Shunting α) : Prop :=
  ∃ n, move^[n] s = t

theorem Leads.trans {s t u : Shunting α} (hst : s.Leads t) (htu : t.Leads u) : s.Leads u := by
  obtain ⟨m, rfl⟩ := hst
  obtain ⟨n, rfl⟩ := htu
  exact ⟨n + m, Function.iterate_add_apply move n m s⟩

theorem leads_move (s : Shunting α) : s.Leads s.move :=
  ⟨1, rfl⟩

/-- **The moves for one token** do what the yard does with it. -/
theorem leads_shift (y : Yard α) (tok : Token α) (rest : List (Token α)) :
    Leads ⟨y, tok :: rest⟩ ⟨y.shift tok, rest⟩ := by
  cases tok with
  | number x => exact leads_move _
  | op o =>
    obtain ⟨out, waiting⟩ := y
    -- One move for each operator that is released, and a last one for `o` itself.
    induction waiting generalizing out with
    | nil => simpa [move, Yard.shift] using leads_move ⟨⟨out, []⟩, .op o :: rest⟩
    | cons p waiting ih =>
      have hmove := leads_move ⟨⟨out, p :: waiting⟩, .op o :: rest⟩
      by_cases hp : p.precedence < o.precedence
      · have hle : ¬ o.precedence ≤ p.precedence := by omega
        simpa [move, Yard.shift, hp, hle] using hmove
      · have hle : o.precedence ≤ p.precedence := by omega
        have hshift : Yard.shift ⟨out, p :: waiting⟩ (.op o) =
            Yard.shift ⟨out ++ [.op p], waiting⟩ (.op o) := by
          simp [Yard.shift, hle]
        rw [move, if_neg hp] at hmove
        exact hshift ▸ hmove.trans (ih (out ++ [.op p]))

theorem leads_foldl_shift (y : Yard α) (ts rest : List (Token α)) :
    Leads ⟨y, ts ++ rest⟩ ⟨ts.foldl Yard.shift y, rest⟩ := by
  induction ts generalizing y with
  | nil => exact ⟨0, rfl⟩
  | cons tok ts ih => exact (leads_shift y tok (ts ++ rest)).trans (ih (y.shift tok))

theorem leads_flush (y : Yard α) : Leads ⟨y, []⟩ (finish y.flush) := by
  obtain ⟨out, waiting⟩ := y
  induction waiting generalizing out with
  | nil => exact ⟨0, by simp [finish, Yard.flush]⟩
  | cons p waiting ih =>
    have hflush : Yard.flush ⟨out, p :: waiting⟩ = Yard.flush ⟨out ++ [.op p], waiting⟩ := by
      simp [Yard.flush]
    exact hflush ▸ (leads_move _).trans (ih (out ++ [.op p]))

/-- **The moves end with the postfix order.** -/
theorem start_leads (ts : List (Token α)) : (start ts).Leads (finish (toPostfix ts)) := by
  have hread := leads_foldl_shift Yard.empty ts []
  rw [List.append_nil] at hread
  exact hread.trans (leads_flush _)

/-! ## What a move keeps -/

/-- The waiting operators bind the more tightly the later they came. -/
def Ascending (s : Shunting α) : Prop :=
  s.yard.waiting.Pairwise fun p q => q.precedence < p.precedence

/-- An operator that binds more tightly than the latest waiting one does so than all of them. -/
theorem precedence_lt_of_pairwise {o p : Operator} {waiting : List Operator}
    (h : (p :: waiting).Pairwise fun p q => q.precedence < p.precedence)
    (hp : p.precedence < o.precedence) : ∀ q ∈ p :: waiting, q.precedence < o.precedence := by
  intro q hq
  rcases List.mem_cons.1 hq with rfl | hq
  · exact hp
  · exact Nat.lt_trans (List.rel_of_pairwise_cons h hq) hp

theorem Ascending.move {s : Shunting α} (h : s.Ascending) : s.move.Ascending := by
  obtain ⟨⟨out, waiting⟩, coming⟩ := s
  match coming, waiting with
  | .number x :: rest, waiting => exact h
  | .op o :: rest, [] => exact List.pairwise_singleton _ o
  | .op o :: rest, p :: waiting =>
    by_cases hp : p.precedence < o.precedence
    · rw [Shunting.move, if_pos hp]
      exact List.Pairwise.cons (precedence_lt_of_pairwise h hp) h
    · rw [Shunting.move, if_neg hp]
      exact List.Pairwise.of_cons h
  | [], [] => exact h
  | [], p :: waiting => exact List.Pairwise.of_cons h

/-- **What a move does to the tokens**: it leaves them as they are, or one of them overtakes
operators of other precedences. -/
theorem tokens_move {s : Shunting α} (h : s.Ascending) :
    s.move.tokens = s.tokens ∨ ∃ front us tok rest,
      (∀ u ∈ us, u.precedence? ≠ tok.precedence?) ∧
        s.tokens = front ++ ((us ++ [tok]) ++ rest) ∧
        s.move.tokens = front ++ (tok :: us ++ rest) := by
  obtain ⟨⟨out, waiting⟩, coming⟩ := s
  -- A number overtakes all waiting operators, an operator those that bind less tightly.
  match coming, waiting with
  | .number x :: rest, waiting =>
    refine .inr ⟨out, waiting.map .op, .number x, rest, ?_, ?_, ?_⟩
    · simp [Token.precedence?]
    · simp [tokens, Yard.flush]
    · simp [Shunting.move, tokens, Yard.flush]
  | .op o :: rest, [] => exact .inl (by simp [Shunting.move, tokens, Yard.flush])
  | .op o :: rest, p :: waiting =>
    by_cases hp : p.precedence < o.precedence
    · refine .inr ⟨out, (p :: waiting).map .op, .op o, rest, ?_, ?_, ?_⟩
      · intro u hu
        obtain ⟨q, hq, rfl⟩ := List.mem_map.1 hu
        have hlt := precedence_lt_of_pairwise h hp q hq
        simp only [Token.precedence?, ne_eq, Option.some.injEq]
        omega
      · simp [tokens, Yard.flush]
      · simp [Shunting.move, tokens, Yard.flush, hp]
    · exact .inl (by simp [Shunting.move, tokens, Yard.flush, hp])
  | [], [] => exact .inl rfl
  | [], p :: waiting => exact .inl (by simp [Shunting.move, tokens, Yard.flush])

/-- The state after some moves, beside the tokens at the start. -/
structure InOrder (ts : List (Token α)) (s : Shunting α) : Prop where
  ascending : s.Ascending
  /-- No token is lost and none is added. -/
  perm : s.tokens.Perm ts
  /-- Tokens of one kind are in the order in which they came. -/
  order : ∀ k, ofPrecedence k s.tokens = ofPrecedence k ts

variable {ts : List (Token α)} {s : Shunting α}

theorem inOrder_start (ts : List (Token α)) : InOrder ts (start ts) :=
  ⟨List.Pairwise.nil, .rfl, fun _ => rfl⟩

theorem InOrder.move (h : InOrder ts s) : InOrder ts s.move := by
  have hascending := h.ascending.move
  rcases tokens_move h.ascending with hsame | ⟨front, us, tok, rest, hother, htokens, hmove⟩
  · exact ⟨hascending, hsame ▸ h.perm, hsame ▸ h.order⟩
  · refine ⟨hascending, ?_, fun k => ?_⟩
    · have hperm : (tok :: us).Perm (us ++ [tok]) := (List.perm_append_singleton tok us).symm
      rw [hmove]
      exact ((hperm.append_right rest).append_left front).trans (htokens ▸ h.perm)
    · rw [hmove, ← h.order k, htokens]
      simp only [ofPrecedence_append k front, ofPrecedence_append k _ rest,
        ofPrecedence_overtake hother k]

theorem InOrder.iterate_move (h : InOrder ts s) (n : Nat) : InOrder ts (Shunting.move^[n] s) := by
  induction n with
  | zero => exact h
  | succ n ih =>
    rw [Function.iterate_succ_apply']
    exact ih.move

theorem inOrder_finish (ts : List (Token α)) : InOrder ts (finish (toPostfix ts)) := by
  obtain ⟨n, hn⟩ := start_leads ts
  exact hn ▸ (inOrder_start ts).iterate_move n

/-- There are two precedences, so at most two operators wait. -/
theorem Ascending.length_le_two (h : s.Ascending) : s.yard.waiting.length ≤ 2 := by
  match hw : s.yard.waiting with
  | [] | [_] | [_, _] => simp
  | p :: q :: r :: waiting =>
    rw [Ascending, hw] at h
    have hqp : q.precedence < p.precedence := List.rel_of_pairwise_cons h (by simp)
    have hrq : r.precedence < q.precedence := List.rel_of_pairwise_cons h.of_cons (by simp)
    have hr := r.one_le_precedence
    have hp := p.precedence_le_two
    omega

end Shunting

/-- **Postfix order loses nothing and adds nothing.** -/
theorem toPostfix_perm (ts : List (Token α)) : (toPostfix ts).Perm ts := by
  simpa using (Shunting.inOrder_finish ts).perm

/-- **Tokens of one kind never change places.** -/
theorem ofPrecedence_toPostfix (ts : List (Token α)) (k : Option Nat) :
    ofPrecedence k (toPostfix ts) = ofPrecedence k ts := by
  simpa using (Shunting.inOrder_finish ts).order k

/-- **Postfix order is stable.** Before and after every move the waiting operators bind the more
tightly the later they came, so that at most two wait; no token is lost or added, and numbers and
operators of equal precedence are in the order in which they came. The moves pass through the yard
after each token and end with the postfix order, of which the same holds. -/
theorem toPostfix_stable (ts : List (Token α)) :
    (∀ n, let s := Shunting.move^[n] (.start ts)
      s.yard.waiting.reverse.Pairwise (fun p q => p.precedence < q.precedence) ∧
        s.yard.waiting.length ≤ 2 ∧ s.tokens.Perm ts ∧
        ∀ k, ofPrecedence k s.tokens = ofPrecedence k ts) ∧
    (∀ i, ∃ n, Shunting.move^[n] (.start ts) =
      ⟨(ts.take i).foldl Yard.shift Yard.empty, ts.drop i⟩) ∧
    (∃ n, Shunting.move^[n] (.start ts) = .finish (toPostfix ts)) ∧
    (toPostfix ts).Perm ts ∧ ∀ k, ofPrecedence k (toPostfix ts) = ofPrecedence k ts := by
  refine ⟨fun n => ?_, fun i => ?_, Shunting.start_leads ts, toPostfix_perm ts,
    ofPrecedence_toPostfix ts⟩
  · have h := (Shunting.inOrder_start ts).iterate_move n
    exact ⟨List.pairwise_reverse.2 h.ascending, h.ascending.length_le_two, h.perm, h.order⟩
  · have htake := Shunting.leads_foldl_shift Yard.empty (ts.take i) (ts.drop i)
    rwa [List.take_append_drop] at htake

/-- `8 - 3 * 2 - 1`: two operators wait once the product begins. -/
example : (Shunting.move^[4] (.start [.number 8, .op .sub, .number 3, .op .mul, .number 2,
    .op .sub, .number 1])).yard.waiting = [Operator.mul, .sub] := rfl

end PocketCalc
