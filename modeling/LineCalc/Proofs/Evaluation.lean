/-
Evaluation in one pass gives what the tree gives. `Spells.run_eq` is the step from tokens to
trees: where a phrase stands, evaluating it and then the rest of the line is working its tree out
and then evaluating the rest, with the value in the phrase's place. It holds where the token
after the phrase has been read, which an evaluation always does first, and, after an expression,
if that token does not bind tighter than what is owed.
-/
import LineCalc.Evaluator
import LineCalc.Proofs.Derivation
import LineCalc.Proofs.PostOrder
import LineCalc.Proofs.Reading

namespace LineCalc

/-! ## Results in sequence -/

section Results

variable {ε ε' α β : Type}

@[simp] theorem ok_bind (a : α) (f : α → Except ε β) : (Except.ok a >>= f) = f a := rfl

@[simp] theorem error_bind (e : ε) (f : α → Except ε β) : (Except.error e >>= f) = .error e := rfl

@[simp] theorem mapError_ok (g : ε → ε') (a : α) : (Except.ok a).mapError g = .ok a := rfl

@[simp] theorem mapError_error (g : ε → ε') (e : ε) :
    (Except.error e : Except ε α).mapError g = .error (g e) := rfl

end Results

/-! ## Settling what is owed -/

@[simp] theorem settle_none (value : Word) : settle none value = .ok value := rfl

namespace State

theorem run_cons (state : State) (t : Placed) (ts : List Placed) (ending : Except LexError Nat) :
    state.run ⟨t :: ts, ending⟩ = state.step t >>= fun next => next.run ⟨ts, ending⟩ := by
  simp only [run, List.foldlM_cons, bind_assoc]

theorem run_nil (state : State) (ending : Except LexError Nat) :
    state.run ⟨[], ending⟩ = ending.mapError .lexical >>= state.finish := by
  rfl

section Tokens

variable (value : Word) (level : Level) (outer : List Level) (position : Nat) (rest : List Placed)
  (ending : Except LexError Nat)

theorem run_integer (n : Word) :
    (needOperand level outer).run ⟨⟨.integer n, position⟩ :: rest, ending⟩ =
      (haveOperand n level outer).run ⟨rest, ending⟩ := by
  simp [run_cons, step]

theorem run_lparen (h : outer.length < maxNesting) :
    (needOperand level outer).run ⟨⟨.lparen, position⟩ :: rest, ending⟩ =
      (needOperand .empty (level :: outer)).run ⟨rest, ending⟩ := by
  simp [run_cons, step, h]

theorem run_rparen :
    (haveOperand value .empty (level :: outer)).run ⟨⟨.rparen, position⟩ :: rest, ending⟩ =
      (haveOperand value level outer).run ⟨rest, ending⟩ := by
  simp [run_cons, step, Operator.ofToken?, Level.empty]

theorem run_multiplicative {token : Token} {op : Operator}
    (hop : Operator.ofToken? token = some op) (hmul : op.isMultiplicative)
    (hproduct : level.product = none) :
    (haveOperand value level outer).run ⟨⟨token, position⟩ :: rest, ending⟩ =
      (needOperand ⟨level.sum, some ⟨value, op, position⟩⟩ outer).run ⟨rest, ending⟩ := by
  simp [run_cons, step, hop, hmul, hproduct]

theorem run_additive {token : Token} {op : Operator}
    (hop : Operator.ofToken? token = some op) (hadd : op.isAdditive) :
    (haveOperand value .empty outer).run ⟨⟨token, position⟩ :: rest, ending⟩ =
      (needOperand ⟨some ⟨value, op, position⟩, none⟩ outer).run ⟨rest, ending⟩ := by
  simp [run_cons, step, hop, Operator.isMultiplicative_of_isAdditive hadd, Level.empty]

end Tokens

/-- The next token or the end of the line has been read, and is no error. -/
def Followed (rest : List Placed) (ending : Except LexError Nat) : Prop :=
  rest ≠ [] ∨ ∃ position, ending = .ok position

/-- The next token does not bind tighter than a sum. -/
def Loose (rest : List Placed) : Prop :=
  ∀ t ∈ rest.head?, ∀ op, Operator.ofToken? t.token = some op → op.isMultiplicative = false

theorem loose_additive {token : Token} {op : Operator} (hop : Operator.ofToken? token = some op)
    (hadd : op.isAdditive) (position : Nat) (rest : List Placed) :
    Loose (⟨token, position⟩ :: rest) := by
  intro t ht op' hop'
  obtain rfl : _ = t := by simpa using ht
  obtain rfl := Option.some.inj (hop.symm.trans hop')
  exact Operator.isMultiplicative_of_isAdditive hadd

/-- A product that is owed is settled before anything else is done with the next token. -/
theorem run_settle_product (value : Word) (level : Level) (outer : List Level) {rest : List Placed}
    {ending : Except LexError Nat} (h : Followed rest ending) :
    (haveOperand value level outer).run ⟨rest, ending⟩ =
      settle level.product value >>= fun value =>
        (haveOperand value ⟨level.sum, none⟩ outer).run ⟨rest, ending⟩ := by
  cases rest with
  | nil =>
    obtain ⟨position, rfl⟩ := h.resolve_left (by simp)
    cases hs : settle level.product value <;> simp [run_nil, finish, hs]
  | cons t ts =>
    cases hs : settle level.product value <;> simp [run_cons, step, hs]

/-- A sum that is owed is settled next, unless the next token binds tighter. -/
theorem run_settle_sum (value : Word) (sum : Option Pending) (outer : List Level)
    {rest : List Placed} {ending : Except LexError Nat} (h : Followed rest ending)
    (hloose : Loose rest) :
    (haveOperand value ⟨sum, none⟩ outer).run ⟨rest, ending⟩ =
      settle sum value >>= fun value => (haveOperand value .empty outer).run ⟨rest, ending⟩ := by
  cases rest with
  | nil =>
    obtain ⟨position, rfl⟩ := h.resolve_left (by simp)
    cases hs : settle sum value <;> simp [run_nil, finish, hs, Level.empty]
  | cons t ts =>
    cases hop : Operator.ofToken? t.token with
    | none => cases hs : settle sum value <;> simp [run_cons, step, hs, hop, Level.empty]
    | some op =>
      have := hloose t rfl op hop
      cases hs : settle sum value <;> simp [run_cons, step, hs, hop, this, Level.empty]

end State

/-! ## A phrase and its tree -/

/-- What may be owed in front of a phrase of each sort. -/
def Phrase.Fits : Phrase → Level → Prop
  | .expr, level => level = .empty
  | .term, level => level.product = none
  | .factor, _ => True

theorem Phrase.term_fits (sum : Option Pending) : Phrase.term.Fits ⟨sum, none⟩ := rfl

/-- What may stand behind a phrase of each sort. -/
def Phrase.EndsAt : Phrase → List Placed → Prop
  | .expr, rest => State.Loose rest
  | _, _ => True

/-- **Evaluating a phrase is working its tree out.** -/
theorem Spells.run_eq {sort : Phrase} {depth : Nat} {tokens : List Placed} {tree : Tree}
    (h : Spells sort depth tokens tree) {level : Level} {outer : List Level} {rest : List Placed}
    {ending : Except LexError Nat} (hfits : sort.Fits level)
    (hdepth : outer.length + depth ≤ maxNesting) (hfollowed : State.Followed rest ending)
    (hends : sort.EndsAt rest) :
    (State.needOperand level outer).run ⟨tokens ++ rest, ending⟩ =
      tree.word.mapError .arithmetic >>= fun value =>
        (State.haveOperand value level outer).run ⟨rest, ending⟩ := by
  induction h generalizing level outer rest with
  | number => exact State.run_integer ..
  | @group depth first last tokens tree _ ih =>
    have hloose : State.Loose (⟨.rparen, last⟩ :: rest) := by
      simp [State.Loose, Operator.ofToken?]
    have hinner : (level :: outer).length + depth ≤ maxNesting := by
      rw [List.length_cons]
      omega
    rw [List.append_assoc, List.cons_append, State.run_lparen _ _ _ _ _ (by omega),
      List.singleton_append, ih rfl hinner (.inl (by simp)) hloose]
    simp only [State.run_rparen]
  | factor _ ih => exact ih trivial hdepth hfollowed trivial
  | product _ hop hmul _ ihLeft ihRight =>
    obtain ⟨sum, product⟩ := level
    obtain rfl : product = none := hfits
    rw [List.append_assoc, List.cons_append,
      ihLeft (Phrase.term_fits sum) hdepth (.inl (by simp)) trivial, Tree.word]
    cases Tree.word _ with
    | error error => rfl
    | ok a =>
      simp only [mapError_ok, ok_bind]
      rw [State.run_multiplicative _ _ _ _ _ _ hop hmul rfl,
        ihRight trivial hdepth hfollowed trivial]
      cases Tree.word _ with
      | error error => rfl
      | ok b =>
        simp only [mapError_ok, ok_bind]
        rw [State.run_settle_product _ _ _ hfollowed]
        rfl
  | term _ ih =>
    obtain rfl : level = .empty := hfits
    exact ih rfl hdepth hfollowed trivial
  | sum _ hop hadd _ ihLeft ihRight =>
    obtain rfl : level = .empty := hfits
    rw [List.append_assoc, List.cons_append,
      ihLeft rfl hdepth (.inl (by simp)) (State.loose_additive hop hadd _ _), Tree.word]
    cases Tree.word _ with
    | error error => rfl
    | ok a =>
      simp only [mapError_ok, ok_bind]
      rw [State.run_additive _ _ _ _ _ hop hadd, ihRight (Phrase.term_fits _) hdepth hfollowed trivial]
      cases Tree.word _ with
      | error error => rfl
      | ok b =>
        simp only [mapError_ok, ok_bind]
        rw [State.run_settle_sum _ _ _ hfollowed hends]
        rfl

/-- **A line that is a sentence is worth what its tree is worth.** -/
theorem IsSentence.run_eq {tokens : List Placed} {tree : Tree} (h : IsSentence tokens tree)
    (position : Nat) :
    State.initial.run ⟨tokens, .ok position⟩ = tree.word.mapError .arithmetic := by
  have hwhole := @Spells.run_eq _ _ _ _ h .empty [] [] (.ok position) rfl (by simp)
    (.inr ⟨position, rfl⟩) (by simp [Phrase.EndsAt, State.Loose])
  rw [List.append_nil] at hwhole
  rw [State.initial, hwhole]
  cases tree.word <;> simp [State.run_nil, State.finish, Level.empty]

end LineCalc
