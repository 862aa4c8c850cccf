/-
The states that an evaluation gets into, and where it stops. `Takes` and `StopsAt` say all that one
token can do; `Scan.evaluate_cases` says where a whole evaluation can end: at a token that cannot be
taken in, at an error of the text, or at the end of the line.

In every state that is reached, the tokens so far are the beginning of a line (`Reaches.reads`),
and each operation that is owed was read off one of them (`Reaches.owed`).
-/
import LineCalc.Proofs.Beginning
import LineCalc.Proofs.Evaluation

namespace LineCalc

theorem bind_eq_ok {ε α β : Type} {x : Except ε α} {f : α → Except ε β} {b : β} :
    (x >>= f) = .ok b ↔ ∃ a, x = .ok a ∧ f a = .ok b := by
  cases x <;> simp

theorem bind_eq_error {ε α β : Type} {x : Except ε α} {f : α → Except ε β} {e : ε} :
    (x >>= f) = .error e ↔ x = .error e ∨ ∃ a, x = .ok a ∧ f a = .error e := by
  cases x <;> simp

namespace State

/-! ## One token -/

/-- Each way to take in a token. -/
inductive Takes : State → Placed → State → Prop
  | integer {level : Level} {outer : List Level} {value : Word} {position : Nat} :
    Takes (needOperand level outer) ⟨.integer value, position⟩ (haveOperand value level outer)
  | lparen {level : Level} {outer : List Level} {position : Nat} (room : outer.length < maxNesting) :
    Takes (needOperand level outer) ⟨.lparen, position⟩ (needOperand .empty (level :: outer))
  | multiplicative {value product : Word} {level : Level} {outer : List Level} {t : Placed}
      {op : Operator} (hop : Operator.ofToken? t.token = some op) (hmul : op.isMultiplicative)
      (hproduct : settle level.product value = .ok product) :
    Takes (haveOperand value level outer) t
      (needOperand ⟨level.sum, some ⟨product, op, t.position⟩⟩ outer)
  | additive {value product sum : Word} {level : Level} {outer : List Level} {t : Placed}
      {op : Operator} (hop : Operator.ofToken? t.token = some op) (hadd : op.isAdditive)
      (hproduct : settle level.product value = .ok product)
      (hsum : settle level.sum product = .ok sum) :
    Takes (haveOperand value level outer) t (needOperand ⟨some ⟨sum, op, t.position⟩, none⟩ outer)
  | rparen {value product sum : Word} {level next : Level} {outer : List Level} {position : Nat}
      (hproduct : settle level.product value = .ok product)
      (hsum : settle level.sum product = .ok sum) :
    Takes (haveOperand value level (next :: outer)) ⟨.rparen, position⟩ (haveOperand sum next outer)

/-- Each way to stop at a token. -/
inductive StopsAt : State → Placed → EvalError → Prop
  | noOperand {level : Level} {outer : List Level} {t : Placed}
      (hinteger : t.token.kind ≠ .integer) (hlparen : t.token.kind ≠ .lparen) :
    StopsAt (needOperand level outer) t (unexpected .integer t)
  | tooDeep {level : Level} {outer : List Level} {position : Nat} (full : maxNesting ≤ outer.length) :
    StopsAt (needOperand level outer) ⟨.lparen, position⟩
      (.grammatical (.nestingTooDeep maxNesting position))
  | product {value : Word} {level : Level} {outer : List Level} {t : Placed} {error : EvalError}
      (hproduct : settle level.product value = .error error) :
    StopsAt (haveOperand value level outer) t error
  | sum {value product : Word} {level : Level} {outer : List Level} {t : Placed} {error : EvalError}
      (hloose : ∀ op, Operator.ofToken? t.token = some op → op.isAdditive)
      (hproduct : settle level.product value = .ok product)
      (hsum : settle level.sum product = .error error) :
    StopsAt (haveOperand value level outer) t error
  | noCloser {value product sum : Word} {level : Level} {outer : List Level} {t : Placed}
      (hop : Operator.ofToken? t.token = none) (hcloser : t.token = .rparen → outer = [])
      (hproduct : settle level.product value = .ok product)
      (hsum : settle level.sum product = .ok sum) :
    StopsAt (haveOperand value level outer) t (unexpected (closer outer) t)

theorem takes_of_step {state next : State} {t : Placed} (h : state.step t = .ok next) :
    Takes state t next := by
  obtain ⟨token, position⟩ := t
  cases state with
  | needOperand level outer =>
    cases token with
    | integer value => cases h; exact .integer
    | lparen =>
      simp only [step] at h
      split at h
      · cases h; exact .lparen ‹_›
      · cases h
    | _ => cases h
  | haveOperand value level outer =>
    obtain ⟨product, hproduct, h₁⟩ := bind_eq_ok.mp h
    split at h₁
    next op hop =>
      split at h₁
      next hmul => cases h₁; exact .multiplicative hop hmul hproduct
      next hmul =>
        obtain ⟨sum, hsum, h₂⟩ := bind_eq_ok.mp h₁
        cases h₂
        exact .additive hop (Operator.isAdditive_iff.mpr hmul) hproduct hsum
    next hop =>
      obtain ⟨sum, hsum, h₂⟩ := bind_eq_ok.mp h₁
      split at h₂
      next next outer htoken =>
        obtain rfl : token = .rparen := htoken
        cases h₂
        exact .rparen hproduct hsum
      next => cases h₂

theorem Takes.step_eq {state next : State} {t : Placed} (h : Takes state t next) :
    state.step t = .ok next := by
  cases h with
  | integer => rfl
  | lparen room => simp [step, room]
  | multiplicative hop hmul hproduct => simp [step, hop, hmul, hproduct, pure, Except.pure]
  | additive hop hadd hproduct hsum =>
    simp [step, hop, Operator.isMultiplicative_of_isAdditive hadd, hproduct, hsum, pure, Except.pure]
  | rparen hproduct hsum => simp [step, Operator.ofToken?, hproduct, hsum, pure, Except.pure]

theorem stopsAt_of_step {state : State} {t : Placed} {error : EvalError}
    (h : state.step t = .error error) : StopsAt state t error := by
  obtain ⟨token, position⟩ := t
  cases state with
  | needOperand level outer =>
    cases token with
    | integer value => cases h
    | lparen =>
      simp only [step] at h
      split at h
      · cases h
      · cases h; exact .tooDeep (Nat.le_of_not_lt ‹_›)
    | _ => cases h; exact .noOperand (by simp [Token.kind]) (by simp [Token.kind])
  | haveOperand value level outer =>
    rcases bind_eq_error.mp h with hproduct | ⟨product, hproduct, h₁⟩
    · exact .product hproduct
    split at h₁
    next op hop =>
      split at h₁
      next => cases h₁
      next hmul =>
        rcases bind_eq_error.mp h₁ with hsum | ⟨sum, hsum, h₂⟩
        · refine .sum (fun op' hop' => ?_) hproduct hsum
          obtain rfl := Option.some.inj (hop.symm.trans hop')
          exact Operator.isAdditive_iff.mpr hmul
        · cases h₂
    next hop =>
      rcases bind_eq_error.mp h₁ with hsum | ⟨sum, hsum, h₂⟩
      · exact .sum (fun op' hop' => by rw [hop] at hop'; cases hop') hproduct hsum
      split at h₂
      next => cases h₂
      next hcloser =>
        cases h₂
        refine .noCloser hop (fun ht => ?_) hproduct hsum
        by_contra hne
        obtain ⟨next, rest, heq⟩ := List.exists_cons_of_ne_nil hne
        exact hcloser next rest ht heq

/-! ## The end of the line -/

theorem finish_eq_ok {state : State} {position : Nat} {result : Word}
    (h : state.finish position = .ok result) :
    ∃ value level product, state = haveOperand value level [] ∧
      settle level.product value = .ok product ∧ settle level.sum product = .ok result := by
  cases state with
  | needOperand level outer => cases h
  | haveOperand value level outer =>
    obtain ⟨product, hproduct, h₁⟩ := bind_eq_ok.mp h
    obtain ⟨sum, hsum, h₂⟩ := bind_eq_ok.mp h₁
    cases outer with
    | nil => cases h₂; exact ⟨value, level, product, rfl, hproduct, hsum⟩
    | cons next outer => cases h₂

/-- A line that may not end here stops at its end as at any other token. -/
theorem step_of_finish {state : State} {position : Nat} {error : EvalError}
    (h : state.finish position = .error error) : state.step ⟨.endOfInput, position⟩ = .error error := by
  cases state with
  | needOperand level outer => cases h; rfl
  | haveOperand value level outer =>
    rcases bind_eq_error.mp h with hproduct | ⟨product, hproduct, h₁⟩
    · exact bind_eq_error.mpr (.inl hproduct)
    refine bind_eq_error.mpr (.inr ⟨product, hproduct, ?_⟩)
    rcases bind_eq_error.mp h₁ with hsum | ⟨sum, hsum, h₂⟩
    · exact bind_eq_error.mpr (.inl hsum)
    refine bind_eq_error.mpr (.inr ⟨sum, hsum, ?_⟩)
    cases outer with
    | nil => cases h₂
    | cons next outer => cases h₂; rfl

/-! ## All tokens -/

/-- Taking in these tokens, from the start of a line, leads to this state. -/
inductive Reaches : List Placed → State → Prop
  | start : Reaches [] initial
  | step {tokens : List Placed} {t : Placed} {state next : State} :
    Reaches tokens state → state.step t = .ok next → Reaches (tokens ++ [t]) next

theorem Reaches.foldlM_eq {tokens : List Placed} {state : State} (h : Reaches tokens state)
    (rest : List Placed) :
    (tokens ++ rest).foldlM State.step initial = rest.foldlM State.step state := by
  induction h generalizing rest with
  | start => rfl
  | step _ hstep ih =>
    rw [List.append_assoc, ih, List.singleton_append, List.foldlM_cons, hstep]
    rfl

/-- From a state that is reached, the rest of the tokens either lead on, or one of them is the
first that cannot be taken in. -/
theorem Reaches.foldlM_cases {tokens : List Placed} {state : State} (h : Reaches tokens state)
    (rest : List Placed) :
    (∃ last, Reaches (tokens ++ rest) last ∧ rest.foldlM State.step state = .ok last) ∨
      ∃ before t after middle error, rest = before ++ t :: after ∧
        Reaches (tokens ++ before) middle ∧ middle.step t = .error error ∧
        rest.foldlM State.step state = .error error := by
  induction rest generalizing tokens state with
  | nil => exact .inl ⟨state, by simpa using h, rfl⟩
  | cons t rest ih =>
    rw [List.foldlM_cons]
    cases hstep : state.step t with
    | error error => exact .inr ⟨[], t, rest, state, error, rfl, by simpa using h, hstep, rfl⟩
    | ok next =>
      rw [ok_bind]
      rcases ih (h.step hstep) with ⟨last, hlast, hfold⟩ | ⟨before, t', after, middle, error, rfl, hm, he⟩
      · exact .inl ⟨last, by simpa using hlast, hfold⟩
      · exact .inr ⟨t :: before, t', after, middle, error, rfl, by simpa using hm, he⟩

end State

/-- Where an evaluation can end: at a token that cannot be taken in, or else behind all of them, with
an error of the text or with what the state makes of the end of the line. -/
theorem Scan.evaluate_cases (scan : Scan) :
    (∃ before t after state error, scan.tokens = before ++ t :: after ∧ State.Reaches before state ∧
      state.step t = .error error ∧ scan.evaluate = .error error) ∨
    ∃ state, State.Reaches scan.tokens state ∧
      scan.evaluate = scan.ending.mapError .lexical >>= state.finish := by
  rcases State.Reaches.start.foldlM_cases scan.tokens with
    ⟨state, hreach, hfold⟩ | ⟨before, t, after, state, error, htokens, hreach, hstep, hfold⟩
  · refine .inr ⟨state, hreach, ?_⟩
    rw [evaluate, State.run, hfold]
    rfl
  · refine .inl ⟨before, t, after, state, error, htokens, hreach, hstep, ?_⟩
    rw [evaluate, State.run, hfold]
    rfl

namespace State

/-! ## What has been read -/

/-- What the tokens so far are, as the beginning of a line. -/
def Reads : State → List Token → Prop
  | needOperand _ outer, tokens => Awaits outer.length tokens
  | haveOperand _ _ outer, tokens => Holds outer.length tokens

theorem Takes.reads {state next : State} {t : Placed} {tokens : List Token} (h : Takes state t next)
    (hr : state.Reads tokens) : next.Reads (tokens ++ [t.token]) := by
  cases h with
  | integer => exact ⟨tokens, _, rfl, hr, .integer⟩
  | lparen room => exact .lparen hr room
  | multiplicative hop _ _ =>
    obtain ⟨before, factor, rfl, hbefore, hfactor⟩ := hr
    exact .operator hbefore hfactor hop
  | additive hop _ _ _ =>
    obtain ⟨before, factor, rfl, hbefore, hfactor⟩ := hr
    exact .operator hbefore hfactor hop
  | rparen _ _ => exact hr.rparen

/-- **Whatever has been taken in is the beginning of a line.** -/
theorem Reaches.reads {tokens : List Placed} {state : State} (h : Reaches tokens state) :
    state.Reads (tokens.map (·.token)) := by
  induction h with
  | start => exact .start
  | step _ hstep ih =>
    rw [List.map_append]
    exact (takes_of_step hstep).reads ih

theorem Reaches.exists_derives {tokens : List Placed} {state : State} (h : Reaches tokens state) :
    ∃ whole, Derives .expr maxNesting whole ∧ tokens.map (·.token) <+: whole := by
  have hread := h.reads
  cases state with
  | needOperand level outer =>
    have hzero : Derives .expr (maxNesting - outer.length) [.integer 0] :=
      Derives.integer.of_factor.of_term
    refine ⟨_, hread.derives hzero, ?_⟩
    rw [List.append_assoc]
    exact List.prefix_append ..
  | haveOperand value level outer => exact ⟨_, hread.derives, List.prefix_append ..⟩

end State

/-! ## What is owed -/

theorem Operator.position_of_apply {op : Operator} {left right : Word} {position : Nat}
    {error : ArithmeticError} (h : op.apply left right position = .error error) :
    error.position = position := by
  unfold apply at h
  split at h
  · cases h; rfl
  · split at h
    · cases h; rfl
    · cases h

/-- An operation that cannot be carried out fails at its own operator. -/
theorem settle_eq_error {pending : Option Pending} {right : Word} {error : EvalError}
    (h : settle pending right = .error error) :
    ∃ p ∈ pending, ∃ fault, error = .arithmetic fault ∧ fault.position = p.position := by
  cases pending with
  | none => cases h
  | some p =>
    rw [settle] at h
    cases happly : p.operator.apply p.left right p.position with
    | ok word =>
      rw [happly] at h
      cases h
    | error fault =>
      rw [happly] at h
      cases h
      exact ⟨p, rfl, fault, rfl, Operator.position_of_apply happly⟩

/-- The operation was read off one of these tokens. -/
def Pending.ReadFrom (tokens : List Placed) (p : Pending) : Prop :=
  ∃ t ∈ tokens, Operator.ofToken? t.token = some p.operator ∧ t.position = p.position

/-- What is owed at a level was read off these tokens, each kind of operation in its place. -/
structure Level.Owed (tokens : List Placed) (level : Level) : Prop where
  sum : ∀ p ∈ level.sum, p.operator.isAdditive ∧ p.ReadFrom tokens
  product : ∀ p ∈ level.product, p.operator.isMultiplicative ∧ p.ReadFrom tokens

theorem Level.owed_empty (tokens : List Placed) : Level.empty.Owed tokens :=
  ⟨by simp [Level.empty], by simp [Level.empty]⟩

theorem Pending.ReadFrom.append {tokens : List Placed} {p : Pending} (h : p.ReadFrom tokens)
    (more : List Placed) : p.ReadFrom (tokens ++ more) := by
  obtain ⟨t, ht, hread⟩ := h
  exact ⟨t, by simp [ht], hread⟩

theorem Level.Owed.append {tokens : List Placed} {level : Level} (h : level.Owed tokens)
    (more : List Placed) : level.Owed (tokens ++ more) :=
  ⟨fun p hp => ⟨(h.sum p hp).1, (h.sum p hp).2.append more⟩,
    fun p hp => ⟨(h.product p hp).1, (h.product p hp).2.append more⟩⟩

namespace State

/-- What is owed at all levels was read off these tokens. -/
def Owed (tokens : List Placed) : State → Prop
  | needOperand level outer | haveOperand _ level outer => ∀ l ∈ level :: outer, l.Owed tokens

theorem Takes.owed {state next : State} {t : Placed} {tokens : List Placed} (h : Takes state t next)
    (howed : state.Owed tokens) : next.Owed (tokens ++ [t]) := by
  have hlast : ∀ {op left}, Operator.ofToken? t.token = some op →
      (Pending.mk left op t.position).ReadFrom (tokens ++ [t]) := fun hop => ⟨t, by simp, hop, rfl⟩
  cases h with
  | integer => exact fun l hl => (howed l hl).append _
  | lparen room =>
    intro l hl
    rcases List.mem_cons.mp hl with rfl | hl
    · exact Level.owed_empty _
    · exact (howed l hl).append _
  | multiplicative hop hmul _ =>
    intro l hl
    rcases List.mem_cons.mp hl with rfl | hl
    · refine ⟨fun p hp => ((howed _ List.mem_cons_self).append _).sum p hp, fun p hp => ?_⟩
      obtain rfl := Option.some.inj hp
      exact ⟨hmul, hlast hop⟩
    · exact (howed l (by simp [hl])).append _
  | additive hop hadd _ _ =>
    intro l hl
    rcases List.mem_cons.mp hl with rfl | hl
    · refine ⟨fun p hp => ?_, by simp⟩
      obtain rfl := Option.some.inj hp
      exact ⟨hadd, hlast hop⟩
    · exact (howed l (by simp [hl])).append _
  | rparen _ _ => exact fun l hl => (howed l (List.mem_cons_of_mem _ hl)).append _

/-- **Whatever is owed was read off a token that has been taken in.** -/
theorem Reaches.owed {tokens : List Placed} {state : State} (h : Reaches tokens state) :
    state.Owed tokens := by
  induction h with
  | start => simpa [initial, Owed] using Level.owed_empty []
  | step _ hstep ih => exact (takes_of_step hstep).owed ih

end State

/-- The error is about this token, and names it. -/
def GrammarError.IsAt (t : Placed) : GrammarError → Prop
  | unexpectedToken _ found position => found = t.token ∧ position = t.position
  | nestingTooDeep limit position => t.token = .lparen ∧ limit = maxNesting ∧ position = t.position

theorem GrammarError.IsAt.position_eq {t : Placed} {error : GrammarError} (h : error.IsAt t) :
    error.position = t.position := by
  cases error with
  | unexpectedToken expected found position => exact h.2
  | nestingTooDeep limit position => exact h.2.2

/-- An evaluation that stops at a token complains about this token, or about an operation that was
read before it. -/
theorem State.StopsAt.blames {state : State} {t : Placed} {error : EvalError} {tokens : List Placed}
    (h : StopsAt state t error) (howed : state.Owed tokens) :
    (∃ grammar, error = .grammatical grammar ∧ grammar.IsAt t) ∨
      ∃ fault, error = .arithmetic fault ∧ ∃ t' ∈ tokens, t'.position = fault.position := by
  cases h with
  | noOperand _ _ => exact .inl ⟨_, rfl, rfl, rfl⟩
  | tooDeep _ => exact .inl ⟨_, rfl, rfl, rfl, rfl⟩
  | product hproduct =>
    obtain ⟨p, hp, fault, rfl, hposition⟩ := settle_eq_error hproduct
    obtain ⟨-, t', ht', -, hread⟩ := (howed _ List.mem_cons_self).product p hp
    exact .inr ⟨fault, rfl, t', ht', hread.trans hposition.symm⟩
  | sum _ _ hsum =>
    obtain ⟨p, hp, fault, rfl, hposition⟩ := settle_eq_error hsum
    obtain ⟨-, t', ht', -, hread⟩ := (howed _ List.mem_cons_self).sum p hp
    exact .inr ⟨fault, rfl, t', ht', hread.trans hposition.symm⟩
  | noCloser _ _ _ _ => exact .inl ⟨_, rfl, rfl, rfl⟩

end LineCalc
