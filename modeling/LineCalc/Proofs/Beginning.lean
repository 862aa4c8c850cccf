/-
The beginnings of lines: what may have been read, with some parentheses still open, when an
operand has to come next (`Awaits`) or when one has just been completed (`Holds`).

Every such beginning can be completed: `Awaits.derives` puts an expression and the missing
closing parentheses behind it. That precedence plays no part in this is why a beginning need not
be remembered as a tree, and why one factor in front of an operator is all that has to be known.
-/
import LineCalc.Proofs.Derivation

namespace LineCalc

namespace Derives

variable {depth : Nat} {front rest : List Token} {token : Token} {op : Operator}

theorem multiplicative_term (hfront : Derives .factor depth front)
    (htoken : token = .mul ∨ token = .div) (hrest : Derives .term depth rest) :
    Derives .term depth (front ++ token :: rest) := by
  cases hrest with
  | @term _ first more hfirst hops hfactors =>
    have h := @Derives.term depth front ((token, first) :: more) hfront ?_ ?_
    · simpa using h
    · simp only [List.forall_mem_cons]
      exact ⟨htoken, hops⟩
    · simp only [List.forall_mem_cons]
      exact ⟨hfirst, hfactors⟩

theorem additive_expr (hfront : Derives .term depth front)
    (htoken : token = .plus ∨ token = .minus) (hrest : Derives .expr depth rest) :
    Derives .expr depth (front ++ token :: rest) := by
  cases hrest with
  | @expr _ first more hfirst hops hterms =>
    have h := @Derives.expr depth front ((token, first) :: more) hfront ?_ ?_
    · simpa using h
    · simp only [List.forall_mem_cons]
      exact ⟨htoken, hops⟩
    · simp only [List.forall_mem_cons]
      exact ⟨hfirst, hterms⟩

theorem operator_expr (hfront : Derives .factor depth front)
    (hop : Operator.ofToken? token = some op) (hrest : Derives .expr depth rest) :
    Derives .expr depth (front ++ token :: rest) := by
  by_cases hmul : op.isMultiplicative
  · have htoken := Operator.ofToken?_multiplicative_iff.mp ⟨op, hop, hmul⟩
    cases hrest with
    | expr hfirst hops hterms =>
      -- The operator takes the front into the first term.
      simpa using Derives.expr (hfront.multiplicative_term htoken hfirst) hops hterms
  · have hadd : op.isAdditive := Operator.isAdditive_iff.mpr hmul
    have htoken := Operator.ofToken?_additive_iff.mp ⟨op, hop, hadd⟩
    exact hfront.of_factor.additive_expr htoken hrest

end Derives

/-- After these tokens, with `opened` parentheses open, an operand has to come. -/
inductive Awaits : (opened : Nat) → List Token → Prop
  | start : Awaits 0 []
  | operator {opened : Nat} {before factor : List Token} {token : Token} {op : Operator} :
    Awaits opened before → Derives .factor (maxNesting - opened) factor →
    Operator.ofToken? token = some op → Awaits opened (before ++ factor ++ [token])
  | lparen {opened : Nat} {before : List Token} :
    Awaits opened before → opened < maxNesting → Awaits (opened + 1) (before ++ [.lparen])

/-- After these tokens, with `opened` parentheses open, an operand stands complete. -/
def Holds (opened : Nat) (tokens : List Token) : Prop :=
  ∃ before factor, tokens = before ++ factor ∧ Awaits opened before ∧
    Derives .factor (maxNesting - opened) factor

/-- Where an operand has to come, an expression and the closing parentheses complete the line. -/
theorem Awaits.derives {opened : Nat} {before : List Token} (h : Awaits opened before)
    {rest : List Token} (hrest : Derives .expr (maxNesting - opened) rest) :
    Derives .expr maxNesting (before ++ rest ++ List.replicate opened .rparen) := by
  induction h generalizing rest with
  | start => simpa using hrest
  | operator _ hfactor hop ih =>
    have := ih (hfactor.operator_expr hop hrest)
    simpa using this
  | @lparen opened before _ hroom ih =>
    have hdepth : maxNesting - opened = maxNesting - (opened + 1) + 1 := by omega
    have := ih (hdepth ▸ hrest.group.of_factor.of_term)
    simpa [List.replicate_succ] using this

theorem Holds.derives {opened : Nat} {tokens : List Token} (h : Holds opened tokens) :
    Derives .expr maxNesting (tokens ++ List.replicate opened .rparen) := by
  obtain ⟨before, factor, rfl, hbefore, hfactor⟩ := h
  exact hbefore.derives hfactor.of_factor.of_term

/-- The innermost parenthesis that is open, and what stands in it: something that an expression
may follow. -/
theorem Awaits.innermost {opened : Nat} {tokens : List Token} (h : Awaits (opened + 1) tokens) :
    ∃ before inner, tokens = before ++ .lparen :: inner ∧ Awaits opened before ∧
      opened < maxNesting ∧ ∀ {rest}, Derives .expr (maxNesting - (opened + 1)) rest →
        Derives .expr (maxNesting - (opened + 1)) (inner ++ rest) := by
  generalize hopened : opened + 1 = n at h
  induction h with
  | start => cases hopened
  | @operator _ _ factor token op _ hfactor hop ih =>
    obtain ⟨before, inner, rfl, hbefore, hroom, hinner⟩ := ih hopened
    subst hopened
    refine ⟨before, inner ++ factor ++ [token], by simp, hbefore, hroom, fun hrest => ?_⟩
    have := hinner (hfactor.operator_expr hop hrest)
    simpa using this
  | @lparen _ before hbefore hroom ih =>
    obtain rfl := Nat.succ.inj hopened
    exact ⟨before, [], rfl, hbefore, hroom, fun hrest => hrest⟩

theorem Holds.rparen {opened : Nat} {tokens : List Token} (h : Holds (opened + 1) tokens) :
    Holds opened (tokens ++ [.rparen]) := by
  obtain ⟨front, factor, rfl, hfront, hfactor⟩ := h
  obtain ⟨before, inner, rfl, hbefore, hroom, hinner⟩ := hfront.innermost
  have hdepth : maxNesting - opened = maxNesting - (opened + 1) + 1 := by omega
  refine ⟨before, .lparen :: (inner ++ factor) ++ [.rparen], by simp, hbefore, ?_⟩
  rw [hdepth]
  exact (hinner hfactor.of_factor.of_term).group

end LineCalc
