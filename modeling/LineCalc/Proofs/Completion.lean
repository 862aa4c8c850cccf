/-
An evaluation that stops for a reason of the grammar stops at the earliest token that it can, and
whatever stands before this token can still be saved.

No sentence begins with the tokens up to there, since the evaluation of a sentence never ends in
such an error (`Reaches.not_derives`). And from the state before it some completion leads to a value
(`Reaches.exists_completion`). A product that is owed may be a division, and its left operand may be
at the end of the range, so the one right operand that is always safe is 1: what is open in a
parenthesis is brought to 1 before it is closed. Then `* 0` makes the term vanish, and the sum in
front of it is left as it was.
-/
import LineCalc.Proofs.Line

namespace LineCalc

/-! ## Operands that are always safe -/

theorem settle_eq_ok {left right word : Word} {op : Operator}
    (h : op.result? left.toInt right.toInt = some word.toInt) (position : Nat) :
    settle (some ⟨left, op, position⟩) right = .ok word := by
  have hword : Word.ofInt? word.toInt = some word := Word.ofInt?_eq_some_iff.mpr rfl
  simp only [settle, Operator.apply, h, hword, mapError_ok]

namespace Level

/-- What is owed at a level comes to `result` if `value` is the operand that is missing. -/
def Settles (level : Level) (value result : Word) : Prop :=
  ∃ product, settle level.product value = .ok product ∧ settle level.sum product = .ok result

/-- What a level comes to if its last term is zero. -/
def base (level : Level) : Word :=
  match level.sum with
  | none => 0
  | some p => p.left

theorem Owed.settle_one {tokens : List Placed} {level : Level} (h : level.Owed tokens) :
    ∃ product, settle level.product 1 = .ok product := by
  obtain ⟨sum, _ | ⟨left, op, position⟩⟩ := level
  · exact ⟨1, rfl⟩
  · refine ⟨left, settle_eq_ok ?_ position⟩
    have hmul := (h.product _ rfl).1
    cases op with
    | mul => simp [Operator.result?]
    | div => simp [Operator.result?]
    | _ => cases hmul

theorem Owed.settle_zero {tokens : List Placed} {level : Level} (h : level.Owed tokens) :
    settle level.sum 0 = .ok level.base := by
  obtain ⟨_ | ⟨left, op, position⟩, product⟩ := level
  · rfl
  · refine settle_eq_ok ?_ position
    have hadd := (h.sum _ rfl).1
    cases op with
    | add => simp [Operator.result?, base]
    | sub => simp [Operator.result?, base]
    | _ => cases hadd

end Level

/-- Whatever a parenthesis is worth so far, two more terms bring it to 1. -/
theorem exists_terms (value : Word) :
    ∃ token op, Operator.ofToken? token = some op ∧ op.isAdditive ∧ token.Writable ∧
      ∃ a b c : Word, 0 ≤ a.toInt ∧ 0 ≤ b.toInt ∧
        op.result? value.toInt a.toInt = some c.toInt ∧ c.toInt + b.toInt = 1 := by
  by_cases h : 0 ≤ value.toInt
  · refine ⟨.minus, .sub, rfl, rfl, trivial, value, 1, 0, h, by decide, ?_, by decide⟩
    simp [Operator.result?]
  · -- The least word has no counterpart above zero, so the sum goes to -1 first.
    have hrange : Word.InRange (-(value.toInt + 1)) := by
      have := value.inRange_toInt
      unfold Word.InRange at this ⊢
      omega
    refine ⟨.plus, .add, rfl, rfl, trivial, Int64.ofInt (-(value.toInt + 1)), 2, -1, ?_, by decide, ?_,
      by decide⟩
    · rw [hrange.toInt_ofInt]
      omega
    · have hneg : (-1 : Word).toInt = -1 := by decide
      rw [hrange.toInt_ofInt, hneg, Operator.result?]
      congr 1
      omega

namespace State

/-! ## Completions -/

/-- Behind these tokens, wherever they are placed, the line may end, and has a value. -/
def CompletedBy (state : State) (tokens : List Token) : Prop :=
  ∀ (placed : List Placed) (ending : Nat), placed.map (·.token) = tokens →
    ∃ value, state.run ⟨placed, .ok ending⟩ = .ok value

theorem completedBy_cons {state : State} {token : Token} {tokens : List Token}
    (h : ∀ position, ∃ next, Takes state ⟨token, position⟩ next ∧ next.CompletedBy tokens) :
    state.CompletedBy (token :: tokens) := by
  intro placed ending hplaced
  obtain ⟨⟨_, position⟩, rest, rfl, rfl, hrest⟩ := List.map_eq_cons_iff.mp hplaced
  obtain ⟨next, htakes, hnext⟩ := h position
  rw [run_cons, htakes.step_eq]
  exact hnext rest ending hrest

/-- `more` completes a line wherever the innermost level comes to `result`. -/
def Closes (more : List Token) (result : Word) (outer : List Level) : Prop :=
  ∀ value level, Level.Settles level value result → (haveOperand value level outer).CompletedBy more

/-- A factor of 1 is safe behind any operator, and `* 0` then makes its term vanish. -/
theorem Closes.one {more : List Token} {level : Level} {outer : List Level} {tokens : List Placed}
    (h : Closes more level.base outer) (howed : level.Owed tokens) :
    (haveOperand 1 level outer).CompletedBy (.mul :: .integer 0 :: more) := by
  obtain ⟨product, hproduct⟩ := howed.settle_one
  refine completedBy_cons fun position => ⟨_, .multiplicative rfl rfl hproduct, ?_⟩
  refine completedBy_cons fun _ => ⟨_, .integer, h _ _ ⟨0, ?_, howed.settle_zero⟩⟩
  exact settle_eq_ok (by simp [Operator.result?]) position

/-- **Open parentheses can always be closed.** -/
theorem exists_closes {tokens : List Placed} {outer : List Level} (howed : ∀ l ∈ outer, l.Owed tokens)
    (result : Word) : ∃ more : List Token, (∀ t ∈ more, t.Writable) ∧ Closes more result outer := by
  induction outer generalizing result with
  | nil =>
    refine ⟨[], by simp, fun value level ⟨product, hproduct, hsum⟩ placed ending hplaced => ?_⟩
    obtain rfl : placed = [] := by simpa using hplaced
    exact ⟨result, by simp [run_nil, finish, hproduct, hsum, pure, Except.pure]⟩
  | cons next outer ih =>
    obtain ⟨more, hwritable, hmore⟩ := ih (fun l hl => howed l (by simp [hl])) next.base
    obtain ⟨token, op, hop, hadd, htoken, a, b, c, ha, hb, hc, hone⟩ := exists_terms result
    refine ⟨token :: .integer a :: .plus :: .integer b :: .rparen :: .mul :: .integer 0 :: more, ?_, ?_⟩
    · simp only [List.forall_mem_cons]
      exact ⟨htoken, ha, trivial, hb, trivial, trivial, Int.le_refl 0, hwritable⟩
    · intro value level ⟨product, hproduct, hsum⟩
      refine completedBy_cons fun p => ⟨_, .additive hop hadd hproduct hsum, ?_⟩
      refine completedBy_cons fun _ => ⟨_, .integer, ?_⟩
      refine completedBy_cons fun q => ⟨_, .additive rfl rfl (settle_none a) (settle_eq_ok hc p), ?_⟩
      refine completedBy_cons fun _ => ⟨_, .integer, ?_⟩
      have hsum : settle (some ⟨c, .add, q⟩) b = .ok 1 := by
        refine settle_eq_ok ?_ q
        rw [Operator.result?, hone]
        rfl
      refine completedBy_cons fun _ => ⟨_, .rparen (settle_none b) hsum, ?_⟩
      exact hmore.one (howed next (by simp))

/-- Whatever is owed is settled before the grammar is at fault. -/
theorem StopsAt.settles {value : Word} {level : Level} {outer : List Level} {t : Placed}
    {error : EvalError} (h : StopsAt (haveOperand value level outer) t error)
    (hno : ∀ fault, error ≠ .arithmetic fault) : ∃ result, level.Settles value result := by
  cases h with
  | product hproduct =>
    obtain ⟨_, _, fault, rfl, _⟩ := settle_eq_error hproduct
    exact absurd rfl (hno fault)
  | sum _ _ hsum =>
    obtain ⟨_, _, fault, rfl, _⟩ := settle_eq_error hsum
    exact absurd rfl (hno fault)
  | noCloser _ _ hproduct hsum => exact ⟨_, _, hproduct, hsum⟩

/-- **What stands before an error of the grammar can still be completed.** -/
theorem Reaches.exists_completion {before : List Placed} {state : State} (h : Reaches before state)
    {t : Placed} {error : GrammarError} (hstep : state.step t = .error (.grammatical error)) :
    ∃ more : List Token, (∀ t ∈ more, t.Writable) ∧ state.CompletedBy more := by
  have howed := h.owed
  cases state with
  | needOperand level outer =>
    have houter : ∀ l ∈ outer, l.Owed before := fun l hl => howed l (List.mem_cons_of_mem _ hl)
    obtain ⟨more, hwritable, hmore⟩ := exists_closes houter level.base
    refine ⟨.integer 1 :: .mul :: .integer 0 :: more, ?_, ?_⟩
    · have hone : 0 ≤ Int64.toInt 1 := by decide
      simp only [List.forall_mem_cons]
      exact ⟨hone, trivial, Int.le_refl 0, hwritable⟩
    · exact completedBy_cons fun _ => ⟨_, .integer, hmore.one (howed level (by simp))⟩
  | haveOperand value level outer =>
    have houter : ∀ l ∈ outer, l.Owed before := fun l hl => howed l (List.mem_cons_of_mem _ hl)
    obtain ⟨result, hresult⟩ := (stopsAt_of_step hstep).settles (by simp)
    obtain ⟨more, hwritable, hmore⟩ := exists_closes houter result
    exact ⟨more, hwritable, hmore value level hresult⟩

/-! ## No beginning of a sentence -/

theorem run_ne_grammatical {tokens : List Placed}
    (h : Derives .expr maxNesting (tokens.map (·.token))) (ending : Nat) (error : GrammarError) :
    initial.run ⟨tokens, .ok ending⟩ ≠ .error (.grammatical error) := by
  obtain ⟨tree, htree⟩ := h.spells rfl
  rw [IsSentence.run_eq htree]
  cases tree.word <;> simp

/-- **No sentence begins with the tokens up to an error of the grammar.** -/
theorem Reaches.not_derives {before : List Placed} {state : State} (h : Reaches before state)
    {t : Placed} {error : GrammarError} (hstep : state.step t = .error (.grammatical error))
    (rest : List Token) : ¬ Derives .expr maxNesting ((before ++ [t]).map (·.token) ++ rest) := by
  intro hderives
  -- The rest may stand anywhere, since it is never looked at.
  refine @run_ne_grammatical (before ++ t :: rest.map (⟨·, 0⟩)) ?_ 0 error ?_
  · simpa [Function.comp_def] using hderives
  · rw [run, h.foldlM_eq, List.foldlM_cons, hstep]
    rfl

theorem Reaches.not_derives_finish {tokens : List Placed} {state : State} (h : Reaches tokens state)
    {ending : Nat} {error : GrammarError} (hfinish : state.finish ending = .error (.grammatical error)) :
    ¬ Derives .expr maxNesting (tokens.map (·.token)) := by
  intro hderives
  have hfold := h.foldlM_eq []
  rw [List.append_nil] at hfold
  refine run_ne_grammatical hderives ending error ?_
  rw [run, hfold]
  exact hfinish

end State

namespace HaltsAt

variable {line : String} {before : List Placed} {state : State} {t : Placed} {error : GrammarError}

theorem exists_evaluate (h : HaltsAt line before state t (.grammatical error)) {front : String}
    (hfront : Scan.ofString front = ⟨before, .ok t.position⟩) :
    ∃ completion value, evaluate (front ++ completion) = .ok value := by
  obtain ⟨more, hwritable, hmore⟩ := h.reach.exists_completion h.step
  obtain ⟨placed, ending, hplaced, hscan⟩ := Scan.ofString_append hfront hwritable
  obtain ⟨value, hvalue⟩ := hmore placed ending hplaced
  refine ⟨String.ofList (Token.write more), value, ?_⟩
  rw [evaluate, hscan, Scan.evaluate, State.run, h.reach.foldlM_eq]
  exact hvalue

theorem not_derivesLine (h : HaltsAt line before state t (.grammatical error)) {whole : List Token}
    (hwhole : DerivesLine whole) : ¬ (before ++ [t]).map (·.token) <+: whole := by
  rintro ⟨rest, hrest⟩
  obtain ⟨body, hbody, rfl⟩ := hwhole
  rcases List.eq_nil_or_concat rest with rfl | ⟨rest, last, rfl⟩
  · -- The token is the end of the line, and the rest of them are a sentence.
    simp only [List.map_append, List.map_cons, List.map_nil, List.append_nil] at hrest
    obtain ⟨rfl, hlast⟩ := List.append_inj' hrest rfl
    exact h.reach.not_derives_finish (h.finish (by simpa using hlast)) hbody
  · rw [List.concat_eq_append, ← List.append_assoc] at hrest
    obtain ⟨rfl, -⟩ := List.append_inj' hrest rfl
    exact h.reach.not_derives h.step rest hbody

end HaltsAt

/-- **Errors of the grammar are found as early as can be, and what stands before them can still be
saved.** If the evaluation of a line ends in such an error, the text before it can be completed to a
line that has a value. The tokens up to the one at the error, which may be the end of the line, are the
beginning of no line that derives from the grammar. And where it is the end of the line that was
found, the whole line can be completed. -/
theorem evaluate_grammatical (line : String) (error : GrammarError)
    (h : evaluate line = .error (.grammatical error)) :
    (∃ front rest completion : String, line = front ++ rest ∧ front.utf8ByteSize = error.position ∧
      ∃ value, evaluate (front ++ completion) = .ok value) ∧
    (∃ before t, (placedLine line).filter (·.position ≤ error.position) = before ++ [t] ∧
      t.position = error.position ∧
      ∀ whole, DerivesLine whole → ¬ (before ++ [t]).map (·.token) <+: whole) ∧
    ((∃ expected position, error = .unexpectedToken expected .endOfInput position) →
      ∃ completion value, evaluate (line ++ completion) = .ok value) := by
  obtain ⟨before, state, t, hhalts⟩ := exists_haltsAt h (by simp)
  obtain ⟨front, rest, htext, hsize, hfront, hend⟩ := hhalts.text
  refine ⟨?_, ⟨before, t, hhalts.filter_placedLine, hhalts.isAt.position_eq.symm, ?_⟩, ?_⟩
  · obtain ⟨completion, value, hvalue⟩ := hhalts.exists_evaluate hfront
    exact ⟨front, rest, completion, htext, hsize.trans hhalts.isAt.position_eq.symm, value, hvalue⟩
  · intro whole hwhole
    exact hhalts.not_derivesLine hwhole
  · rintro ⟨expected, position, rfl⟩
    have hline := hend hhalts.isAt.1.symm
    rw [hline] at hfront
    exact hhalts.exists_evaluate hfront

/-- A line that lacks a closing parenthesis, behind a division whose divisor is open in it. -/
theorem evaluate_unclosed :
    evaluate "8/(3" = .error (.grammatical (.unexpectedToken .rparen .endOfInput 4)) ∧
      ∃ completion value, evaluate ("8/(3" ++ completion) = .ok value := by
  have hline : evaluate "8/(3" = .error (.grammatical (.unexpectedToken .rparen .endOfInput 4)) := by
    rw [evaluate, Scan.ofString_eq]
    rfl
  exact ⟨hline, (evaluate_grammatical _ _ hline).2.2 ⟨_, _, rfl⟩⟩

end LineCalc
