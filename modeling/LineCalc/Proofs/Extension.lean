/-
What becomes of an error when the line goes on differently.

An error that was found at a token stays where it is, whatever follows: the tokens up to there are
read in the same way. Only the end of the line is no such token, since more text takes its place. An
error of the grammar that was found there may go away. But an operation that fails does so before
anything is asked of the next token, except whether it binds tighter (`StopsAt.run_eq_error`). So it
fails as well where the parentheses that are open get closed instead, and there the tokens are a
sentence, whose tree has the fault.
-/
import LineCalc.Proofs.Line

namespace LineCalc

namespace State

theorem Reaches.run_eq {tokens : List Placed} {state : State} (h : Reaches tokens state)
    (rest : List Placed) (ending : Except LexError Nat) :
    initial.run ⟨tokens ++ rest, ending⟩ = state.run ⟨rest, ending⟩ := by
  simp only [run, h.foldlM_eq]

/-- An operation that failed when one token had been read fails with any other as well, unless that
binds tighter. -/
theorem StopsAt.run_eq_error {state : State} {t : Placed} {fault : ArithmeticError}
    (h : StopsAt state t (.arithmetic fault)) {rest : List Placed} {ending : Except LexError Nat}
    (hfollowed : Followed rest ending) (hloose : Loose rest) :
    state.run ⟨rest, ending⟩ = .error (.arithmetic fault) := by
  cases h with
  | product hproduct =>
    rw [run_settle_product _ _ _ hfollowed, hproduct, error_bind]
  | sum _ hproduct hsum =>
    rw [run_settle_product _ _ _ hfollowed, hproduct, ok_bind,
      run_settle_sum _ _ _ hfollowed hloose, hsum, error_bind]

theorem StopsAt.exists_haveOperand {state : State} {t : Placed} {fault : ArithmeticError}
    (h : StopsAt state t (.arithmetic fault)) :
    ∃ value level outer, state = haveOperand value level outer := by
  cases h with
  | product _ => exact ⟨_, _, _, rfl⟩
  | sum _ _ _ => exact ⟨_, _, _, rfl⟩

/-! ## The end of a line that goes on -/

/-- At its end a line goes wrong because it ends, or because of an operation. -/
theorem Reaches.finish_eq_error {tokens : List Placed} {state : State} (h : Reaches tokens state)
    {position : Nat} {error : EvalError} (hfinish : state.finish position = .error error) :
    (∃ expected, error = .grammatical (.unexpectedToken expected .endOfInput position)) ∨
      ∃ fault, error = .arithmetic fault ∧ StopsAt state ⟨.endOfInput, position⟩ error := by
  have hstops := stopsAt_of_step (step_of_finish hfinish)
  rcases hstops.blames h.owed with ⟨grammar, rfl, hat⟩ | ⟨fault, rfl, -⟩
  · cases grammar with
    | unexpectedToken expected found place =>
      obtain ⟨rfl, rfl⟩ := hat
      exact .inl ⟨expected, rfl⟩
    | nestingTooDeep limit place =>
      cases hat.1
  · exact .inr ⟨fault, rfl, hstops⟩

end State

/-! ## Closing the parentheses -/

theorem Holds.opened_le {opened : Nat} {tokens : List Token} (h : Holds opened tokens) :
    opened ≤ maxNesting := by
  obtain ⟨before, factor, -, hbefore, -⟩ := h
  clear factor
  induction hbefore with
  | start => exact Nat.zero_le _
  | operator _ _ _ ih => exact ih
  | lparen _ hroom _ => exact hroom

namespace Scan

theorem ofItems_cut_rparens (opened offset size : Nat) :
    ∃ placed, placed.map (·.token) = List.replicate opened Token.rparen ∧
      ofItems (Item.cut offset (List.replicate opened ')')) size = ⟨placed, .ok size⟩ := by
  induction opened generalizing offset with
  | zero => exact ⟨[], rfl, rfl⟩
  | succ opened ih =>
    obtain ⟨placed, htokens, hplaced⟩ := ih (offset + ')'.utf8Size)
    refine ⟨⟨.rparen, offset⟩ :: placed, by simp [List.replicate_succ, htokens], ?_⟩
    rw [List.replicate_succ, ofItems_cut_sign rfl, hplaced]
    rfl

theorem ofString_append_rparens {line : String} {tokens : List Placed} {size : Nat}
    (h : ofString line = ⟨tokens, .ok size⟩) (opened : Nat) :
    ∃ placed ending, placed.map (·.token) = List.replicate opened .rparen ∧
      ofString (line ++ String.ofList (List.replicate opened ')')) = ⟨tokens ++ placed, .ok ending⟩ := by
  have hjoin : Item.Apart line.toList (String.ofList (List.replicate opened ')')).toList := by
    refine Item.apart_of_head? (fun c hc => ?_) _
    rw [String.toList_ofList] at hc
    rw [List.eq_of_mem_replicate (List.mem_of_mem_head? hc)]
    rfl
  have hscan := ofString_append_of_ok hjoin (by rw [h])
  rw [h, String.toList_ofList] at hscan
  obtain ⟨placed, htokens, hplaced⟩ := ofItems_cut_rparens opened line.utf8ByteSize
    (line ++ String.ofList (List.replicate opened ')')).utf8ByteSize
  rw [hplaced] at hscan
  exact ⟨placed, _, htokens, hscan⟩

theorem tokenize_of_ofString {line : String} {tokens : List Placed} {size : Nat}
    (h : ofString line = ⟨tokens, .ok size⟩) :
    placedTokens line = tokens ∧ tokenize line = .ok (tokens.map (·.token) ++ [.endOfInput]) := by
  rcases ofString_cases line with ⟨htokens, hscan⟩ | ⟨error, -, hscan⟩
  · obtain ⟨rfl, -⟩ := Scan.mk.inj (hscan.symm.trans h)
    exact ⟨rfl, htokens⟩
  · obtain ⟨-, hending⟩ := Scan.mk.inj (hscan.symm.trans h)
    cases hending

end Scan

namespace HaltsAt

variable {line : String} {before : List Placed} {state : State} {t : Placed} {fault : ArithmeticError}

theorem position_lt (h : HaltsAt line before state t (.arithmetic fault)) :
    fault.position < t.position := by
  rcases (State.stopsAt_of_step h.step).blames h.reach.owed with ⟨_, heq, -⟩ | ⟨_, heq, t', ht', hposition⟩
  · cases heq
  · cases heq
    obtain ⟨after, htokens⟩ := h.tokens
    have hsorted := pairwise_placedLine line
    rw [htokens] at hsorted
    rw [← hposition]
    exact (List.pairwise_append.mp hsorted).2.2 t' ht' t List.mem_cons_self

/-- With all parentheses closed, what stands before that token is a sentence with this fault. -/
theorem exists_sentence (h : HaltsAt line before state t (.arithmetic fault)) :
    ∃ opened, opened ≤ maxNesting ∧ ∀ placed : List Placed,
      placed.map (·.token) = List.replicate opened .rparen →
        ∃ tree, IsSentence (before ++ placed) tree ∧ tree.value = .error fault := by
  have hstops := State.stopsAt_of_step h.step
  obtain ⟨value, level, outer, rfl⟩ := hstops.exists_haveOperand
  have hholds : Holds outer.length (before.map (·.token)) := h.reach.reads
  refine ⟨outer.length, hholds.opened_le, fun placed hplaced => ?_⟩
  have hderives : Derives .expr maxNesting ((before ++ placed).map (·.token)) := by
    rw [List.map_append, hplaced]
    exact hholds.derives
  obtain ⟨tree, htree⟩ := hderives.spells rfl
  refine ⟨tree, htree, ?_⟩
  have hloose : State.Loose placed := by
    intro t' ht' op hop
    have hmem : t'.token ∈ placed.map (·.token) := List.mem_map_of_mem (List.mem_of_mem_head? ht')
    rw [hplaced] at hmem
    rw [List.eq_of_mem_replicate hmem] at hop
    cases hop
  have hrun := hstops.run_eq_error (.inr ⟨0, rfl⟩) hloose
  rw [← h.reach.run_eq, IsSentence.run_eq htree] at hrun
  rw [← Tree.word_eq_error_iff]
  cases hword : tree.word with
  | ok value =>
    rw [hword] at hrun
    cases hrun
  | error error =>
    rw [hword] at hrun
    cases hrun
    rfl

end HaltsAt

/-- **An operation fails only where it really has no result**, even on a line that goes wrong further
on. If the evaluation of a line ends in a fault of an operation, then there is a place behind its
operator where the line can be cut off such that, with closing parentheses put there, it is a sentence
whose tree has this very fault. -/
theorem evaluate_arithmetic (line : String) (fault : ArithmeticError)
    (h : evaluate line = .error (.arithmetic fault)) :
    ∃ (front rest closed : String) (opened : Nat),
      line = front ++ rest ∧ fault.position < front.utf8ByteSize ∧ opened ≤ maxNesting ∧
      closed = front ++ String.ofList (List.replicate opened ')') ∧
      tokenize closed = .ok ((placedTokens closed).map (·.token) ++ [.endOfInput]) ∧
      ∃ tree, IsSentence (placedTokens closed) tree ∧ tree.value = .error fault := by
  obtain ⟨before, state, t, hhalts⟩ := exists_haltsAt h (by simp)
  obtain ⟨front, rest, htext, hsize, hfront, -⟩ := hhalts.text
  obtain ⟨opened, hopened, hsentence⟩ := hhalts.exists_sentence
  obtain ⟨placed, ending, hplaced, hscan⟩ := Scan.ofString_append_rparens hfront opened
  obtain ⟨htokens, htokenize⟩ := Scan.tokenize_of_ofString hscan
  refine ⟨front, rest, _, opened, htext, ?_, hopened, rfl, ?_, ?_⟩
  · rw [hsize]
    exact hhalts.position_lt
  · rw [htokens]
    exact htokenize
  · rw [htokens]
    exact hsentence placed hplaced

/-- A division by zero in front of a number that no operator leads up to. -/
theorem evaluate_malformed_division :
    evaluate "2*(7-3/0 5)" = .error (.arithmetic (.divisionByZero 6)) ∧
      ∃ (front rest closed : String) (opened : Nat),
        "2*(7-3/0 5)" = front ++ rest ∧ 6 < front.utf8ByteSize ∧ opened ≤ maxNesting ∧
        closed = front ++ String.ofList (List.replicate opened ')') ∧
        tokenize closed = .ok ((placedTokens closed).map (·.token) ++ [.endOfInput]) ∧
        ∃ tree, IsSentence (placedTokens closed) tree ∧ tree.value = .error (.divisionByZero 6) := by
  have hline : evaluate "2*(7-3/0 5)" = .error (.arithmetic (.divisionByZero 6)) := by
    rw [evaluate, Scan.ofString_eq]
    rfl
  exact ⟨hline, evaluate_arithmetic _ _ hline⟩

/-! ## More text behind a line -/

namespace Scan

variable {line more : String}

theorem ofString_append_of_error (hjoin : Item.Apart line.toList more.toList) {error : LexError}
    (h : (ofString line).ending = .error error) : ofString (line ++ more) = ofString line := by
  rw [ofString_eq] at h
  rw [ofString_eq, ofString_eq, Item.ofLine_append hjoin, ofItems_append_of_error h]

theorem exists_ofString_append (hjoin : Item.Apart line.toList more.toList) :
    ∃ rest ending, ofString (line ++ more) = ⟨(ofString line).tokens ++ rest, ending⟩ := by
  cases hending : (ofString line).ending with
  | error error => exact ⟨[], (ofString line).ending, by simp [ofString_append_of_error hjoin hending]⟩
  | ok size => exact ⟨_, _, ofString_append_of_ok hjoin hending⟩

/-- An evaluation goes wrong at a token, at text that is none, or at the end. -/
theorem evaluate_eq_error {scan : Scan} {error : EvalError} (h : scan.evaluate = .error error) :
    (∃ before t after state, scan.tokens = before ++ t :: after ∧ State.Reaches before state ∧
      state.step t = .error error) ∨
    (∃ lexical, scan.ending = .error lexical ∧ error = .lexical lexical) ∨
    ∃ size state, scan.ending = .ok size ∧ State.Reaches scan.tokens state ∧
      state.finish size = .error error := by
  rcases scan.evaluate_cases with
    ⟨before, t, after, state, other, htokens, hreach, hstep, hother⟩ | ⟨state, hreach, hresult⟩
  · obtain rfl := Except.error.inj (hother.symm.trans h)
    exact .inl ⟨before, t, after, state, htokens, hreach, hstep⟩
  · cases hending : scan.ending with
    | error lexical =>
      rw [hending] at hresult
      obtain rfl := Except.error.inj (hresult.symm.trans h)
      exact .inr (.inl ⟨lexical, rfl, rfl⟩)
    | ok size =>
      rw [hending] at hresult
      exact .inr (.inr ⟨size, state, rfl, hreach, hresult.symm.trans h⟩)

theorem apart_sign {c : Char} {token : Token} (hc : Token.ofChar? c = some token) :
    Item.Apart line.toList (String.singleton c ++ more).toList := by
  refine Item.apart_of_head? (fun d hd => ?_) _
  obtain rfl : c = d := by simpa using hd
  exact (Token.notBlank_notDigit_of_ofChar? hc).2

theorem exists_ofString_append_sign {size : Nat} (h : (ofString line).ending = .ok size) {c : Char}
    {token : Token} (hc : Token.ofChar? c = some token) :
    ∃ position rest ending, ofString (line ++ (String.singleton c ++ more)) =
      ⟨(ofString line).tokens ++ ⟨token, position⟩ :: rest, ending⟩ := by
  have htext : (String.singleton c ++ more).toList = c :: more.toList := by simp
  rw [ofString_append_of_ok (apart_sign hc) h, htext, ofItems_cut_sign hc]
  exact ⟨_, _, _, rfl⟩

end Scan

/-- An error that was found at a token is found there again. -/
theorem evaluate_append_of_step {line more : String} (hjoin : Item.Apart line.toList more.toList)
    {before after : List Placed} {t : Placed} {state : State} {error : EvalError}
    (htokens : (Scan.ofString line).tokens = before ++ t :: after)
    (hreach : State.Reaches before state) (hstep : state.step t = .error error) :
    evaluate (line ++ more) = .error error := by
  obtain ⟨rest, ending, hscan⟩ := Scan.exists_ofString_append hjoin
  rw [htokens, List.append_assoc, List.cons_append] at hscan
  rw [evaluate, hscan, Scan.evaluate, hreach.run_eq, State.run_cons, hstep, error_bind]

/-- An operation that failed fails again behind any sign that does not bind tighter. -/
theorem evaluate_append_sign {line : String} {fault : ArithmeticError}
    (h : evaluate line = .error (.arithmetic fault)) {c : Char} {token : Token}
    (hc : Token.ofChar? c = some token)
    (hbinds : ∀ op, Operator.ofToken? token = some op → op.isMultiplicative = false) (more : String) :
    evaluate (line ++ (String.singleton c ++ more)) = .error (.arithmetic fault) := by
  rcases Scan.evaluate_eq_error h with
    ⟨before, t, after, state, htokens, hreach, hstep⟩ | ⟨lexical, -, heq⟩ |
      ⟨size, state, hending, hreach, hfinish⟩
  · exact evaluate_append_of_step (Scan.apart_sign hc) htokens hreach hstep
  · cases heq
  · -- At the end of the line too the operation was tried before anything else was asked.
    rcases hreach.finish_eq_error hfinish with ⟨expected, heq⟩ | ⟨_, heq, hstops⟩
    · cases heq
    obtain ⟨position, rest, ending, hscan⟩ := Scan.exists_ofString_append_sign hending hc
    rw [evaluate, hscan, Scan.evaluate, hreach.run_eq]
    refine hstops.run_eq_error (.inl (by simp)) fun t ht op hop => ?_
    obtain rfl : ⟨token, position⟩ = t := by simpa using ht
    exact hbinds op hop

/-- **Errors are final.** If the evaluation of a line ends in an error of the text, or in one of the
grammar that is not about the end of the line, it ends in the same error whatever text is put behind
the line, unless a number at the end of it goes on there. If it ends in a fault of an operation, it
does so again behind any text that starts with a sign which does not bind tighter. -/
theorem evaluate_append (line more : String) :
    (∀ error, evaluate line = .error error → (∀ fault, error ≠ .arithmetic fault) →
      (∀ expected position, error ≠ .grammatical (.unexpectedToken expected .endOfInput position)) →
      ¬ ((∃ c ∈ line.toList.getLast?, c.isDigit) ∧ ∃ c ∈ more.toList.head?, c.isDigit) →
      evaluate (line ++ more) = .error error) ∧
    ∀ fault, evaluate line = .error (.arithmetic fault) → ∀ c ∈ ['+', '-', '(', ')'],
      evaluate (line ++ (String.singleton c ++ more)) = .error (.arithmetic fault) := by
  constructor
  · intro error herror harithmetic hend hdigits
    have hjoin : Item.Apart line.toList more.toList := by
      intro x hx y hy
      by_contra hrun
      simp only [Item.inOneRun, Bool.not_eq_false, Bool.and_eq_true] at hrun
      exact hdigits ⟨⟨x, hx, hrun.1⟩, y, hy, hrun.2⟩
    rcases Scan.evaluate_eq_error herror with
      ⟨before, t, after, state, htokens, hreach, hstep⟩ | ⟨lexical, hending, -⟩ |
        ⟨size, state, -, hreach, hfinish⟩
    · exact evaluate_append_of_step hjoin htokens hreach hstep
    · rw [evaluate, Scan.ofString_append_of_error hjoin hending]
      exact herror
    · rcases hreach.finish_eq_error hfinish with ⟨expected, heq⟩ | ⟨fault, heq, -⟩
      · exact absurd heq (hend expected size)
      · exact absurd heq (harithmetic fault)
  · intro fault hfault c hc
    simp only [List.mem_cons, List.not_mem_nil, or_false] at hc
    rcases hc with rfl | rfl | rfl | rfl
    · exact evaluate_append_sign hfault rfl (by simp [Operator.ofToken?, Operator.isMultiplicative]) more
    · exact evaluate_append_sign hfault rfl (by simp [Operator.ofToken?, Operator.isMultiplicative]) more
    · exact evaluate_append_sign hfault rfl (by simp [Operator.ofToken?]) more
    · exact evaluate_append_sign hfault rfl (by simp [Operator.ofToken?]) more

/-- A product that lacks its first operand stays so, and so does a division by zero behind which a
parenthesis is opened. -/
theorem evaluate_append_unclosed :
    evaluate ("1+*" ++ "2)") = .error (.grammatical (.unexpectedToken .integer .mul 2)) ∧
      evaluate ("1/0" ++ (String.singleton '-' ++ "(")) = .error (.arithmetic (.divisionByZero 1)) := by
  have hgrammar : evaluate "1+*" = .error (.grammatical (.unexpectedToken .integer .mul 2)) := by
    rw [evaluate, Scan.ofString_eq]
    rfl
  have hdivision : evaluate "1/0" = .error (.arithmetic (.divisionByZero 1)) := by
    rw [evaluate, Scan.ofString_eq]
    rfl
  have hnumber : ¬ ((∃ c ∈ "1+*".toList.getLast?, c.isDigit) ∧ ∃ c ∈ "2)".toList.head?, c.isDigit) := by
    simp [Char.isDigit]
  exact ⟨(evaluate_append _ _).1 _ hgrammar (by simp) (by simp) hnumber,
    (evaluate_append _ _).2 _ hdivision _ (by simp)⟩

end LineCalc
