/-
Whole lines. A line that is a sentence of the grammar is worth what its one tree is worth, worked out
exactly and checked node by node in post-order, and no other line has a value at all. Reading a line
to its end and evaluating it agree on what is wrong with its text, unless the evaluation stops before
it gets there; `HaltsAt` says where that is.
-/
import LineCalc.Proofs.Reachable
import LineCalc.Proofs.Writing

namespace LineCalc

/-- An evaluation that succeeds has read a sentence, up to the end of the line. -/
theorem Scan.derives_of_evaluate {scan : Scan} {value : Word} (h : scan.evaluate = .ok value) :
    (∃ position, scan.ending = .ok position) ∧
      Derives .expr maxNesting (scan.tokens.map (·.token)) := by
  rcases scan.evaluate_cases with ⟨_, _, _, _, _, _, _, _, herror⟩ | ⟨state, hreach, hresult⟩
  · rw [h] at herror
    cases herror
  · obtain ⟨position, hending, hfinish⟩ := bind_eq_ok.mp (hresult.symm.trans h)
    obtain ⟨operand, level, product, rfl, -, -⟩ := State.finish_eq_ok hfinish
    have hholds : Holds 0 (scan.tokens.map (·.token)) := hreach.reads
    refine ⟨?_, by simpa using hholds.derives⟩
    cases hend : scan.ending with
    | error error =>
      rw [hend] at hending
      cases hending
    | ok position => exact ⟨position, rfl⟩

/-- **A line has a value exactly if it is a sentence whose tree can be worked out.** If the tokens
of a line derive from the grammar, nested no deeper than they may be, they spell one tree, and the
line is worth the exact value of that tree if none of its nodes divides by zero or leaves the range,
and otherwise ends in the fault of the first such node in post-order, at the operator of that node.
Any other line ends in an error. -/
theorem evaluate_eq_tree (line : String) :
    (∀ tokens, tokenize line = .ok (tokens ++ [.endOfInput]) → Derives .expr maxNesting tokens →
      (placedTokens line).map (·.token) = tokens ∧ (∃! tree, IsSentence (placedTokens line) tree) ∧
      ∀ tree, IsSentence (placedTokens line) tree →
        (∀ value : Word, evaluate line = .ok value ↔
          tree.exactValue? = some value.toInt ∧ tree.firstFault? = none) ∧
        ∀ error, evaluate line = .error error ↔
          ∃ fault, tree.firstFault? = some fault ∧ error = .arithmetic fault) ∧
    ((∀ tokens, tokenize line = .ok (tokens ++ [.endOfInput]) → ¬ Derives .expr maxNesting tokens) →
      ∃ error, evaluate line = .error error) := by
  rcases Scan.ofString_cases line with ⟨htokens, hscan⟩ | ⟨lexical, htokens, hscan⟩
  · rw [htokens, evaluate, hscan]
    constructor
    · intro tokens heq hderives
      obtain rfl : (placedTokens line).map (·.token) = tokens := by simpa using heq
      refine ⟨rfl, ?_, fun tree htree => ?_⟩
      · obtain ⟨tree, htree⟩ := derives_iff_spells.mp hderives
        exact ⟨tree, htree, fun other hother => hother.unique htree rfl⟩
      · rw [Scan.evaluate, IsSentence.run_eq htree]
        constructor
        · intro value
          rw [← Tree.value_eq_ok_iff, ← Tree.word_eq_ok_iff]
          cases tree.word <;> simp
        · intro error
          simp only [← Tree.value_eq_error_iff, ← Tree.word_eq_error_iff]
          cases tree.word <;> simp [eq_comm]
    · intro hno
      cases h : Scan.evaluate _ with
      | error error => exact ⟨error, rfl⟩
      | ok value => exact absurd (Scan.derives_of_evaluate h).2 (hno _ rfl)
  · rw [htokens, evaluate, hscan]
    refine ⟨(fun tokens heq => by cases heq), fun _ => ?_⟩
    cases h : Scan.evaluate _ with
    | error error => exact ⟨error, rfl⟩
    | ok value =>
      obtain ⟨position, hend⟩ := (Scan.derives_of_evaluate h).1
      cases hend

/-! ## Faults of the text -/

theorem State.StopsAt.not_lexical {before : List Placed} {state : State} {t : Placed}
    {error : EvalError} (h : StopsAt state t error) (hreach : Reaches before state) :
    ((∃ grammar, error = .grammatical grammar) ∨ ∃ fault, error = .arithmetic fault) ∧
      ∃ t' ∈ before ++ [t], t'.position = error.position := by
  rcases h.blames hreach.owed with ⟨grammar, rfl, hat⟩ | ⟨fault, rfl, t', ht', hp⟩
  · exact ⟨.inl ⟨grammar, rfl⟩, t, by simp, hat.position_eq.symm⟩
  · exact ⟨.inr ⟨fault, rfl⟩, t', by simp [ht'], hp⟩

/-- **Evaluating and tokenizing agree on faults of the text.** A line that can be tokenized is never
evaluated to such a fault. A line that cannot be is evaluated to the very same fault, and then what
stands before it is the beginning of a sentence; or the evaluation stops further left, for another
reason. -/
theorem evaluate_lexical (line : String) :
    (∀ tokens, tokenize line = .ok tokens → ∀ error, evaluate line ≠ .error (.lexical error)) ∧
    ∀ error, tokenize line = .error error →
      (evaluate line = .error (.lexical error) ∧
        ∃ whole, Derives .expr maxNesting whole ∧
          ((placedTokens line).filter (·.position < error.position)).map (·.token) <+: whole) ∨
      ∃ other, evaluate line = .error other ∧
        ((∃ grammar, other = .grammatical grammar) ∨ ∃ fault, other = .arithmetic fault) ∧
        other.position < error.position := by
  rcases Scan.ofString_cases line with ⟨htokens, hscan⟩ | ⟨lexical, htokens, hscan⟩
  · rw [htokens, evaluate, hscan]
    refine ⟨fun tokens _ error herror => ?_, fun error h => by cases h⟩
    have hstops : ∃ before state t, State.Reaches before state ∧
        state.StopsAt t (.lexical error) := by
      rcases Scan.evaluate_cases ⟨placedTokens line, .ok line.utf8ByteSize⟩ with
        ⟨before, t, after, state, other, -, hreach, hstep, hother⟩ | ⟨state, hreach, hresult⟩
      · obtain rfl := Except.error.inj (hother.symm.trans herror)
        exact ⟨before, state, t, hreach, State.stopsAt_of_step hstep⟩
      · exact ⟨_, state, _, hreach, State.stopsAt_of_step (State.step_of_finish (hresult.symm.trans herror))⟩
    obtain ⟨before, state, t, hreach, hstops⟩ := hstops
    rcases (hstops.not_lexical hreach).1 with ⟨grammar, h⟩ | ⟨fault, h⟩ <;> cases h
  · rw [htokens, evaluate, hscan]
    refine ⟨fun tokens h => (by cases h), fun error h => ?_⟩
    obtain rfl := Except.error.inj h
    rcases Scan.evaluate_cases
        ⟨(placedTokens line).filter (·.position < lexical.position), .error lexical⟩ with
      ⟨before, t, after, state, other, hsplit, hreach, hstep, hother⟩ | ⟨state, hreach, hresult⟩
    · obtain ⟨hkind, t', ht', hposition⟩ := (State.stopsAt_of_step hstep).not_lexical hreach
      have hmem : t' ∈ (placedTokens line).filter (·.position < lexical.position) := by
        rw [show (placedTokens line).filter (·.position < lexical.position) = _ from hsplit,
          ← List.singleton_append, ← List.append_assoc]
        exact List.mem_append_left _ ht'
      have hbefore := (List.mem_filter.mp hmem).2
      exact .inr ⟨other, hother, hkind, by simpa [hposition] using hbefore⟩
    · exact .inl ⟨hresult, hreach.exists_derives⟩

/-! ## Where a line stops -/

/-- Evaluating the line takes in `before`, which leads to `state`, and gets no further than `t`, which
may be the end of the line. -/
structure HaltsAt (line : String) (before : List Placed) (state : State) (t : Placed)
    (error : EvalError) : Prop where
  reach : State.Reaches before state
  step : state.step t = .error error
  finish : t.token = .endOfInput → state.finish t.position = .error error
  tokens : ∃ after, placedLine line = before ++ t :: after
  text : ∃ front rest, line = front ++ rest ∧ front.utf8ByteSize = t.position ∧
    Scan.ofString front = ⟨before, .ok t.position⟩ ∧ (t.token = .endOfInput → front = line)

theorem token_ne_endOfInput {line : String} {t : Placed} (h : t ∈ placedTokens line) :
    t.token ≠ .endOfInput := by
  obtain ⟨item, -, hplaced⟩ := List.mem_filterMap.mp h
  obtain ⟨token, htoken, rfl⟩ := Option.map_eq_some_iff.mp hplaced
  rintro rfl
  exact item.token?_ne_endOfInput htoken

/-- A line that goes wrong, and not because of its text, stops at one of its tokens or at its end. -/
theorem exists_haltsAt {line : String} {error : EvalError} (h : evaluate line = .error error)
    (hno : ∀ lexical, error ≠ .lexical lexical) : ∃ before state t, HaltsAt line before state t error := by
  rcases (Scan.ofString line).evaluate_cases with
    ⟨before, t, after, state, other, hsplit, hreach, hstep, hother⟩ | ⟨state, hreach, hresult⟩
  · obtain rfl := Except.error.inj (hother.symm.trans h)
    obtain ⟨others, hline⟩ := Scan.exists_placedTokens_eq line
    rw [hsplit] at hline
    have hne : t.token ≠ .endOfInput := @token_ne_endOfInput line t (by simp [hline])
    obtain ⟨front, rest, htext, hsize, hfront⟩ := Scan.ofString_before hsplit
    have htokens : placedLine line =
        before ++ t :: (after ++ others ++ [⟨.endOfInput, line.utf8ByteSize⟩]) := by
      simp [placedLine, hline]
    exact ⟨before, state, t, hreach, hstep, fun ht => absurd ht hne, ⟨_, htokens⟩, front, rest, htext,
      hsize, hfront, fun ht => absurd ht hne⟩
  · have hfinish := hresult.symm.trans h
    rcases Scan.ofString_cases line with ⟨-, hscan⟩ | ⟨lexical, -, hscan⟩
    · rw [hscan] at hreach hfinish
      exact ⟨_, state, ⟨.endOfInput, line.utf8ByteSize⟩, hreach, State.step_of_finish hfinish,
        fun _ => hfinish, ⟨[], rfl⟩, line, "", by simp, rfl, hscan, fun _ => rfl⟩
    · rw [hscan] at hfinish
      obtain rfl := Except.error.inj hfinish
      exact absurd rfl (hno lexical)

namespace HaltsAt

variable {line : String} {before : List Placed} {state : State} {t : Placed} {error : GrammarError}

theorem isAt (h : HaltsAt line before state t (.grammatical error)) : error.IsAt t := by
  rcases (State.stopsAt_of_step h.step).blames h.reach.owed with ⟨_, heq, hat⟩ | ⟨_, heq, -⟩
  · cases heq
    exact hat
  · cases heq

theorem filter_placedLine (h : HaltsAt line before state t (.grammatical error)) :
    (placedLine line).filter (·.position ≤ error.position) = before ++ [t] := by
  obtain ⟨after, htokens⟩ := h.tokens
  have hsorted := pairwise_placedLine line
  rw [htokens] at hsorted ⊢
  rw [h.isAt.position_eq]
  exact filter_position_le hsorted

end HaltsAt

end LineCalc
