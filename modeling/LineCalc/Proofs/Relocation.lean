/-
Offsets are carried along, and never looked at. If every token of a line is moved somewhere else, its
evaluation takes the same course, and an error is the same up to its place, which has moved in the same
way (`Scan.evaluate_relocate`).

So any line whose text can be read is evaluated as its bare tokens are, each of them put at its own
number (`Scan.numbered`), and then moved to where they stand in the line. Two lines with the same tokens
differ in the move alone.
-/
import LineCalc.Proofs.Extension

namespace LineCalc

/-! ## Moving -/

/-- The token, moved from `position` to `move position`. So it is with all that follows. -/
def Placed.relocate (move : Nat → Nat) (t : Placed) : Placed := ⟨t.token, move t.position⟩

def LexError.relocate (move : Nat → Nat) : LexError → LexError
  | unknownCharacter character position => unknownCharacter character (move position)
  | literalTooLarge literal position => literalTooLarge literal (move position)

def GrammarError.relocate (move : Nat → Nat) : GrammarError → GrammarError
  | unexpectedToken expected found position => unexpectedToken expected found (move position)
  | nestingTooDeep limit position => nestingTooDeep limit (move position)

def ArithmeticError.relocate (move : Nat → Nat) : ArithmeticError → ArithmeticError
  | divisionByZero position => divisionByZero (move position)
  | overflow position => overflow (move position)

def EvalError.relocate (move : Nat → Nat) : EvalError → EvalError
  | lexical error => lexical (error.relocate move)
  | grammatical error => grammatical (error.relocate move)
  | arithmetic error => arithmetic (error.relocate move)

/-- The same error at another place. -/
def EvalError.moveTo (error : EvalError) (position : Nat) : EvalError := error.relocate fun _ => position

def Scan.relocate (move : Nat → Nat) (scan : Scan) : Scan :=
  ⟨scan.tokens.map (·.relocate move), (scan.ending.map move).mapError (·.relocate move)⟩

def Pending.relocate (move : Nat → Nat) (p : Pending) : Pending := { p with position := move p.position }

def Level.relocate (move : Nat → Nat) (level : Level) : Level :=
  ⟨level.sum.map (·.relocate move), level.product.map (·.relocate move)⟩

def State.relocate (move : Nat → Nat) : State → State
  | needOperand level outer => needOperand (level.relocate move) (outer.map (·.relocate move))
  | haveOperand value level outer =>
    haveOperand value (level.relocate move) (outer.map (·.relocate move))

theorem EvalError.relocate_eq_moveTo (move : Nat → Nat) (error : EvalError) :
    error.relocate move = error.moveTo (move error.position) := by
  rcases error with error | error | error <;> cases error <;> rfl

/-! ## One token -/

section Steps

variable (move : Nat → Nat)

theorem Operator.apply_relocate (op : Operator) (left right : Word) (position : Nat) :
    op.apply left right (move position) =
      (op.apply left right position).mapError (·.relocate move) := by
  unfold apply
  cases op.result? left.toInt right.toInt with
  | none => rfl
  | some result =>
    dsimp only
    cases Word.ofInt? result <;> rfl

theorem settle_relocate (pending : Option Pending) (right : Word) :
    settle (pending.map (·.relocate move)) right = (settle pending right).mapError (·.relocate move) := by
  cases pending with
  | none => rfl
  | some p =>
    simp only [settle, Option.map_some, Pending.relocate, Operator.apply_relocate]
    cases p.operator.apply p.left right p.position <;> rfl

namespace State

/-- What comes of a token, moved: the next state, or an error. -/
def relocateResult (result : Except EvalError State) : Except EvalError State :=
  (result.map (·.relocate move)).mapError (·.relocate move)

theorem step_relocate (state : State) (t : Placed) :
    (state.relocate move).step (t.relocate move) = relocateResult move (state.step t) := by
  obtain ⟨token, position⟩ := t
  cases state with
  | needOperand level outer =>
    cases token with
    | lparen =>
      simp only [relocate, step, Placed.relocate, List.length_map]
      split <;> rfl
    | _ => rfl
  | haveOperand value level outer =>
    simp only [relocate, step, Placed.relocate, Level.relocate, settle_relocate]
    -- The operations that are owed fail or succeed alike; after that the token decides.
    cases settle level.product value with
    | error error => rfl
    | ok product =>
      simp only [mapError_ok, ok_bind]
      cases hop : Operator.ofToken? token with
      | some op =>
        dsimp only
        split
        · rfl
        · cases settle level.sum product <;> rfl
      | none =>
        dsimp only
        cases settle level.sum product with
        | error error => rfl
        | ok sum => cases token <;> cases outer <;> rfl

theorem finish_relocate (state : State) (position : Nat) :
    (state.relocate move).finish (move position) =
      (state.finish position).mapError (·.relocate move) := by
  cases state with
  | needOperand level outer => rfl
  | haveOperand value level outer =>
    simp only [relocate, finish, Level.relocate, settle_relocate]
    cases settle level.product value with
    | error error => rfl
    | ok product =>
      simp only [mapError_ok, ok_bind]
      cases settle level.sum product with
      | error error => rfl
      | ok sum => cases outer <;> rfl

/-! ## All tokens -/

theorem run_relocate (state : State) (scan : Scan) :
    (state.relocate move).run (scan.relocate move) =
      (state.run scan).mapError (·.relocate move) := by
  obtain ⟨tokens, ending⟩ := scan
  induction tokens generalizing state with
  | nil =>
    cases ending with
    | error error => rfl
    | ok position => exact state.finish_relocate move position
  | cons t tokens ih =>
    have hstep := state.step_relocate move t
    simp only [Scan.relocate, List.map_cons, run_cons] at ih ⊢
    rw [hstep]
    cases state.step t with
    | error error => rfl
    | ok next => exact ih next

end State

/-- **Evaluation does not look at offsets.** -/
theorem Scan.evaluate_relocate (scan : Scan) :
    (scan.relocate move).evaluate = scan.evaluate.mapError (·.relocate move) :=
  State.initial.run_relocate move scan

end Steps

/-! ## Tokens without a line -/

namespace Scan

/-- Tokens, each at its own number, and the end behind them. -/
def numbered (tokens : List Token) : Scan :=
  ⟨tokens.zipIdx.map fun t => ⟨t.1, t.2⟩, .ok tokens.length⟩

/-- The byte offset of the token with this number, or of the end of the line. -/
def offset (line : String) (index : Nat) : Nat := ((placedLine line)[index]?.map (·.position)).getD 0

theorem offset_of_getElem? {line : String} {index : Nat} {t : Placed}
    (h : (placedLine line)[index]? = some t) : offset line index = t.position := by
  rw [offset, h]
  rfl

/-- A line whose text can be read is its tokens, moved to where they stand in it. -/
theorem ofString_eq_numbered {line : String} {tokens : List Token}
    (h : tokenize line = .ok (tokens ++ [.endOfInput])) :
    ofString line = (numbered tokens).relocate (offset line) ∧
      (placedLine line).length = tokens.length + 1 := by
  rcases ofString_cases line with ⟨htokens, hscan⟩ | ⟨error, herror, -⟩
  · obtain rfl : (placedTokens line).map (·.token) = tokens := by simpa [h, eq_comm] using htokens
    refine ⟨?_, by simp [placedLine]⟩
    have hend : (placedLine line)[(placedTokens line).length]? =
        some ⟨.endOfInput, line.utf8ByteSize⟩ := by
      simp [placedLine]
    rw [hscan]
    simp only [numbered, relocate, Scan.mk.injEq, List.length_map, Except.map, mapError_ok]
    refine ⟨?_, by rw [offset_of_getElem? hend]⟩
    refine List.ext_getElem? fun index => ?_
    cases ht : (placedTokens line)[index]? with
    | none => simp [ht]
    | some t =>
      have hline : (placedLine line)[index]? = some t := by
        rw [placedLine, List.getElem?_append_left (List.getElem?_eq_some_iff.mp ht).1, ht]
      simp [ht, Placed.relocate, offset_of_getElem? hline]
  · rw [h] at herror
    cases herror

theorem position_of_numbered {tokens : List Token} {error : EvalError}
    (h : (numbered tokens).evaluate = .error error) : error.position < tokens.length + 1 := by
  have hnumber : ∀ t ∈ (numbered tokens).tokens ++ [⟨.endOfInput, tokens.length⟩],
      t.position < tokens.length + 1 := by
    intro t ht
    rcases List.mem_append.mp ht with ht | ht
    · obtain ⟨⟨token, index⟩, hmem, rfl⟩ := List.mem_map.mp ht
      have := (List.mem_zipIdx' hmem).1
      dsimp only
      omega
    · obtain rfl := List.mem_singleton.mp ht
      exact Nat.lt_succ_self _
  rcases evaluate_eq_error h with
    ⟨before, t, after, state, hsplit, hreach, hstep⟩ | ⟨lexical, hending, -⟩ |
      ⟨size, state, hending, hreach, hfinish⟩
  · obtain ⟨-, t', ht', hposition⟩ := (State.stopsAt_of_step hstep).not_lexical hreach
    rw [← hposition]
    refine hnumber t' ?_
    rw [hsplit]
    simp only [List.mem_append, List.mem_cons] at ht' ⊢
    tauto
  · cases hending
  · obtain rfl := Except.ok.inj hending
    have hstops := State.stopsAt_of_step (State.step_of_finish hfinish)
    obtain ⟨-, t', ht', hposition⟩ := hstops.not_lexical hreach
    rw [← hposition]
    exact hnumber t' ht'

end Scan

/-- A line whose text can be read is evaluated as its tokens are, and an error is found at the token, or
the end, with the number that it has there. -/
theorem evaluate_eq_numbered {line : String} {tokens : List Token}
    (h : tokenize line = .ok (tokens ++ [.endOfInput])) :
    (∀ value, (Scan.numbered tokens).evaluate = .ok value → evaluate line = .ok value) ∧
    ∀ error, (Scan.numbered tokens).evaluate = .error error →
      ∃ t, (placedLine line)[error.position]? = some t ∧
        evaluate line = .error (error.moveTo t.position) := by
  obtain ⟨hscan, hlength⟩ := Scan.ofString_eq_numbered h
  rw [evaluate, hscan, Scan.evaluate_relocate]
  constructor
  · intro value hvalue
    rw [hvalue, mapError_ok]
  · intro error herror
    have hbound := Scan.position_of_numbered herror
    rw [← hlength] at hbound
    have hget := List.getElem?_eq_getElem hbound
    refine ⟨_, hget, ?_⟩
    rw [herror, mapError_error, error.relocate_eq_moveTo, Scan.offset_of_getElem? hget]

/-- **The value of a line depends on its tokens alone.** If two lines have the same tokens, either both
have the same value, or both end in the same error, up to its place; and the places are those of the
tokens with one and the same number in the two lines, or their ends. -/
theorem evaluate_of_tokenize_eq (line line' : String) (tokens : List Token)
    (h : tokenize line = .ok tokens) (h' : tokenize line' = .ok tokens) :
    (∃ value, evaluate line = .ok value ∧ evaluate line' = .ok value) ∨
    ∃ (error : EvalError) (index : Nat) (t t' : Placed),
      (placedLine line)[index]? = some t ∧ (placedLine line')[index]? = some t' ∧
      evaluate line = .error (error.moveTo t.position) ∧
      evaluate line' = .error (error.moveTo t'.position) := by
  rcases Scan.ofString_cases line with ⟨htokens, -⟩ | ⟨error, herror, -⟩
  · obtain rfl := Except.ok.inj (htokens.symm.trans h)
    obtain ⟨hvalue, herror⟩ := evaluate_eq_numbered h
    obtain ⟨hvalue', herror'⟩ := evaluate_eq_numbered h'
    cases hbare : (Scan.numbered ((placedTokens line).map (·.token))).evaluate with
    | ok value => exact .inl ⟨value, hvalue value hbare, hvalue' value hbare⟩
    | error error =>
      obtain ⟨t, ht, hline⟩ := herror error hbare
      obtain ⟨t', ht', hline'⟩ := herror' error hbare
      exact .inr ⟨error, error.position, t, t', ht, ht', hline, hline'⟩
  · rw [h] at herror
    cases herror

/-- The same division by zero, with other spaces and zeros. -/
theorem evaluate_respaced :
    tokenize "(7-3)/(2-02)" = tokenize "( 007 - 3 ) /(2- 2 )" ∧
    ((∃ value, evaluate "(7-3)/(2-02)" = .ok value ∧ evaluate "( 007 - 3 ) /(2- 2 )" = .ok value) ∨
      ∃ (error : EvalError) (index : Nat) (t t' : Placed),
        (placedLine "(7-3)/(2-02)")[index]? = some t ∧
        (placedLine "( 007 - 3 ) /(2- 2 )")[index]? = some t' ∧
        evaluate "(7-3)/(2-02)" = .error (error.moveTo t.position) ∧
        evaluate "( 007 - 3 ) /(2- 2 )" = .error (error.moveTo t'.position)) := by
  have hfirst : tokenize "(7-3)/(2-02)" = .ok [.lparen, .integer 7, .minus, .integer 3, .rparen, .div,
      .lparen, .integer 2, .minus, .integer 2, .rparen, .endOfInput] := by
    rw [tokenize_eq_mapM]
    rfl
  have hsecond : tokenize "( 007 - 3 ) /(2- 2 )" = .ok [.lparen, .integer 7, .minus, .integer 3, .rparen,
      .div, .lparen, .integer 2, .minus, .integer 2, .rparen, .endOfInput] := by
    rw [tokenize_eq_mapM]
    rfl
  exact ⟨hfirst.trans hsecond.symm, evaluate_of_tokenize_eq _ _ _ hfirst hsecond⟩

end LineCalc
