/-
Recursive descent and evaluation in one pass agree, in the result and in all records.

What a state of the one-pass evaluation will make of the token that a reader has read, and of all text
behind it, is its `answer`. A procedure that succeeds carries the answer on, from the state that needs
its operand to the state that has it (`Parses`); a procedure that fails gives the answer.
-/
import LineCalc.Descent
import LineCalc.Proofs.Evaluation

namespace LineCalc

theorem Token.kind_eq_rparen_iff {token : Token} : token.kind = .rparen ↔ token = .rparen := by
  cases token <;> simp [kind]

theorem Token.kind_eq_endOfInput_iff {token : Token} : token.kind = .endOfInput ↔ token = .endOfInput := by
  cases token <;> simp [kind]

theorem Operator.kind_of_ofToken? {token : Token} {op : Operator} (h : ofToken? token = some op) :
    token.kind = op.tokenKind := by
  unfold ofToken? at h
  split at h <;> cases h <;> rfl

/-- How an evaluation comes out: the value or an error, and all records. -/
abbrev Answer := Except EvalError Word × List Record

/-- The records of evaluating a scan from a state on. -/
def State.recordsOn (state : State) (scan : Scan) : List Record :=
  state.records scan.tokens scan.ending

/-! ## What is still to come -/

namespace State

/-- What the next token makes of a state: the state behind it, or at the end of the line its value. -/
def look (state : State) (t : Placed) : Except EvalError (State ⊕ Word) :=
  if t.token = .endOfInput then .inr <$> state.finish t.position else .inl <$> state.step t

/-- How an evaluation comes out that is in this state, with the reader's token already read. -/
def answer (state : State) (r : Reader) : Answer :=
  match state.look r.current with
  | .error error => (.error error, r.log)
  | .ok (.inr value) => (.ok value, r.log ++ [.eaten .endOfInput r.current.position])
  | .ok (.inl next) => (next.run r.lexer.scan,
      r.log ++ .eaten r.current.token.kind r.current.position :: next.recordsOn r.lexer.scan)

theorem look_of_step {state next : State} {t : Placed} (ht : t.token ≠ .endOfInput)
    (h : state.step t = .ok next) : state.look t = .ok (.inl next) := by
  rw [look, if_neg ht, h]
  rfl

theorem look_of_step_error {state : State} {t : Placed} {error : EvalError}
    (ht : t.token ≠ .endOfInput) (h : state.step t = .error error) : state.look t = .error error := by
  rw [look, if_neg ht, h]
  rfl

theorem answer_congr {state other : State} {r : Reader}
    (h : state.look r.current = other.look r.current) : state.answer r = other.answer r := by
  rw [answer, answer, h]

theorem answer_of_nextToken (state : State) {lexer after : Lexer} {token : Token}
    (hnext : lexer.nextToken = (.ok token, after)) (r : Reader) (log : List Record)
    (hlexer : r.lexer = after) (hcurrent : r.current = ⟨token, after.position⟩)
    (hlog : r.log = if token = .endOfInput then log else log ++ [.lexed r.current]) :
    state.answer r = (state.run lexer.scan, log ++ state.recordsOn lexer.scan) := by
  rw [Lexer.scan_eq, hnext, answer, hlexer]
  dsimp only
  by_cases hend : token = .endOfInput
  · rw [if_pos hend] at hlog ⊢
    rw [look, if_pos (by rw [hcurrent]; exact hend), run_nil, hcurrent, hlog]
    cases hfinish : state.finish after.position <;> simp [recordsOn, records, hfinish]
  · rw [if_neg hend] at hlog ⊢
    rw [look, if_neg (by rw [hcurrent]; exact hend), Scan.cons, run_cons, hlog, hcurrent]
    cases hstep : state.step ⟨token, after.position⟩ <;> simp [recordsOn, records, hstep]

end State

namespace Reader

/-- Reading a token is no step of the evaluation: whatever its state, it comes out as before. -/
theorem read_cases (lexer : Lexer) (depth : Nat) (log : List Record) :
    (∃ error, read lexer depth log = .error error ∧ lexer.scan = ⟨[], .error error⟩) ∨
      ∃ r, read lexer depth log = .ok r ∧ r.depth = depth ∧
        ∀ state : State, state.answer r = (state.run lexer.scan, log ++ state.recordsOn lexer.scan) := by
  unfold read
  split
  next error after hnext => exact .inl ⟨error, rfl, by rw [Lexer.scan_eq, hnext]⟩
  next token after hnext =>
    exact .inr ⟨_, rfl, rfl, fun state => state.answer_of_nextToken hnext _ log rfl rfl rfl⟩

theorem read_of_rest_eq_nil {lexer : Lexer} (h : lexer.rest = []) (depth : Nat) (log : List Record) :
    read lexer depth log =
      .ok ⟨lexer.past lexer.cursor 0 [], ⟨.endOfInput, lexer.cursor⟩, depth, log, fun _ => rfl⟩ := by
  have hnext : lexer.nextToken = (.ok .endOfInput, lexer.past lexer.cursor 0 []) := by
    simp [Lexer.nextToken, h]
  unfold read
  split
  next error after hother => cases hnext.symm.trans hother
  next token after hother =>
    cases hnext.symm.trans hother
    rfl

end Reader

/-! ## Procedures -/

/-- A procedure has its part in an evaluation that comes out so: if it fails, that is how. -/
def Accords {α : Type} (outcome : Answer) (after : α → Prop) : Except Failure α → Prop
  | .error failure => outcome = (.error failure.error, failure.log)
  | .ok a => after a

theorem Accords.bind {α β : Type} {outcome : Answer} {after : α → Prop} {final : β → Prop}
    {x : Except Failure α} {f : α → Except Failure β} (h : Accords outcome after x)
    (hf : ∀ a, after a → Accords outcome final (f a)) : Accords outcome final (x >>= f) := by
  cases x with
  | error failure => exact h
  | ok a => exact hf a h

theorem Accords.imp {α : Type} {outcome : Answer} {after final : α → Prop} {x : Except Failure α}
    (h : Accords outcome after x) (himp : ∀ a, after a → final a) : Accords outcome final x := by
  cases x with
  | error failure => exact h
  | ok a => exact himp a h

/-- Where the next token is an error, all procedures fail. -/
theorem accords_error {α : Type} {outcome : Answer} {state : State} {r : Reader} {error : EvalError}
    {after : α → Prop} (hanswer : state.answer r = outcome) (hlook : state.look r.current = .error error) :
    Accords outcome after (.error ⟨error, r.log⟩) := by
  rw [State.answer, hlook] at hanswer
  exact hanswer.symm

/-- An evaluation that comes out so is in this state, at this reader. -/
structure At (outcome : Answer) (state : State) (r : Reader) : Prop where
  answer_eq : state.answer r = outcome
  depth_eq : r.depth = state.depth

namespace Reader

variable {outcome : Answer} {state next : State} {r : Reader} {kind : Token.Kind}

theorem accords_eat (hanswer : state.answer r = outcome) (hkind : r.current.token.kind = kind)
    (hend : kind ≠ .endOfInput) (hstep : state.step r.current = .ok next) :
    Accords outcome (fun p => next.answer p.val = outcome ∧ p.val.depth = r.depth) (r.eat kind) := by
  have hne : r.current.token ≠ .endOfInput := fun h =>
    hend (hkind ▸ Token.kind_eq_endOfInput_iff.mpr h)
  have hlook := State.look_of_step hne hstep
  rw [State.answer, hlook] at hanswer
  subst hanswer hkind
  rw [eat, dif_pos rfl]
  dsimp only
  split
  next error hread =>
    rcases read_cases r.lexer r.depth _ with ⟨other, hother, hscan⟩ | ⟨_, hother, -⟩
    · obtain rfl := Except.error.inj (hother.symm.trans hread)
      simp only [Accords, hscan, State.run_nil, State.recordsOn, State.records]
      rfl
    · cases hother.symm.trans hread
  next r' hread =>
    rcases read_cases r.lexer r.depth _ with ⟨_, hother, -⟩ | ⟨other, hother, hdepth, hanswer⟩
    · cases hother.symm.trans hread
    · obtain rfl := Except.ok.inj (hother.symm.trans hread)
      exact ⟨by simp [hanswer], hdepth⟩

theorem accords_eat_of_ne (hanswer : state.answer r = outcome) (hkind : r.current.token.kind ≠ kind)
    (hlook : state.look r.current = .error (State.unexpected kind r.current))
    {after : { next : Reader // kind ≠ .endOfInput → next.left < r.left } → Prop} :
    Accords outcome after (r.eat kind) := by
  rw [eat, dif_neg hkind]
  exact accords_error hanswer hlook

end Reader

/-! ## Tiers and phrases -/

namespace Phrase

/-- The tokens at which a procedure for a phrase of each sort stops. -/
def Stops : Phrase → Token → Prop
  | .expr, token => Operator.ofToken? token = none
  | .term, token => ∀ op, Operator.ofToken? token = some op → op.isMultiplicative = false
  | .factor, _ => True

end Phrase

namespace Tier

/-- A chain of a tier as a phrase. -/
def phrase : Tier → Phrase
  | sum => .expr
  | product => .term

/-- An operand of a tier as a phrase. -/
def part : Tier → Phrase
  | sum => .term
  | product => .factor

/-- What is owed behind an operator of a tier. -/
def owing : Tier → Level → Pending → Level
  | sum, _, p => ⟨some p, none⟩
  | product, level, p => ⟨level.sum, some p⟩

variable {tier : Tier} {level : Level} {outer : List Level} {t : Placed} {op : Operator} {value : Word}

theorem part_fits (h : tier.phrase.Fits level) : tier.part.Fits level := by
  cases tier with
  | sum =>
    obtain rfl : level = .empty := h
    rfl
  | product => trivial

theorem part_fits_owing (tier : Tier) (level : Level) (p : Pending) :
    tier.part.Fits (tier.owing level p) := by
  cases tier with
  | sum => rfl
  | product => trivial

theorem step_operator (hfits : tier.phrase.Fits level) (hop : Operator.ofToken? t.token = some op)
    (hhas : tier.has op) : (State.haveOperand value level outer).step t =
      .ok (.needOperand (tier.owing level ⟨value, op, t.position⟩) outer) := by
  cases tier with
  | sum =>
    obtain rfl : level = .empty := hfits
    simp [State.step, hop, Operator.isMultiplicative_of_isAdditive hhas, Level.empty, owing, pure,
      Except.pure]
  | product =>
    have hmul : op.isMultiplicative := hhas
    have hproduct : level.product = none := hfits
    simp [State.step, hop, hmul, hproduct, owing, pure, Except.pure]

/-- Behind its right operand the operation is carried out, before anything else is asked of the next
token. -/
theorem look_owing (hfits : tier.phrase.Fits level) (hstops : tier.part.Stops t.token) (p : Pending) :
    (State.haveOperand value (tier.owing level p) outer).look t =
      settle (some p) value >>= fun result => (State.haveOperand result level outer).look t := by
  cases tier with
  | sum =>
    obtain rfl : level = .empty := hfits
    cases hs : settle (some p) value with
    | error error =>
      cases hop : Operator.ofToken? t.token with
      | none => simp [State.look, State.step, State.finish, owing, hs, hop]
      | some op => simp [State.look, State.step, State.finish, owing, hs, hop, hstops op hop]
    | ok result =>
      cases hop : Operator.ofToken? t.token with
      | none => simp [State.look, State.step, State.finish, owing, hs, hop, Level.empty]
      | some op => simp [State.look, State.step, State.finish, owing, hs, hop, hstops op hop, Level.empty]
  | product =>
    have hproduct : level.product = none := hfits
    cases hs : settle (some p) value with
    | error error => simp [State.look, State.step, State.finish, owing, hs]
    | ok result => simp [State.look, State.step, State.finish, owing, hs, hproduct]

theorem accords_apply {outcome : Answer} {behind : Reader} {left : Word} {position : Nat}
    (hfits : tier.phrase.Fits level) (hstops : tier.part.Stops behind.current.token)
    (h : At outcome (.haveOperand value (tier.owing level ⟨left, op, position⟩) outer) behind) :
    Accords outcome (fun result => At outcome (.haveOperand result level outer) behind)
      ((op.apply left value position).mapError (⟨.arithmetic ·, behind.log⟩)) := by
  have hlook := @look_owing _ _ outer _ value hfits hstops ⟨left, op, position⟩
  rw [settle] at hlook
  cases happly : op.apply left value position with
  | error fault =>
    rw [happly] at hlook
    exact accords_error h.answer_eq hlook
  | ok result =>
    rw [happly] at hlook
    exact ⟨(State.answer_congr hlook).symm.trans h.answer_eq, h.depth_eq⟩

/-- Where a chain stops: neither an operator of the tier nor one of a tighter tier is there. -/
theorem phrase_stops {token : Token} (hstops : tier.part.Stops token)
    (h : ∀ op, Operator.ofToken? token = some op → tier.has op = false) : tier.phrase.Stops token := by
  cases tier with
  | sum =>
    cases hop : Operator.ofToken? token with
    | none => exact hop
    | some op =>
      have hadd : op.isAdditive = false := h op hop
      have hmul : op.isMultiplicative = false := hstops op hop
      cases op <;> cases hadd <;> cases hmul
  | product => exact h

end Tier

/-! ## Each procedure does what its rule says -/

/-- A procedure that was called with this reader reads a phrase of this sort: where its operand is
needed, it leaves off with the operand there. -/
def Parses (sort : Phrase) (r : Reader) (result : Except Failure r.Reached) : Prop :=
  ∀ {outcome : Answer} {level : Level} {outer : List Level}, sort.Fits level →
    At outcome (.needOperand level outer) r →
    Accords outcome (fun p => At outcome (.haveOperand p.value level outer) p.reader ∧
      sort.Stops p.reader.current.token) result

namespace State

theorem look_needOperand {level : Level} {outer : List Level} {t : Placed}
    (hinteger : t.token.kind ≠ .integer) (hlparen : t.token.kind ≠ .lparen) :
    (needOperand level outer).look t = .error (unexpected .integer t) := by
  obtain ⟨token, position⟩ := t
  cases token with
  | integer value => exact absurd rfl hinteger
  | lparen => exact absurd rfl hlparen
  | _ => rfl

theorem look_closer {value : Word} {outer : List Level} {t : Placed}
    (hstops : Phrase.expr.Stops t.token) (hkind : t.token.kind ≠ closer outer) :
    (haveOperand value .empty outer).look t = .error (unexpected (closer outer) t) := by
  obtain ⟨token, position⟩ := t
  cases token with
  | integer value => rfl
  | lparen => rfl
  | rparen => cases outer with
    | nil => rfl
    | cons next outer => exact absurd rfl hkind
  | endOfInput => cases outer with
    | nil => exact absurd rfl hkind
    | cons next outer => rfl
  | _ => cases hstops

end State

theorem accords_rparen {outcome : Answer} {value : Word} {level : Level} {outer : List Level}
    {inner : Reader} (h : At outcome (.haveOperand value .empty (level :: outer)) inner)
    (hstops : Phrase.expr.Stops inner.current.token) :
    Accords outcome (fun p => At outcome (.haveOperand value level outer) p.val)
      (inner.leave.eat .rparen) := by
  have hanswer : (State.haveOperand value .empty (level :: outer)).answer inner.leave = outcome := h.answer_eq
  have hdepth : inner.leave.depth = outer.length := by
    rw [Reader.leave, h.depth_eq]
    rfl
  by_cases hkind : inner.current.token.kind = .rparen
  · have hstep : (State.haveOperand value .empty (level :: outer)).step inner.current =
        .ok (.haveOperand value level outer) := by
      simp [State.step, Token.kind_eq_rparen_iff.mp hkind, Operator.ofToken?, Level.empty]
    refine (Reader.accords_eat hanswer hkind (by decide) hstep).imp ?_
    rintro ⟨last, less⟩ ⟨hlast, hkept⟩
    exact ⟨hlast, hkept.trans hdepth⟩
  · exact Reader.accords_eat_of_ne hanswer hkind (State.look_closer hstops hkind)

theorem accords_end {outcome : Answer} {value : Word} {r : Reader}
    (h : (State.haveOperand value .empty []).answer r = outcome)
    (hstops : Phrase.expr.Stops r.current.token) :
    Accords outcome (fun p => outcome = (.ok value, p.val.log)) (r.eat .endOfInput) := by
  by_cases hkind : r.current.token.kind = .endOfInput
  · have hend := Token.kind_eq_endOfInput_iff.mp hkind
    have hlook : (State.haveOperand value .empty []).look r.current = .ok (.inr value) := by
      rw [State.look, if_pos hend]
      rfl
    rw [State.answer, hlook] at h
    rw [Reader.eat, dif_pos hkind]
    dsimp only
    -- There is only the end of the line again to be read, and that is not recorded.
    split
    next error hread =>
      rw [Reader.read_of_rest_eq_nil (r.rest_eq hend)] at hread
      cases hread
    next last hread =>
      rw [Reader.read_of_rest_eq_nil (r.rest_eq hend)] at hread
      cases hread
      exact h.symm
  · exact Reader.accords_eat_of_ne h hkind (State.look_closer hstops hkind)

namespace Descent

mutual

theorem parses_operand (tier : Tier) (r : Reader) : Parses tier.part r (operand tier r) := by
  cases tier with
  | sum =>
    rw [operand]
    exact parses_chain .product r
  | product =>
    rw [operand]
    exact parses_factor r
termination_by (r.left, tier.rank)
decreasing_by all_goals exact Prod.Lex.right _ (by decide)

theorem parses_chain (tier : Tier) (r : Reader) : Parses tier.phrase r (chain tier r) := by
  intro outcome level outer hfits hat
  rw [chain]
  refine (parses_operand tier r (Tier.part_fits hfits) hat).bind ?_
  rintro ⟨value, next, le⟩ ⟨hnext, hstops⟩
  refine (parses_more tier value next hfits hnext hstops).bind ?_
  intro last hlast
  exact hlast
termination_by (r.left, tier.rank + 1)
decreasing_by
  · exact Prod.Lex.right _ (Nat.lt_succ_self _)
  · exact Prod.Lex.right' _ le (Nat.succ_pos _)

/-- With an operand there, the rest of a chain keeps it up to date. -/
theorem parses_more (tier : Tier) (value : Word) (r : Reader) {outcome : Answer} {level : Level}
    {outer : List Level} (hfits : tier.phrase.Fits level)
    (hat : At outcome (.haveOperand value level outer) r) (hstops : tier.part.Stops r.current.token) :
    Accords outcome (fun p => At outcome (.haveOperand p.value level outer) p.reader ∧
      tier.phrase.Stops p.reader.current.token) (more tier value r) := by
  rw [more]
  split
  next hop => exact ⟨hat, Tier.phrase_stops hstops (by simp [hop])⟩
  next op hop =>
    split
    next hhas =>
      have hstep := @Tier.step_operator _ _ outer _ _ value hfits hop hhas
      refine (Reader.accords_eat hat.answer_eq (Operator.kind_of_ofToken? hop)
        op.tokenKind_ne_endOfInput hstep).bind ?_
      rintro ⟨next, less⟩ ⟨hanswer, hdepth⟩
      have less : next.left < r.left := less op.tokenKind_ne_endOfInput
      refine (parses_operand tier next (tier.part_fits_owing level _)
        ⟨hanswer, hdepth.trans hat.depth_eq⟩).bind ?_
      rintro ⟨right, behind, le⟩ ⟨hright, hbehind⟩
      have less' : behind.left < r.left := Nat.lt_of_le_of_lt le less
      refine (Tier.accords_apply hfits hbehind hright).bind ?_
      intro result hresult
      refine (parses_more tier result behind hfits hresult hbehind).bind ?_
      intro last hlast
      exact hlast
    next hhas =>
      refine ⟨hat, Tier.phrase_stops hstops fun op' hop' => ?_⟩
      obtain rfl := Option.some.inj (hop.symm.trans hop')
      exact Bool.eq_false_iff.mpr hhas
termination_by (r.left, 0)

theorem parses_factor (r : Reader) : Parses .factor r (factor r) := by
  intro outcome level outer hfits hat
  rw [factor]
  split
  next value htoken =>
    have hstep : (State.needOperand level outer).step r.current = .ok (.haveOperand value level outer) := by
      simp [State.step, htoken]
    refine (Reader.accords_eat hat.answer_eq (by rw [htoken]; rfl) (by decide) hstep).bind ?_
    rintro ⟨next, less⟩ ⟨hanswer, hdepth⟩
    exact ⟨⟨hanswer, hdepth.trans hat.depth_eq⟩, trivial⟩
  next htoken =>
    have hdepth : r.depth = outer.length := hat.depth_eq
    split
    next hfull =>
      have hstep : (State.needOperand level outer).step r.current =
          .error (.grammatical (.nestingTooDeep maxNesting r.current.position)) := by
        simp [State.step, htoken, ← hdepth, hfull]
      have hlook := State.look_of_step_error (by simp [htoken]) hstep
      exact accords_error hat.answer_eq hlook
    next hroom =>
      have hstep : (State.needOperand level outer).step r.current =
          .ok (.needOperand .empty (level :: outer)) := by
        simp [State.step, htoken, ← hdepth, Nat.lt_of_not_le hroom]
      refine (Reader.accords_eat hat.answer_eq (by rw [htoken]; rfl) (by decide) hstep).bind ?_
      rintro ⟨next, less⟩ ⟨hanswer, hnext⟩
      have less : next.enter.left < r.left := less (by decide)
      have hinside : At outcome (.needOperand .empty (level :: outer)) next.enter :=
        ⟨hanswer, congrArg (· + 1) (hnext.trans hdepth)⟩
      refine (parses_chain .sum next.enter rfl hinside).bind ?_
      rintro ⟨value, inner, le⟩ ⟨hinner, hstops⟩
      refine (accords_rparen hinner hstops).bind ?_
      rintro ⟨last, less'⟩ hlast
      exact ⟨hlast, trivial⟩
  all_goals
    rename_i htoken
    have hlook := @State.look_needOperand level outer r.current (by simp [htoken, Token.kind])
      (by simp [htoken, Token.kind])
    exact accords_error hat.answer_eq hlook
termination_by (r.left, 1)

end

/-- A whole line comes out as its evaluation does. -/
theorem accords_line {outcome : Answer} {r : Reader} (h : At outcome .initial r) :
    Accords outcome (fun p => outcome = (.ok p.1, p.2)) (line r) := by
  rw [line]
  refine (parses_chain .sum r rfl h).bind ?_
  rintro ⟨value, behind, le⟩ ⟨hbehind, hstops⟩
  refine (accords_end hbehind.answer_eq hstops).bind ?_
  intro last hlast
  exact hlast

end Descent

/-- **Recursive descent is evaluation in one pass**, in the result and in all records. -/
theorem Descent.evaluate_eq (source : String) :
    Descent.evaluate source = (LineCalc.evaluate source, (Scan.ofString source).evaluationRecords) := by
  rw [Descent.evaluate]
  rcases Reader.read_cases (Lexer.ofString source) 0 [] with
    ⟨error, hread, hscan⟩ | ⟨r, hread, hdepth, hanswer⟩
  · rw [Reader.start, hread]
    simp only [LineCalc.evaluate, Scan.evaluate, Scan.evaluationRecords, Scan.ofString, hscan]
    rfl
  · rw [Reader.start, hread]
    have hline := accords_line ⟨hanswer .initial, hdepth⟩
    dsimp only
    split
    next failure hfailure =>
      rw [hfailure] at hline
      exact hline.symm
    next value log hok =>
      rw [hok] at hline
      exact hline.symm

end LineCalc
