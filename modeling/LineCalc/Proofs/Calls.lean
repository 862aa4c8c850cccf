/-
The calls of recursive descent, one after the other. The procedures for expressions, terms and factors call
each other; what a procedure waits for that has called another one is a `Frame`, and the frames of all that
wait, the innermost first, are the stack. A `Moment` is the entry to a procedure, the return from one, or the
end of it all, and `Moment.next?` goes from one moment to the next.

The entry to a procedure leads to its return, with the result of that procedure and the stack it was entered
with (`Descent.leads_procedure`), and so the entry to the expression of a line leads to the result of the line
(`Descent.leads_line`). What holds at all moments that are passed holds throughout the descent.
-/
import LineCalc.Proofs.Descent
import Mathlib.Logic.Relation

namespace LineCalc

namespace Descent

/-- What a procedure waits for that has called another one. -/
inductive Frame where
  /-- An expression or a term waits for its first operand. -/
  | first (tier : Tier)
  /-- An expression or a term waits for the operand behind an operator. -/
  | right (tier : Tier) (pending : Pending)
  /-- A factor waits for the expression in its parentheses. -/
  | group
  deriving DecidableEq, Repr

/-- A descent between two calls or returns. -/
inductive Moment where
  /-- The procedure for a phrase of this sort is entered. -/
  | call (sort : Phrase) (r : Reader) (stack : List Frame)
  /-- A procedure has returned this value, and the stack is what it was at its entry. -/
  | back (value : Word) (r : Reader) (stack : List Frame)
  /-- The line has been evaluated, or evaluation has stopped at an error. -/
  | ended (result : Except Failure (Word × List Record))

namespace Moment

/-- What comes of something that may fail: the end, if it does. -/
def attempt {α : Type} (x : Except Failure α) (go : α → Moment) : Moment :=
  match x with
  | .error failure => .ended (.error failure)
  | .ok a => go a

/-- In an expression or a term that is worth `value` so far: behind an operator of the tier comes one more
operand, and in front of any other token the procedure returns. -/
def more (tier : Tier) (value : Word) (r : Reader) (stack : List Frame) : Moment :=
  match Operator.ofToken? r.current.token with
  | none => .back value r stack
  | some op =>
    if tier.has op then
      attempt (r.eat op.tokenKind) fun next =>
        .call tier.part next (.right tier ⟨value, op, r.current.position⟩ :: stack)
    else .back value r stack

/-- In a factor: a number is its value, and an opening parenthesis has an expression behind it. -/
def factor (r : Reader) (stack : List Frame) : Moment :=
  match r.current.token with
  | .integer value => attempt (r.eat .integer) fun next => .back value next stack
  | .lparen =>
    if maxNesting ≤ r.depth then
      .ended (.error ⟨.grammatical (.nestingTooDeep maxNesting r.current.position), r.log⟩)
    else attempt (r.eat .lparen) fun next => .call .expr next.val.enter (.group :: stack)
  | .plus | .minus | .mul | .div | .rparen | .endOfInput =>
    .ended (.error ⟨State.unexpected .integer r.current, r.log⟩)

/-- The moment behind this one. -/
def next? : Moment → Option Moment
  | .call .expr r stack => some (.call .term r (.first .sum :: stack))
  | .call .term r stack => some (.call .factor r (.first .product :: stack))
  | .call .factor r stack => some (factor r stack)
  | .back value r (.first tier :: stack) => some (more tier value r stack)
  | .back value r (.right tier p :: stack) => some <|
    attempt ((p.operator.apply p.left value p.position).mapError (⟨.arithmetic ·, r.log⟩)) fun result =>
      more tier result r stack
  | .back value r (.group :: stack) => some <|
    attempt (r.leave.eat .rparen) fun last => .back value last stack
  | .back value r [] => some <|
    attempt (r.eat .endOfInput) fun last => .ended (.ok (value, last.val.log))
  | .ended _ => none

/-- How a procedure returns that was called with this stack, or fails. -/
def returned {r : Reader} (stack : List Frame) (result : Except Failure r.Reached) : Moment :=
  attempt result fun p => .back p.value p.reader stack

theorem attempt_bind {α β : Type} (x : Except Failure α) (f : α → Except Failure β) (go : β → Moment) :
    attempt (x >>= f) go = attempt x fun a => attempt (f a) go := by
  cases x <;> rfl

theorem returned_within {r next : Reader} (stack : List Frame) (result : Except Failure next.Reached)
    (le : next.left ≤ r.left) :
    returned stack (result >>= fun p => pure (p.within le)) = returned stack result := by
  cases result <;> rfl

theorem next?_call_phrase (tier : Tier) (r : Reader) (stack : List Frame) :
    (call tier.phrase r stack).next? = some (call tier.part r (.first tier :: stack)) := by
  cases tier <;> rfl

end Moment

/-- Some number of moments further. -/
def Leads : Moment → Moment → Prop := Relation.ReflTransGen fun m next => m.next? = some next

namespace Leads

theorem refl (m : Moment) : Leads m m := Relation.ReflTransGen.refl

theorem head {m next last : Moment} (h : m.next? = some next) (hlast : Leads next last) : Leads m last :=
  Relation.ReflTransGen.head h hlast

/-- If it fails, that is the end anyway. -/
theorem attempt {α : Type} {m : Moment} {x : Except Failure α} {go last : α → Moment}
    (h : Leads m (.attempt x go)) (hgo : ∀ a, Leads (go a) (last a)) : Leads m (.attempt x last) := by
  cases x with
  | error failure => exact h
  | ok a => exact Relation.ReflTransGen.trans h (hgo a)

end Leads

mutual

theorem leads_operand (tier : Tier) (r : Reader) (stack : List Frame) :
    Leads (.call tier.part r stack) (.returned stack (operand tier r)) := by
  cases tier with
  | sum =>
    rw [operand]
    exact leads_chain .product r stack
  | product =>
    rw [operand]
    exact leads_factor r stack
termination_by (r.left, tier.rank)
decreasing_by all_goals exact Prod.Lex.right _ (by decide)

theorem leads_chain (tier : Tier) (r : Reader) (stack : List Frame) :
    Leads (.call tier.phrase r stack) (.returned stack (chain tier r)) := by
  rw [chain, Moment.returned, Moment.attempt_bind]
  refine .head (Moment.next?_call_phrase tier r stack) ((leads_operand tier r _).attempt ?_)
  rintro ⟨value, next, le⟩
  have hmore := leads_more tier value next stack
  rw [← Moment.returned_within stack _ le] at hmore
  exact .head rfl hmore
termination_by (r.left, tier.rank + 1)
decreasing_by
  · exact Prod.Lex.right _ (Nat.lt_succ_self _)
  · exact Prod.Lex.right' _ le (Nat.succ_pos _)

theorem leads_more (tier : Tier) (value : Word) (r : Reader) (stack : List Frame) :
    Leads (.more tier value r stack) (.returned stack (more tier value r)) := by
  rw [more]
  split
  next hop =>
    simp only [Moment.more, hop]
    exact .refl _
  next op hop =>
    simp only [Moment.more, hop]
    split
    next hhas =>
      rw [Moment.returned, Moment.attempt_bind]
      refine (Leads.refl _).attempt ?_
      rintro ⟨next, less⟩
      have less : next.left < r.left := less op.tokenKind_ne_endOfInput
      rw [Moment.attempt_bind]
      refine (leads_operand tier next _).attempt ?_
      rintro ⟨right, behind, le⟩
      have less' : behind.left < r.left := Nat.lt_of_le_of_lt le less
      rw [Moment.attempt_bind]
      refine Leads.attempt (.head rfl (.refl _)) ?_
      intro result
      have hmore := leads_more tier result behind stack
      rw [← Moment.returned_within stack _ (Nat.le_of_lt less')] at hmore
      exact hmore
    next hhas => exact .refl _
termination_by (r.left, 0)

theorem leads_factor (r : Reader) (stack : List Frame) :
    Leads (.call .factor r stack) (.returned stack (factor r)) := by
  have hfirst : (Moment.call .factor r stack).next? = some (.factor r stack) := rfl
  refine .head hfirst ?_
  rw [factor]
  split
  next value htoken =>
    simp only [Moment.factor, htoken]
    rw [Moment.returned, Moment.attempt_bind]
    exact (Leads.refl _).attempt fun next => .refl _
  next htoken =>
    simp only [Moment.factor, htoken]
    split
    next hfull => exact .refl _
    next hroom =>
      rw [Moment.returned, Moment.attempt_bind]
      refine (Leads.refl _).attempt ?_
      rintro ⟨next, less⟩
      have less : next.enter.left < r.left := less (by decide)
      rw [Moment.attempt_bind]
      refine (leads_chain .sum next.enter _).attempt ?_
      rintro ⟨value, inner, le⟩
      rw [Moment.attempt_bind]
      exact Leads.attempt (.head rfl (.refl _)) fun last => .refl _
  all_goals
    rename_i htoken
    simp only [Moment.factor, htoken]
    exact .refl _
termination_by (r.left, 1)

end

/-- The procedure for a phrase of each sort. -/
def procedure (sort : Phrase) (r : Reader) : Except Failure r.Reached :=
  match sort with
  | .expr => chain .sum r
  | .term => chain .product r
  | .factor => factor r

theorem leads_procedure (sort : Phrase) (r : Reader) (stack : List Frame) :
    Leads (.call sort r stack) (.returned stack (procedure sort r)) := by
  cases sort with
  | expr => exact leads_chain .sum r stack
  | term => exact leads_chain .product r stack
  | factor => exact leads_factor r stack

/-- **The moments of a line lead to what its procedures give.** -/
theorem leads_line (r : Reader) : Leads (.call .expr r []) (.ended (line r)) := by
  have hend : ∀ result, Moment.attempt result (fun p => .ended (.ok p)) = .ended result := by
    intro result
    cases result <;> rfl
  rw [← hend, line, Moment.attempt_bind]
  refine (leads_procedure .expr r []).attempt ?_
  rintro ⟨value, behind, le⟩
  rw [Moment.attempt_bind]
  exact Leads.attempt (.head rfl (.refl _)) fun last => .refl _

/-- The descent over what a lexer has left passes this moment. -/
def Passes (l : Lexer) (m : Moment) : Prop :=
  ∃ r, Reader.start l = .ok r ∧ Leads (.call .expr r []) m

end Descent

end LineCalc
