/-
Evaluation by recursive descent, the way the grammar reads: one procedure for each rule, which works
its value out while it matches.

    line   := expr EOF
    expr   := term (("+" | "-") term)*
    term   := factor (("*" | "/") factor)*
    factor := INTEGER | "(" expr ")"

A reader holds one token that has been read and not been gone past. The procedures look at this token,
and go past it by `eat` alone, which reads the next one. Either is recorded.
-/
import LineCalc.Trace

namespace LineCalc

/-- Behind the end of the line there is nothing. -/
theorem Lexer.rest_of_nextToken {l after : Lexer} (h : l.nextToken = (.ok .endOfInput, after)) :
    after.rest = [] := by
  unfold nextToken at h
  dsimp only at h
  split at h
  · cases h
    rfl
  · split at h <;> split at h
    · cases h
    · cases h
    · rename_i hchar
      obtain rfl := Except.ok.inj (Prod.mk.inj h).1
      unfold Token.ofChar? at hchar
      split at hchar <;> cases hchar
    · cases h

/-- A line being read, one token ahead. -/
structure Reader where
  lexer : Lexer
  /-- The token that has been read last; nothing has gone past it yet. -/
  current : Placed
  /-- How many parentheses are open. -/
  depth : Nat
  /-- All records so far. -/
  log : List Record
  /-- If the token is the end of the line, the text is used up. -/
  rest_eq : current.token = .endOfInput → lexer.rest = []

/-- Why a procedure cannot go on, and the records up to there. -/
structure Failure where
  error : EvalError
  log : List Record

namespace Reader

/-- Reads the next token, and records it, unless it is the end of the line. -/
def read (lexer : Lexer) (depth : Nat) (log : List Record) : Except LexError Reader :=
  match h : lexer.nextToken with
  | (.error error, _) => .error error
  | (.ok token, after) =>
    let t : Placed := ⟨token, after.position⟩
    let log := if token = .endOfInput then log else log ++ [.lexed t]
    .ok ⟨after, t, depth, log, fun (hend : token = .endOfInput) => Lexer.rest_of_nextToken (hend ▸ h)⟩

/-- A reader at the first token. -/
def start (lexer : Lexer) : Except LexError Reader := read lexer 0 []

/-! ## Each token leaves less to read -/

/-- A bound for the tokens that are left, the current one included. -/
def left (r : Reader) : Nat := r.lexer.rest.length + if r.current.token = .endOfInput then 0 else 1

theorem left_of_read {lexer : Lexer} {depth : Nat} {log : List Record} {r : Reader}
    (h : read lexer depth log = .ok r) : r.left ≤ lexer.rest.length := by
  unfold read at h
  split at h
  · cases h
  · rename_i token after hnext
    cases h
    by_cases hend : token = .endOfInput
    · subst hend
      simp [left, Lexer.rest_of_nextToken hnext]
    · have := Lexer.length_nextToken_lt hnext (by simpa using hend)
      simp only [left, hend, if_false]
      omega

/-- Going on from a token that is not the end of the line leaves less. -/
theorem left_lt_of_read {r next : Reader} {depth : Nat} {log : List Record}
    (h : read r.lexer depth log = .ok next) (hne : r.current.token.kind ≠ .endOfInput) :
    next.left < r.left := by
  have hend : r.current.token ≠ .endOfInput := fun hend => hne (by rw [hend]; rfl)
  have := left_of_read h
  simp only [left, hend, if_false] at *
  omega

/-! ## Going past a token -/

/-- Goes past the current token, if it is of this kind. -/
def eat (r : Reader) (kind : Token.Kind) :
    Except Failure { next : Reader // kind ≠ .endOfInput → next.left < r.left } :=
  if hkind : r.current.token.kind = kind then
    let log := r.log ++ [.eaten kind r.current.position]
    match hread : read r.lexer r.depth log with
    | .error error => .error ⟨.lexical error, log⟩
    | .ok next => .ok ⟨next, fun hne => left_lt_of_read hread (hkind ▸ hne)⟩
  else .error ⟨State.unexpected kind r.current, r.log⟩

/-- Inside of one more parenthesis. -/
def enter (r : Reader) : Reader := { r with depth := r.depth + 1 }

/-- Outside of it again. -/
def leave (r : Reader) : Reader := { r with depth := r.depth - 1 }

/-- How a procedure ends that was called with this reader, and found what it had to. -/
structure Reached (r : Reader) where
  value : Word
  reader : Reader
  le : reader.left ≤ r.left

/-- What was reached from a later reader was reached from this one. -/
def Reached.within {r next : Reader} (p : next.Reached) (h : next.left ≤ r.left) : r.Reached :=
  ⟨p.value, p.reader, Nat.le_trans p.le h⟩

end Reader

/-- The two tiers of operators. -/
inductive Tier where
  /-- `+` and `-`, between terms. -/
  | sum
  /-- `*` and `/`, between factors. -/
  | product
  deriving DecidableEq, Repr

namespace Tier

/-- The operators of a tier. -/
def has : Tier → Operator → Bool
  | sum => Operator.isAdditive
  | product => Operator.isMultiplicative

/-- How many procedures of the same or a tighter tier can be entered before a token is taken. -/
def rank : Tier → Nat
  | sum => 4
  | product => 2

end Tier

theorem Operator.tokenKind_ne_endOfInput (op : Operator) : op.tokenKind ≠ .endOfInput := by
  cases op <;> simp [tokenKind]

namespace Descent

mutual

/-- What stands between the operators of a tier. -/
def operand (tier : Tier) (r : Reader) : Except Failure r.Reached :=
  match tier with
  | .sum => chain .product r
  | .product => factor r
termination_by (r.left, tier.rank)
decreasing_by all_goals exact Prod.Lex.right _ (by decide)

/-- An expression or a term: an operand, and one more behind each operator of the tier. -/
def chain (tier : Tier) (r : Reader) : Except Failure r.Reached := do
  let ⟨value, next, le⟩ ← operand tier r
  let last ← more tier value next
  return last.within le
termination_by (r.left, tier.rank + 1)
decreasing_by
  · exact Prod.Lex.right _ (Nat.lt_succ_self _)
  · exact Prod.Lex.right' _ le (Nat.succ_pos _)

/-- The rest of a chain that is worth `value` so far. -/
def more (tier : Tier) (value : Word) (r : Reader) : Except Failure r.Reached :=
  match Operator.ofToken? r.current.token with
  | none => .ok ⟨value, r, Nat.le_refl _⟩
  | some op =>
    if tier.has op then do
      let ⟨next, less⟩ ← r.eat op.tokenKind
      have less : next.left < r.left := less op.tokenKind_ne_endOfInput
      let ⟨right, behind, le⟩ ← operand tier next
      have less' : behind.left < r.left := Nat.lt_of_le_of_lt le less
      let result ← (op.apply value right r.current.position).mapError (⟨.arithmetic ·, behind.log⟩)
      let last ← more tier result behind
      return last.within (Nat.le_of_lt less')
    else .ok ⟨value, r, Nat.le_refl _⟩
termination_by (r.left, 0)
decreasing_by all_goals exact Prod.Lex.left _ _ (by assumption)

/-- A number, or an expression in parentheses. -/
def factor (r : Reader) : Except Failure r.Reached :=
  match r.current.token with
  | .integer value => do
    let ⟨next, less⟩ ← r.eat .integer
    return ⟨value, next, Nat.le_of_lt (less (by decide))⟩
  | .lparen =>
    if maxNesting ≤ r.depth then
      .error ⟨.grammatical (.nestingTooDeep maxNesting r.current.position), r.log⟩
    else do
      let ⟨next, less⟩ ← r.eat .lparen
      have less : next.enter.left < r.left := less (by decide)
      let ⟨value, inner, le⟩ ← chain .sum next.enter
      let ⟨last, less'⟩ ← inner.leave.eat .rparen
      have le' : last.left ≤ inner.left := Nat.le_of_lt (less' (by decide))
      return ⟨value, last, Nat.le_trans le' (Nat.le_trans le (Nat.le_of_lt less))⟩
  | .plus | .minus | .mul | .div | .rparen | .endOfInput =>
    .error ⟨State.unexpected .integer r.current, r.log⟩
termination_by (r.left, 1)
decreasing_by exact Prod.Lex.left _ _ less

end

/-- A whole line: an expression and then the end. The result, and all that was recorded. -/
def line (r : Reader) : Except Failure (Word × List Record) := do
  let ⟨value, behind, _⟩ ← chain .sum r
  let ⟨last, _⟩ ← behind.eat .endOfInput
  return (value, last.log)

/-- The value of a line, or what is wrong with it, and the records of the way there. -/
def evaluate (source : String) : Except EvalError Word × List Record :=
  match Reader.start (Lexer.ofString source) with
  | .error error => (.error (.lexical error), [])
  | .ok r =>
    match line r with
    | .error failure => (.error failure.error, failure.log)
    | .ok (value, log) => (.ok value, log)

end Descent

end LineCalc
