/-
How deep parentheses are nested, and that the counter of a reader says so.

Between two calls or returns of a descent the counter is the number of factors that wait for the expression
in their parentheses, and it is also the number of opening parentheses gone past less that of closing ones
(`Reader.Counts`). One moment leaves this to the next (`Moment.Counts.next?`), so it holds all the way. A
factor is entered in one more parenthesis only below the limit, which bounds the counter and the factors that
are open at once.

In the text, the parentheses that are open before a place are those that nothing before it matches
(`unmatched`).
-/
import LineCalc.Proofs.Calls
import LineCalc.Proofs.Culprit

namespace LineCalc

/-! ## What has been gone past -/

/-- The record says that a token of this kind has been gone past. -/
def Record.isEaten (kind : Token.Kind) (r : Record) : Bool :=
  ("eat " ++ kind.name ++ " at ").toList.isPrefixOf r.message.toList

theorem Record.isEaten_eaten (kind other : Token.Kind) (position : Nat) :
    (eaten other position).isEaten kind = decide (other = kind) := by
  simp only [isEaten, eaten, String.toList_append]
  cases kind <;> cases other <;> simp [Token.Kind.name, List.isPrefixOf]

theorem Record.isEaten_lexed (kind : Token.Kind) (t : Placed) : (lexed t).isEaten kind = false := by
  simp only [isEaten, lexed, String.toList_append]
  rfl

namespace Reader

/-- How many tokens of this kind have been gone past. -/
def eaten (r : Reader) (kind : Token.Kind) : Nat := r.log.countP (Record.isEaten kind)

variable {r : Reader} {kind : Token.Kind}

theorem eaten_of_read {lexer : Lexer} {depth : Nat} {log : List Record} (h : read lexer depth log = .ok r) :
    r.depth = depth ∧ ∀ kind, r.eaten kind = log.countP (Record.isEaten kind) := by
  unfold read at h
  split at h
  · cases h
  · rename_i token after hnext
    cases h
    refine ⟨rfl, fun kind => ?_⟩
    dsimp only [eaten]
    split
    · rfl
    · simp [Record.isEaten_lexed]

theorem eaten_of_eat {next : { next : Reader // kind ≠ .endOfInput → next.left < r.left }}
    (h : r.eat kind = .ok next) : next.val.depth = r.depth ∧
      ∀ other, next.val.eaten other = r.eaten other + if kind = other then 1 else 0 := by
  unfold eat at h
  split at h
  · dsimp only at h
    split at h
    · cases h
    · rename_i hread
      cases h
      obtain ⟨hdepth, heaten⟩ := eaten_of_read hread
      refine ⟨hdepth, fun other => ?_⟩
      rw [heaten, List.countP_append, List.countP_singleton, Record.isEaten_eaten]
      simp [eaten]
  · cases h

/-! ## The counter -/

/-- The counter is right, in the middle of these procedures. -/
structure Counts (r : Reader) (stack : List Descent.Frame) : Prop where
  eaten_eq : r.eaten .lparen = r.eaten .rparen + r.depth
  depth_eq : r.depth = stack.count .group
  depth_le : r.depth ≤ maxNesting

namespace Counts

variable {stack : List Descent.Frame}

theorem of_start {l : Lexer} (h : start l = .ok r) : r.Counts [] := by
  obtain ⟨hdepth, heaten⟩ := eaten_of_read h
  exact ⟨by simp [heaten, hdepth], hdepth, by simp [hdepth]⟩

/-- Only a factor that waits stands for a parenthesis. -/
theorem cons {frame : Descent.Frame} (hframe : frame ≠ .group) :
    r.Counts (frame :: stack) ↔ r.Counts stack := by
  have hcount : (frame :: stack).count .group = stack.count .group := List.count_cons_of_ne hframe
  constructor <;> intro h <;> exact ⟨h.eaten_eq, hcount ▸ h.depth_eq, h.depth_le⟩

theorem eat (h : r.Counts stack) (hlparen : kind ≠ .lparen) (hrparen : kind ≠ .rparen)
    {next : { next : Reader // kind ≠ .endOfInput → next.left < r.left }} (hnext : r.eat kind = .ok next) :
    next.val.Counts stack := by
  obtain ⟨hdepth, heaten⟩ := eaten_of_eat hnext
  have hopened : next.val.eaten .lparen = r.eaten .lparen := by simp [heaten, hlparen]
  have hclosed : next.val.eaten .rparen = r.eaten .rparen := by simp [heaten, hrparen]
  refine ⟨?_, hdepth.trans h.depth_eq, hdepth ▸ h.depth_le⟩
  rw [hopened, hclosed, hdepth]
  exact h.eaten_eq

theorem lparen (h : r.Counts stack) (hroom : r.depth < maxNesting)
    {next : { next : Reader // Token.Kind.lparen ≠ .endOfInput → next.left < r.left }}
    (hnext : r.eat .lparen = .ok next) : next.val.enter.Counts (.group :: stack) := by
  obtain ⟨hdepth, heaten⟩ := eaten_of_eat hnext
  have hopened : next.val.enter.eaten .lparen = r.eaten .lparen + 1 := heaten .lparen
  have hclosed : next.val.enter.eaten .rparen = r.eaten .rparen := heaten .rparen
  have hentered : next.val.enter.depth = r.depth + 1 := congrArg (· + 1) hdepth
  have hbefore := h.eaten_eq
  refine ⟨by omega, ?_, by omega⟩
  rw [hentered, List.count_cons_self, h.depth_eq]

theorem depth_pos (h : r.Counts (.group :: stack)) : 0 < r.depth := by
  rw [h.depth_eq, List.count_cons_self]
  exact Nat.succ_pos _

/-- Behind a closing parenthesis, outside of it: the counter goes down before the token is gone past. -/
theorem rparen (h : r.Counts (.group :: stack))
    {last : { last : Reader // Token.Kind.rparen ≠ .endOfInput → last.left < r.leave.left }}
    (hlast : r.leave.eat .rparen = .ok last) : last.val.Counts stack := by
  obtain ⟨hdepth, heaten⟩ := eaten_of_eat hlast
  have hopened : last.val.eaten .lparen = r.eaten .lparen := heaten .lparen
  have hclosed : last.val.eaten .rparen = r.eaten .rparen + 1 := heaten .rparen
  have hleft : last.val.depth = r.depth - 1 := hdepth
  have hbefore := h.eaten_eq
  have hpos := h.depth_pos
  have hle := h.depth_le
  refine ⟨by omega, ?_, by omega⟩
  rw [hleft, h.depth_eq, List.count_cons_self, Nat.add_sub_cancel]

end Counts

end Reader

theorem Operator.tokenKind_ne_paren (op : Operator) :
    op.tokenKind ≠ .lparen ∧ op.tokenKind ≠ .rparen := by
  cases op <;> simp [tokenKind]

/-! ## From moment to moment -/

namespace Descent

namespace Moment

/-- The counter is right at this moment. -/
def Counts : Moment → Prop
  | .call _ r stack | .back _ r stack => r.Counts stack
  | .ended _ => True

theorem counts_attempt {α : Type} {x : Except Failure α} {go : α → Moment}
    (h : ∀ a, x = .ok a → (go a).Counts) : (attempt x go).Counts := by
  cases x with
  | error failure => trivial
  | ok a => exact h a rfl

theorem counts_more {r : Reader} {stack : List Frame} (h : r.Counts stack) (tier : Tier) (value : Word) :
    (more tier value r stack).Counts := by
  unfold more
  split
  next => exact h
  next op hop =>
    split
    next hhas =>
      obtain ⟨hlparen, hrparen⟩ := op.tokenKind_ne_paren
      refine counts_attempt fun next hnext => ?_
      exact (Reader.Counts.cons (by simp)).mpr (h.eat hlparen hrparen hnext)
    next => exact h

theorem counts_factor {r : Reader} {stack : List Frame} (h : r.Counts stack) : (factor r stack).Counts := by
  unfold factor
  split
  next => exact counts_attempt fun next hnext => h.eat (by decide) (by decide) hnext
  next =>
    split
    next hfull => trivial
    next hroom => exact counts_attempt fun next hnext => h.lparen (Nat.lt_of_not_le hroom) hnext
  all_goals trivial

/-- A moment leaves a right counter to the next one. -/
theorem Counts.next? {m next : Moment} (h : m.Counts) (hnext : m.next? = some next) : next.Counts := by
  cases m with
  | call sort r stack =>
    have h : r.Counts stack := h
    cases sort with
    | expr =>
      cases hnext
      exact (Reader.Counts.cons (by simp)).mpr h
    | term =>
      cases hnext
      exact (Reader.Counts.cons (by simp)).mpr h
    | factor =>
      cases hnext
      exact counts_factor h
  | back value r stack =>
    have h : r.Counts stack := h
    cases stack with
    | nil =>
      cases hnext
      exact counts_attempt fun last _ => trivial
    | cons frame stack =>
      cases frame with
      | first tier =>
        cases hnext
        exact counts_more ((Reader.Counts.cons (by simp)).mp h) tier value
      | right tier p =>
        cases hnext
        refine counts_attempt fun result _ => ?_
        exact counts_more ((Reader.Counts.cons (by simp)).mp h) tier result
      | group =>
        cases hnext
        exact counts_attempt fun last hlast => h.rparen hlast
  | ended result => cases hnext

/-- How many factors are open: those that wait, and the one that is entered. -/
def factors : Moment → Nat
  | .call .factor _ stack => stack.count .group + 1
  | .call _ _ stack | .back _ _ stack => stack.count .group
  | .ended _ => 0

/-- What the counter keeps at this moment. -/
structure Nested (m : Moment) : Prop where
  /-- Where a procedure is entered, the counter is the number of opening parentheses gone past less that of
  closing ones, and within the limit. -/
  entered : ∀ sort r stack, m = .call sort r stack →
    r.eaten .lparen = r.eaten .rparen + r.depth ∧ r.depth ≤ maxNesting
  /-- Where a factor is about to count a parenthesis less, there is one to be counted. -/
  leaves : ∀ value r stack, m = .back value r (.group :: stack) → 0 < r.depth
  factors_le : m.factors ≤ maxNesting + 1

theorem Counts.nested {m : Moment} (h : m.Counts) : m.Nested where
  entered := by
    rintro sort r stack rfl
    exact ⟨h.eaten_eq, h.depth_le⟩
  leaves := by
    rintro value r stack rfl
    exact Reader.Counts.depth_pos h
  factors_le := by
    have hcount : ∀ {r : Reader} {stack : List Frame}, r.Counts stack → stack.count .group ≤ maxNesting :=
      fun h => h.depth_eq ▸ h.depth_le
    cases m with
    | call sort r stack =>
      have := hcount h
      cases sort <;> simp only [factors] <;> omega
    | back value r stack =>
      have := hcount h
      simp only [factors]
      omega
    | ended result => exact Nat.zero_le _

end Moment

theorem Passes.counts {l : Lexer} {m : Moment} (h : Passes l m) : m.Counts := by
  obtain ⟨r, hstart, hleads⟩ := h
  induction hleads with
  | refl => exact Reader.Counts.of_start hstart
  | tail _ hnext ih => exact ih.next? hnext

end Descent

/-! ## What a procedure leaves behind -/

theorem Phrase.fits_empty (sort : Phrase) : sort.Fits .empty := by
  cases sort with
  | expr => rfl
  | term => rfl
  | factor => trivial

/-- A procedure that finds what it has to goes out of each parenthesis that it goes into. -/
theorem Parses.depth_eq {sort : Phrase} {r : Reader} {result : Except Failure r.Reached} {p : r.Reached}
    (h : Parses sort r result) (hresult : result = .ok p) : p.reader.depth = r.depth := by
  -- Whatever is owed in the parentheses around it, the procedure does the same.
  have hlength : (State.needOperand .empty (List.replicate r.depth .empty)).depth = r.depth := by
    simp [State.depth]
  have hafter := h sort.fits_empty ⟨rfl, hlength.symm⟩
  rw [hresult] at hafter
  exact hafter.1.depth_eq.trans hlength

theorem Descent.depth_of_procedure {sort : Phrase} {r : Reader} {p : r.Reached}
    (h : procedure sort r = .ok p) : p.reader.depth = r.depth := by
  cases sort with
  | expr => exact Parses.depth_eq (parses_chain .sum r) h
  | term => exact Parses.depth_eq (parses_chain .product r) h
  | factor => exact Parses.depth_eq (parses_factor r) h

/-! ## Parentheses in the text -/

/-- The parentheses that are open behind one more character. -/
def nest (opened : Nat) (c : Char) : Nat :=
  if c = '(' then opened + 1 else if c = ')' then opened - 1 else opened

/-- How many opening parentheses of a text are not matched in it. A closing one matches the last of those
that are open, if there is one. -/
def unmatched (text : List Char) : Nat := text.foldl nest 0

/-- The parentheses that are open behind one more token. -/
def Token.nest (opened : Nat) : Token → Nat
  | lparen => opened + 1
  | rparen => opened - 1
  | _ => opened

theorem Token.nest_of_ofToken? {token : Token} {op : Operator} (h : Operator.ofToken? token = some op)
    (opened : Nat) : nest opened token = opened := by
  cases token <;> simp_all [Operator.ofToken?, nest]

theorem Token.nest_of_ofChar? {c : Char} {token : Token} (h : ofChar? c = some token) (opened : Nat) :
    LineCalc.nest opened c = nest opened token := by
  unfold ofChar? at h
  split at h
  case h_7 => cases h
  all_goals
    cases h
    rfl

theorem foldl_nest_of_isDigit {run : List Char} (digits : ∀ c ∈ run, c.isDigit) (opened : Nat) :
    run.foldl nest opened = opened := by
  induction run with
  | nil => rfl
  | cons c run ih =>
    have hdigit := digits c List.mem_cons_self
    have hne : c ≠ '(' ∧ c ≠ ')' := by
      constructor <;> rintro rfl <;> exact absurd hdigit (by decide)
    have hc : nest opened c = opened := by simp [nest, hne]
    rw [List.foldl_cons, hc]
    exact ih fun d hd => digits d (List.mem_cons_of_mem _ hd)

theorem Item.Leads.foldl_nest {first rest : List Char} (h : Leads first rest) {position : Nat} {token : Token}
    (htoken : (Item.mk first position).token? = some token) (opened : Nat) :
    first.foldl nest opened = token.nest opened := by
  rcases h.of_token? htoken with ⟨c, rfl, hof⟩ | ⟨value, rfl, -, -, digits, -⟩
  · exact Token.nest_of_ofChar? hof opened
  · exact foldl_nest_of_isDigit digits opened

/-- A text of tokens opens and closes what its tokens do. -/
theorem Scan.foldl_nest {text : List Char} : ∀ {offset size : Nat} {tokens : List Placed} {ending : Nat},
    ofItems (Item.cut offset text) size = ⟨tokens, .ok ending⟩ → ∀ opened,
      text.foldl nest opened = (tokens.map (·.token)).foldl Token.nest opened := by
  induction text using Item.text_induction with
  | nil =>
    intro offset size tokens ending h opened
    cases h
    rfl
  | blank cs ih =>
    intro offset size tokens ending h opened
    rw [Item.cut_blank] at h
    exact ih h opened
  | item first rest hl ih =>
    intro offset size tokens ending h opened
    rw [hl.cut_eq, ofItems] at h
    cases htoken : (Item.mk first offset).token? with
    | none =>
      rw [htoken] at h
      cases h
    | some token =>
      rw [htoken] at h
      cases hrest : ofItems (Item.cut (offset + byteSize first) rest) size with
      | mk more last =>
        rw [hrest] at h
        cases h
        rw [List.foldl_append, hl.foldl_nest htoken, ih hrest]
        rfl

/-! ## Where the limit is exceeded -/

namespace State

theorem Takes.depth_eq {state next : State} {t : Placed} (h : Takes state t next) :
    next.depth = t.token.nest state.depth := by
  cases h with
  | integer => rfl
  | lparen _ => rfl
  | multiplicative hop _ _ => exact (Token.nest_of_ofToken? hop _).symm
  | additive hop _ _ _ => exact (Token.nest_of_ofToken? hop _).symm
  | rparen _ _ => rfl

theorem Takes.depth_le {state next : State} {t : Placed} (h : Takes state t next)
    (hle : state.depth ≤ maxNesting) : next.depth ≤ maxNesting := by
  cases h with
  | integer => exact hle
  | lparen room => exact room
  | multiplicative => exact hle
  | additive => exact hle
  | rparen => exact Nat.le_of_succ_le hle

/-- The levels of a state are the parentheses that its tokens leave open. -/
theorem Reaches.depth_eq {tokens : List Placed} {state : State} (h : Reaches tokens state) :
    (tokens.map (·.token)).foldl Token.nest 0 = state.depth := by
  induction h with
  | start => rfl
  | step _ hstep ih =>
    rw [List.map_append, List.foldl_append, ih]
    exact (takes_of_step hstep).depth_eq.symm

theorem Reaches.depth_le {tokens : List Placed} {state : State} (h : Reaches tokens state) :
    state.depth ≤ maxNesting := by
  induction h with
  | start => exact Nat.zero_le _
  | step _ hstep ih => exact (takes_of_step hstep).depth_le ih

theorem StopsAt.le_depth {state : State} {t : Placed} {limit position : Nat}
    (h : StopsAt state t (.grammatical (.nestingTooDeep limit position))) : maxNesting ≤ state.depth := by
  cases h with
  | tooDeep full => exact full
  | product hproduct => exact absurd hproduct (settle_ne_grammatical _ _ _)
  | sum _ _ hsum => exact absurd hsum (settle_ne_grammatical _ _ _)

end State

theorem Divides.unique {line : String} {position : Nat} {front rest front' rest' : List Char}
    (h : Divides line position front rest) (h' : Divides line position front' rest') :
    front = front' ∧ rest = rest' :=
  List.append_inj (h.text.symm.trans h'.text) (h.length.trans h'.length.symm)

/-- Where the limit is exceeded, as many parentheses are open as the limit allows, and there is one more. -/
theorem exists_unmatched_of_tooDeep {line : String} {limit position : Nat}
    (h : evaluate line = .error (.grammatical (.nestingTooDeep limit position))) :
    limit = maxNesting ∧ ∃ front rest, line.toList = front ++ '(' :: rest ∧ byteSize front = position ∧
      unmatched front = maxNesting := by
  obtain ⟨front, rest, hdivides, hhead, hlimit⟩ := exists_divides_of_evaluate h
  obtain ⟨before, state, t, hhalts⟩ := exists_haltsAt h (by simp)
  obtain ⟨front', rest', rfl, hsize, hscan, -⟩ := hhalts.text
  have hposition : position = t.position := hhalts.isAt.2.2
  have hfront : Divides (front' ++ rest') position front'.toList rest'.toList := by
    have hend := Scan.divides_end (by rw [hscan] : (Scan.ofString front').ending = .ok t.position)
    exact ⟨String.toList_append, hposition ▸ hend.size, hend.legible⟩
  obtain ⟨rfl, rfl⟩ := hdivides.unique hfront
  obtain ⟨rest, hrest⟩ : ∃ rest, rest'.toList = '(' :: rest := List.head?_eq_some_iff.mp hhead
  refine ⟨hlimit, front'.toList, rest, hrest ▸ hdivides.text, hdivides.size, ?_⟩
  rw [Scan.ofString_eq] at hscan
  rw [unmatched, Scan.foldl_nest hscan, hhalts.reach.depth_eq]
  exact Nat.le_antisymm hhalts.reach.depth_le (State.stopsAt_of_step hhalts.step).le_depth

/-- **The depth of nesting is counted right.** A descent goes from moment to moment: the entry to a procedure
leads to its return, and the first entry to the result of the line. At each moment, if a procedure is entered,
the depth is the number of opening parentheses gone past less that of closing ones, and at most 256; if a
factor is to count a parenthesis less, the depth is not zero; and no more than 257 factors are open. A
procedure that finds what it has to leaves the depth as it was at its entry. So the limit is exceeded only at
a parenthesis before which exactly 256 are open, and never in a line where no front part has more than 256
opening parentheses that are not matched. -/
theorem nesting_counted (line : String) :
    (∀ sort r stack, Descent.Leads (.call sort r stack) (.returned stack (Descent.procedure sort r))) ∧
    (∀ l r, Reader.start l = .ok r → Descent.Passes l (.ended (Descent.line r))) ∧
    (∀ l m, Descent.Passes l m → m.Nested) ∧
    (∀ sort r p, Descent.procedure sort r = .ok p → p.reader.depth = r.depth) ∧
    (Descent.evaluate line).1 = evaluate line ∧
    (∀ limit position, evaluate line = .error (.grammatical (.nestingTooDeep limit position)) →
      limit = maxNesting ∧ ∃ front rest, line.toList = front ++ '(' :: rest ∧ byteSize front = position ∧
        unmatched front = maxNesting) ∧
    ((∀ front, front <+: line.toList → unmatched front ≤ maxNesting) →
      ∀ limit position, evaluate line ≠ .error (.grammatical (.nestingTooDeep limit position))) := by
  refine ⟨Descent.leads_procedure, fun l r hstart => ⟨r, hstart, Descent.leads_line r⟩,
    fun l m hm => hm.counts.nested, fun sort r p => Descent.depth_of_procedure, by rw [Descent.evaluate_eq],
    fun limit position => exists_unmatched_of_tooDeep, fun hnested limit position h => ?_⟩
  obtain ⟨-, front, rest, htext, -, hopen⟩ := exists_unmatched_of_tooDeep h
  have hle := hnested (front ++ ['(']) ⟨rest, by simp [htext]⟩
  have hone : unmatched (front ++ ['(']) = unmatched front + 1 := by
    simp [unmatched, nest]
  omega

example : evaluate (String.ofList (List.replicate 257 '(')) =
    .error (.grammatical (.nestingTooDeep 256 256)) := by
  rw [evaluate, Scan.ofString_eq, Item.ofLine, String.toList_ofList]
  decide +kernel

end LineCalc
