/-
What an evaluation records. It goes past the tokens of a line one by one, in order, and reads a token
only once it is past the one before: the records are a beginning of those of a line whose tokens are
all gone past (`fullRecords`). It leaves off where it cannot go past a token that it has read.

The records are those of recursive descent, where a token is recorded when it is read or gone past
(`Descent.evaluate_eq`).
-/
import LineCalc.Proofs.Descent
import LineCalc.Proofs.Line

namespace LineCalc

/-! ## Reading a line to its end -/

/-- What draining a lexer records: each token as it is handed out. -/
def Lexer.drainRecords (l : Lexer) : List Record :=
  match _h : l.next? with
  | (none, _) => []
  | (some (.error _), after) => after.drainRecords
  | (some (.ok token), after) => .lexed ⟨token, after.position⟩ :: after.drainRecords
termination_by l.rest.length
decreasing_by all_goals exact length_next?_lt _h

theorem Lexer.drainRecords_eq (l : Lexer) :
    l.drainRecords = match l.next? with
      | (none, _) => []
      | (some (.error _), after) => after.drainRecords
      | (some (.ok token), after) => .lexed ⟨token, after.position⟩ :: after.drainRecords := by
  rw [drainRecords]
  split <;> rename_i found <;> rw [found]

/-- Draining a lexer that has met no error yet records the tokens of its scan. -/
theorem Lexer.drainRecords_eq_readingRecords (l : Lexer) (h : l.failed = false) :
    l.drainRecords = l.scan.readingRecords := by
  rw [drainRecords_eq, scan_eq]
  rcases l.nextToken_cases with ⟨-, hnext⟩ | ⟨item, after, hnext, -, -, -, hfailed⟩
  · have hdone : l.next? = (none, l.past (l.cursor + byteSize l.rest) 0 []) := by
      simp [next?, h, hnext]
    rw [hdone, hnext]
    rfl
  · have ne : item.read ≠ .ok .endOfInput := fun he =>
      item.token?_ne_endOfInput (Item.read_eq_ok_iff.mp he)
    have hless := length_nextToken_lt hnext ne
    rw [next?_of_nextToken h hnext ne, hnext]
    cases hread : item.read with
    | error error =>
      -- Nothing more is handed out behind the error.
      have hstop : after.next? = (none, after) := by
        simp [next?, hfailed, (Item.read_eq_error_iff.mp hread).1]
      dsimp only
      rw [drainRecords_eq, hstop]
      rfl
    | ok token =>
      have hend : token ≠ .endOfInput := by simpa [hread] using ne
      have hok : after.failed = false := by simp [hfailed, h, Item.read_eq_ok_iff.mp hread]
      dsimp only
      rw [if_neg hend, drainRecords_eq_readingRecords after hok]
      rfl
termination_by l.rest.length

/-! ## The records of a whole line -/

/-- The tokens of a line that can be seen: all, or those before the first error in the text. -/
def seenTokens (line : String) : List Placed :=
  match tokenize line with
  | .ok _ => placedTokens line
  | .error error => (placedTokens line).filter (·.position < error.position)

theorem Scan.ofString_eq_seen (line : String) :
    ofString line = ⟨seenTokens line, (tokenize line).map fun _ => line.utf8ByteSize⟩ := by
  rcases ofString_cases line with ⟨htokens, hscan⟩ | ⟨error, herror, hscan⟩
  · rw [hscan, seenTokens, htokens]
    rfl
  · rw [hscan, seenTokens, herror]
    rfl

namespace Record

/-- A token is read, and then gone past. -/
def taken (t : Placed) : List Record := [lexed t, eaten t.token.kind t.position]

/-- The record says that a token has been read. -/
def isLexed (r : Record) : Bool := "lexed ".toList.isPrefixOf r.message.toList

theorem isLexed_lexed (t : Placed) : (lexed t).isLexed := by
  simp [isLexed, lexed, String.toList_append]

theorem isLexed_eaten (kind : Token.Kind) (position : Nat) : (eaten kind position).isLexed = false := by
  simp only [isLexed, eaten, String.toList_append]
  rfl

theorem filter_isLexed (tokens : List Placed) :
    (tokens.flatMap taken).filter isLexed = tokens.map lexed := by
  induction tokens with
  | nil => rfl
  | cons t tokens ih => simp [taken, isLexed_lexed, isLexed_eaten, ih]

theorem getLast?_taken (tokens : List Placed) :
    (tokens.flatMap taken).getLast? =
      tokens.getLast?.map fun t => eaten t.token.kind t.position := by
  rcases List.eq_nil_or_concat tokens with rfl | ⟨tokens, t, rfl⟩
  · rfl
  · simp [taken]

end Record

/-- The records of going past all tokens that can be seen, and past the end of the line, if it can. -/
def fullRecords (line : String) : List Record :=
  (seenTokens line).flatMap Record.taken ++
    match tokenize line with
    | .ok _ => [.eaten .endOfInput line.utf8ByteSize]
    | .error _ => []

theorem filter_isLexed_fullRecords (line : String) :
    (fullRecords line).filter Record.isLexed = (Scan.ofString line).readingRecords := by
  rw [fullRecords, List.filter_append, Record.filter_isLexed, Scan.ofString_eq_seen]
  cases tokenize line <;> simp [Scan.readingRecords, Record.isLexed_eaten]

/-! ## The records of an evaluation -/

/-- What has been taken in has been read and gone past. -/
theorem State.Reaches.records_eq {before : List Placed} {state : State} (h : Reaches before state)
    (rest : List Placed) (ending : Except LexError Nat) :
    initial.records (before ++ rest) ending = before.flatMap Record.taken ++ state.records rest ending := by
  induction h generalizing rest with
  | start => rfl
  | @step before t state next _ hstep ih =>
    rw [List.append_assoc, ih, List.singleton_append, records, hstep]
    simp [Record.taken]

/-- Where an evaluation leaves off with an error: `before` has been gone past, and `found` is the token
that has been read then. There is none at the end of the line, and none at text that is no token. -/
inductive LeavesOff (line : String) (error : EvalError) : List Placed → Option Placed → Prop
  | token {before after : List Placed} {t : Placed} {state : State}
      (htokens : seenTokens line = before ++ t :: after) (hreach : State.Reaches before state)
      (hstep : state.step t = .error error) :
    LeavesOff line error before (some t)
  | text {lexical : LexError} (hlexical : tokenize line = .error lexical)
      (herror : error = .lexical lexical) :
    LeavesOff line error (seenTokens line) none
  | ending {tokens : List Token} {state : State} (htokens : tokenize line = .ok tokens)
      (hreach : State.Reaches (seenTokens line) state)
      (hfinish : state.finish line.utf8ByteSize = .error error) :
    LeavesOff line error (seenTokens line) none

/-- The records up to where an evaluation leaves off. -/
def recordsUpTo (before : List Placed) (found : Option Placed) : List Record :=
  before.flatMap Record.taken ++ found.toList.map .lexed

theorem LeavesOff.prefix_fullRecords {line : String} {error : EvalError} {before : List Placed}
    {found : Option Placed} (h : LeavesOff line error before found) :
    recordsUpTo before found <+: fullRecords line := by
  cases h with
  | token htokens _ _ =>
    rw [recordsUpTo, fullRecords, htokens, List.flatMap_append, List.append_assoc,
      List.prefix_append_right_inj]
    exact ⟨_, rfl⟩
  | text | ending =>
    rw [recordsUpTo, Option.toList_none, List.map_nil, List.append_nil]
    exact List.prefix_append ..

theorem getLast?_recordsUpTo (before : List Placed) (found : Option Placed) :
    (recordsUpTo before found).getLast? =
      (found.map .lexed).or (before.getLast?.map fun t => .eaten t.token.kind t.position) := by
  cases found with
  | some t => simp [recordsUpTo]
  | none => simp [recordsUpTo, Record.getLast?_taken]

/-- An evaluation records all there is, or leaves off. -/
theorem evaluationRecords_cases (line : String) :
    ((∃ value, evaluate line = .ok value) ∧
      (Scan.ofString line).evaluationRecords = fullRecords line) ∨
    ∃ error before found, evaluate line = .error error ∧ LeavesOff line error before found ∧
      (Scan.ofString line).evaluationRecords = recordsUpTo before found := by
  have hscan := Scan.ofString_eq_seen line
  rcases (Scan.ofString line).evaluate_cases with
    ⟨before, t, after, state, error, htokens, hreach, hstep, herror⟩ | ⟨state, hreach, hresult⟩
  · rw [hscan] at htokens
    refine .inr ⟨error, before, some t, herror, .token htokens hreach hstep, ?_⟩
    rw [hscan, Scan.evaluationRecords]
    dsimp only at htokens ⊢
    rw [htokens, hreach.records_eq, State.records, hstep]
    rfl
  · rw [hscan] at hreach
    have hrecords := hreach.records_eq [] ((tokenize line).map fun _ => line.utf8ByteSize)
    rw [List.append_nil] at hrecords
    rw [evaluate, hresult, hscan, Scan.evaluationRecords]
    dsimp only at hrecords ⊢
    rw [hrecords]
    cases htokenize : tokenize line with
    | error lexical => exact .inr ⟨.lexical lexical, _, none, rfl, .text htokenize rfl, rfl⟩
    | ok tokens =>
      cases hfinish : state.finish line.utf8ByteSize with
      | ok value =>
        refine .inl ⟨⟨value, hfinish⟩, ?_⟩
        rw [Except.map, State.records, hfinish, fullRecords, htokenize]
      | error error =>
        refine .inr ⟨error, _, none, hfinish, .ending htokenize hreach hfinish, ?_⟩
        rw [Except.map, State.records, hfinish]
        rfl

/-- **An evaluation goes past each token once, in order, and has read just one token more.** Its records
are those of recursive descent, and a beginning of the full records of the line. Of these, the ones of
reading are a beginning of what reading the line to its end records. If the line has a value, the records
are the full records. Otherwise they end with reading the token at which the evaluation leaves off; or,
where that is the end of the line or text that is no token, with going past the token before, if there
is one. -/
theorem evaluation_takes_each_token_once (line : String) :
    let records := (Scan.ofString line).evaluationRecords
    let reading := (Scan.ofString line).readingRecords
    Descent.evaluate line = (evaluate line, records) ∧
    (Lexer.ofString line).drainRecords = reading ∧
    records <+: fullRecords line ∧
    records.filter Record.isLexed <+: reading ∧
    (∀ value, evaluate line = .ok value →
      records = fullRecords line ∧ records.filter Record.isLexed = reading) ∧
    ∀ error, evaluate line = .error error →
      ∃ before found, LeavesOff line error before found ∧
        records = before.flatMap Record.taken ++ found.toList.map .lexed ∧
        records.getLast? =
          (found.map .lexed).or (before.getLast?.map fun t => .eaten t.token.kind t.position) := by
  intro records reading
  refine ⟨Descent.evaluate_eq line, Lexer.drainRecords_eq_readingRecords _ rfl, ?_⟩
  have hreading : (fullRecords line).filter Record.isLexed = reading := filter_isLexed_fullRecords line
  rcases evaluationRecords_cases line with
    ⟨⟨value, hvalue⟩, hfull⟩ | ⟨error, before, found, herror, hoff, hupTo⟩
  · have hfull : records = fullRecords line := hfull
    rw [hfull, hreading, hvalue]
    refine ⟨List.prefix_rfl, List.prefix_rfl, fun _ _ => ⟨rfl, rfl⟩, fun error herror => ?_⟩
    cases herror
  · have hupTo : records = recordsUpTo before found := hupTo
    have hbegins := hoff.prefix_fullRecords
    rw [hupTo, herror]
    refine ⟨hbegins, hreading ▸ hbegins.filter _, fun value hvalue => ?_, fun other hother => ?_⟩
    · cases hvalue
    · cases hother
      exact ⟨before, found, hoff, rfl, getLast?_recordsUpTo before found⟩

end LineCalc
