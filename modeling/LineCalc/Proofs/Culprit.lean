/-
The place of an error is where the culprit stands. Whatever goes wrong with a line, the text before that
place is made of spaces, digits and signs alone, and behind it stands what the error is about: the
operator of the operation that failed, the token that was not expected, the parenthesis that is one too
many, or the piece of text that is no token.

An error is found at an item of the line, or at its end, and all items before that are tokens
(`Scan.evaluate_blames`). So it is enough to know how the text of a line is divided at an item
(`Item.exists_divided`).
-/
import LineCalc.Proofs.Extension

namespace LineCalc

/-! ## Text around a place -/

/-- A character that a line may hold. -/
def Legible (c : Char) : Prop := c = ' ' ∨ c.isDigit ∨ c ∈ ['+', '-', '*', '/', '(', ')']

/-- At the start of `rest`, behind `front`, a digit run starts. -/
def StartsRun (front rest : List Char) : Prop :=
  (∃ c ∈ rest.head?, c.isDigit) ∧ ∀ c ∈ front.getLast?, c.isDigit = false

/-- The token stands at the start of `rest`, behind `front`: a number with all of its digits. -/
def Token.StandsAt (front rest : List Char) : Token → Prop
  | integer value =>
    StartsRun front rest ∧ value.toInt = Decimal.value (rest.takeWhile Char.isDigit)
  | endOfInput => rest = []
  | sign => ∃ c, rest.head? = some c ∧ sign.symbol.toList = [c]

theorem Token.ofChar?_eq_none_iff {c : Char} :
    ofChar? c = none ↔ c ∉ ['+', '-', '*', '/', '(', ')'] := by
  unfold ofChar?
  split <;> simp_all

theorem Token.standsAt_of_ofChar? {c : Char} {token : Token} (h : ofChar? c = some token)
    (front rest : List Char) : token.StandsAt front (c :: rest) := by
  unfold ofChar? at h
  split at h
  case h_7 => cases h
  all_goals
    cases h
    exact ⟨_, rfl, by decide⟩

theorem Token.StandsAt.head?_eq {token : Token} {front rest : List Char} (h : token.StandsAt front rest)
    {c : Char} (hchar : ofChar? c = some token) : rest.head? = some c := by
  unfold ofChar? at hchar
  split at hchar
  case h_7 => cases hchar
  all_goals
    cases hchar
    obtain ⟨d, hd, hsymbol⟩ := h
    rw [hd]
    simpa [symbol, eq_comm] using hsymbol

theorem Legible.utf8Size {c : Char} (h : Legible c) : c.utf8Size = 1 := by
  rcases h with rfl | hdigit | hsign
  · rfl
  · have hbytes := @Lexer.byteSize_run [c] (by simpa using hdigit)
    simpa using hbytes
  · simp only [List.mem_cons, List.not_mem_nil, or_false] at hsign
    rcases hsign with rfl | rfl | rfl | rfl | rfl | rfl <;> rfl

namespace Item

theorem startsRun_of_run {front run rest : List Char} (ne : run ≠ []) (digits : ∀ c ∈ run, c.isDigit)
    (hapart : Apart front (run ++ rest)) : StartsRun front (run ++ rest) := by
  obtain ⟨c, run, rfl⟩ := List.exists_cons_of_ne_nil ne
  have hdigit := digits c List.mem_cons_self
  refine ⟨⟨c, rfl, hdigit⟩, fun d hd => ?_⟩
  have := hapart d hd c rfl
  simpa [inOneRun, hdigit] using this

variable {front first rest : List Char} {position : Nat}

theorem Leads.standsAt (h : Leads first rest) (hapart : Apart front (first ++ rest)) {token : Token}
    (htoken : (Item.mk first position).token? = some token) : token.StandsAt front (first ++ rest) := by
  rcases h.of_token? htoken with ⟨c, rfl, hof⟩ | ⟨value, rfl, -, ne, digits, ends⟩
  · exact Token.standsAt_of_ofChar? hof front rest
  · refine ⟨startsRun_of_run ne digits hapart, ?_⟩
    rw [takeWhile_isDigit digits ends]
    exact toInt_of_token? htoken

theorem legible_of_cut {text : List Char} : ∀ {offset : Nat},
    (∀ item ∈ cut offset text, item.token? ≠ none) → ∀ c ∈ text, Legible c := by
  induction text using text_induction with
  | nil => simp
  | blank cs ih =>
    intro offset h c hc
    rw [cut_blank] at h
    rcases List.mem_cons.mp hc with rfl | hc
    · exact .inl rfl
    · exact ih h c hc
  | item first rest hl ih =>
    intro offset h c hc
    rw [hl.cut_eq] at h
    rcases List.mem_append.mp hc with hc | hc
    · obtain ⟨token, htoken⟩ := Option.ne_none_iff_exists'.mp (h _ List.mem_cons_self)
      rcases hl.of_token? htoken with ⟨d, rfl, hof⟩ | ⟨value, -, -, -, digits, -⟩
      · obtain rfl := List.mem_singleton.mp hc
        by_contra hno
        have hnone := Token.ofChar?_eq_none_iff.mpr fun hsign => hno (.inr (.inr hsign))
        cases hof.symm.trans hnone
      · exact .inr (.inl (digits c hc))
    · exact ih (fun item hitem => h item (List.mem_cons_of_mem _ hitem)) c hc

end Item

/-! ## Where an evaluation finds fault -/

namespace Scan

theorem exists_item_of_mem {items : List Item} {size : Nat} {t : Placed}
    (h : t ∈ (ofItems items size).tokens) :
    ∃ good item rest, items = good ++ item :: rest ∧ (∀ i ∈ good, i.token? ≠ none) ∧
      item.placed? = some t := by
  induction items with
  | nil => simp [ofItems] at h
  | cons item items ih =>
    rw [ofItems] at h
    cases htoken : item.token? with
    | none => simp [htoken] at h
    | some token =>
      simp only [htoken, cons, List.mem_cons] at h
      rcases h with rfl | h
      · exact ⟨[], item, items, rfl, by simp, by simp [Item.placed?, htoken]⟩
      · obtain ⟨good, found, rest, rfl, hgood, hfound⟩ := ih h
        refine ⟨item :: good, found, rest, rfl, ?_, hfound⟩
        simpa [htoken] using hgood

theorem exists_item_of_error {items : List Item} {size : Nat} {error : LexError}
    (h : (ofItems items size).ending = .error error) :
    ∃ good item rest, items = good ++ item :: rest ∧ (∀ i ∈ good, i.token? ≠ none) ∧
      item.token? = none ∧ item.fault = error := by
  induction items with
  | nil => cases h
  | cons item items ih =>
    rw [ofItems] at h
    cases htoken : item.token? with
    | none =>
      rw [htoken] at h
      exact ⟨[], item, items, rfl, by simp, htoken, Except.error.inj h⟩
    | some token =>
      rw [htoken] at h
      obtain ⟨good, found, rest, rfl, hgood, hfound⟩ := ih h
      refine ⟨item :: good, found, rest, rfl, ?_, hfound⟩
      simpa [htoken] using hgood

theorem token?_of_ending {items : List Item} {size ending : Nat}
    (h : (ofItems items size).ending = .ok ending) :
    (∀ item ∈ items, item.token? ≠ none) ∧ ending = size := by
  induction items with
  | nil => exact ⟨by simp, (Except.ok.inj h).symm⟩
  | cons item items ih =>
    rw [ofItems] at h
    cases htoken : item.token? with
    | none =>
      rw [htoken] at h
      cases h
    | some token =>
      rw [htoken] at h
      simpa [htoken] using ih h

end Scan

/-- The operation that failed has its operator here. -/
def ArithmeticError.IsAt (t : Placed) : ArithmeticError → Prop
  | divisionByZero position => t.token = .div ∧ position = t.position
  | overflow position => (∃ op, Operator.ofToken? t.token = some op) ∧ position = t.position

theorem Operator.isAt_of_apply {op : Operator} {left right : Word} {t : Placed} {fault : ArithmeticError}
    (hop : ofToken? t.token = some op) (h : op.apply left right t.position = .error fault) :
    fault.IsAt t := by
  unfold apply at h
  split at h
  · rename_i hnone
    cases h
    have hdiv : op = .div := by
      cases op with
      | div => rfl
      | _ => cases hnone
    subst hdiv
    refine ⟨?_, rfl⟩
    cases htoken : t.token <;> simp_all [ofToken?]
  · split at h
    · cases h
      exact ⟨⟨op, hop⟩, rfl⟩
    · cases h

theorem Pending.ReadFrom.isAt {tokens : List Placed} {p : Pending} (h : p.ReadFrom tokens) {right : Word}
    {fault : ArithmeticError} (hsettle : settle (some p) right = .error (.arithmetic fault)) :
    ∃ t ∈ tokens, fault.IsAt t := by
  obtain ⟨t, ht, hop, hposition⟩ := h
  rw [settle, ← hposition] at hsettle
  cases happly : p.operator.apply p.left right t.position with
  | ok word =>
    rw [happly] at hsettle
    cases hsettle
  | error other =>
    rw [happly] at hsettle
    cases hsettle
    exact ⟨t, ht, Operator.isAt_of_apply hop happly⟩

theorem settle_ne_grammatical (pending : Option Pending) (right : Word) (grammar : GrammarError) :
    settle pending right ≠ .error (.grammatical grammar) := by
  intro h
  obtain ⟨_, _, _, heq, _⟩ := settle_eq_error h
  cases heq

namespace State

theorem StopsAt.exists_isAt {state : State} {t : Placed} {fault : ArithmeticError} {tokens : List Placed}
    (h : StopsAt state t (.arithmetic fault)) (howed : state.Owed tokens) :
    ∃ t' ∈ tokens, fault.IsAt t' := by
  cases h with
  | @product value level outer _ _ hproduct =>
    cases howes : level.product with
    | none =>
      rw [howes] at hproduct
      cases hproduct
    | some p =>
      rw [howes] at hproduct
      exact ((howed _ List.mem_cons_self).product p howes).2.isAt hproduct
  | @sum value product level outer _ _ _ _ hsum =>
    cases howes : level.sum with
    | none =>
      rw [howes] at hsum
      cases hsum
    | some p =>
      rw [howes] at hsum
      exact ((howed _ List.mem_cons_self).sum p howes).2.isAt hsum

/-- A token is not expected only where another kind is. -/
theorem StopsAt.kind_ne {state : State} {t : Placed} {expected : Token.Kind} {found : Token}
    {position : Nat} (h : StopsAt state t (.grammatical (.unexpectedToken expected found position)))
    (hend : t.token = .endOfInput → ∀ value level, state ≠ haveOperand value level []) :
    found.kind ≠ expected := by
  cases h with
  | noOperand hinteger _ => exact hinteger
  | product hproduct => exact absurd hproduct (settle_ne_grammatical _ _ _)
  | sum _ _ hsum => exact absurd hsum (settle_ne_grammatical _ _ _)
  | @noCloser value _ _ level outer _ _ hcloser _ _ =>
    cases outer with
    | nil =>
      intro hkind
      refine hend ?_ value level rfl
      cases htoken : t.token <;> simp_all [Token.kind, closer]
    | cons next outer =>
      intro hkind
      have hrparen : t.token = .rparen := by
        cases htoken : t.token <;> simp_all [Token.kind, closer]
      cases hcloser hrparen

end State

/-- An error is about the text, about a token that is seen or the end, or about an operation that one of
the tokens stands for. -/
theorem Scan.evaluate_blames {scan : Scan} {error : EvalError} (h : scan.evaluate = .error error)
    (hseen : ∀ t ∈ scan.tokens, t.token ≠ .endOfInput) :
    (∃ lexical, error = .lexical lexical ∧ scan.ending = .error lexical) ∨
    (∃ grammar t, error = .grammatical grammar ∧ grammar.IsAt t ∧
      (t ∈ scan.tokens ∨ t.token = .endOfInput ∧ scan.ending = .ok t.position) ∧
      ∀ expected found position, grammar = .unexpectedToken expected found position →
        found.kind ≠ expected) ∨
    ∃ fault, error = .arithmetic fault ∧ ∃ t ∈ scan.tokens, fault.IsAt t := by
  rcases evaluate_eq_error h with
    ⟨before, t, after, state, hsplit, hreach, hstep⟩ | ⟨lexical, hending, rfl⟩ |
      ⟨size, state, hending, hreach, hfinish⟩
  · have hstops := State.stopsAt_of_step hstep
    have ht : t ∈ scan.tokens := by simp [hsplit]
    rcases hstops.blames hreach.owed with ⟨grammar, rfl, hat⟩ | ⟨fault, rfl, -⟩
    · refine .inr (.inl ⟨grammar, t, rfl, hat, .inl ht, ?_⟩)
      rintro expected found position rfl
      exact hstops.kind_ne fun hend => absurd hend (hseen t ht)
    · obtain ⟨t', ht', hat⟩ := hstops.exists_isAt hreach.owed
      exact .inr (.inr ⟨fault, rfl, t', by simp [hsplit, ht'], hat⟩)
  · exact .inl ⟨lexical, rfl, hending⟩
  · have hstops := State.stopsAt_of_step (State.step_of_finish hfinish)
    rcases hstops.blames hreach.owed with ⟨grammar, rfl, hat⟩ | ⟨fault, rfl, -⟩
    · refine .inr (.inl ⟨grammar, ⟨.endOfInput, size⟩, rfl, hat, .inr ⟨rfl, hending⟩, ?_⟩)
      rintro expected found position rfl
      refine hstops.kind_ne fun _ value level hstate => ?_
      -- Outside of all parentheses a line may end behind an operand.
      subst hstate
      rcases bind_eq_error.mp hfinish with hproduct | ⟨product, hproduct, hrest⟩
      · exact settle_ne_grammatical _ _ _ hproduct
      rcases bind_eq_error.mp hrest with hsum | ⟨sum, hsum, hvalue⟩
      · exact settle_ne_grammatical _ _ _ hsum
      · cases hvalue
    · exact .inr (.inr ⟨fault, rfl, hstops.exists_isAt hreach.owed⟩)

/-! ## Where the culprit stands -/

/-- The line has `front` before this place, all of it characters that it may hold, and `rest` behind. -/
structure Divides (line : String) (position : Nat) (front rest : List Char) : Prop where
  text : line.toList = front ++ rest
  size : byteSize front = position
  legible : ∀ c ∈ front, Legible c

theorem Divides.length {line : String} {position : Nat} {front rest : List Char}
    (h : Divides line position front rest) : front.length = position := by
  rw [← h.size, byteSize_of_ascii fun c hc => (h.legible c hc).utf8Size]

/-- What is said of the text around the place of an error, with `front` before it and `rest` behind. -/
def EvalError.PointsAt (front rest : List Char) : EvalError → Prop
  | lexical (.unknownCharacter character _) => rest.head? = some character ∧ ¬ Legible character
  | lexical (.literalTooLarge literal _) =>
    StartsRun front rest ∧ literal.toList = rest.takeWhile Char.isDigit ∧
      9223372036854775807 < Decimal.value literal.toList
  | grammatical (.unexpectedToken expected found _) =>
    found.StandsAt front rest ∧ (rest = [] ↔ found = .endOfInput) ∧ found.kind ≠ expected
  | grammatical (.nestingTooDeep limit _) => rest.head? = some '(' ∧ limit = 256
  | arithmetic (.divisionByZero _) => rest.head? = some '/'
  | arithmetic (.overflow _) => ∃ c ∈ ['+', '-', '*', '/'], rest.head? = some c

namespace Item

theorem exists_divides {line : String} {good others : List Item} {item : Item}
    (h : ofLine line = good ++ item :: others) (hgood : ∀ i ∈ good, i.token? ≠ none) :
    ∃ front rest, Divides line item.position front (item.text ++ rest) ∧ Leads item.text rest ∧
      Apart front (item.text ++ rest) := by
  obtain ⟨front, rest, htext, hcut, hposition, hleads, hapart⟩ := exists_divided h
  refine ⟨front, rest, ⟨htext, ?_, legible_of_cut (hcut ▸ hgood)⟩, hleads, hapart⟩
  rw [hposition, Nat.zero_add]

theorem Leads.pointsAt {front first rest : List Char} {position : Nat} (h : Leads first rest)
    (hapart : Apart front (first ++ rest)) (hnone : (Item.mk first position).token? = none) :
    (EvalError.lexical (Item.mk first position).fault).PointsAt front (first ++ rest) := by
  rcases h.of_fault (read_eq_error_iff.mpr ⟨hnone, rfl⟩) with
    ⟨c, rfl, notBlank, notDigit, hof, -⟩ | ⟨hfault, hlarge, ne, digits, ends⟩
  · refine ⟨rfl, ?_⟩
    rintro (hblank | hdigit | hsign)
    · exact notBlank hblank
    · rw [notDigit] at hdigit
      cases hdigit
    · exact Token.ofChar?_eq_none_iff.mp hof hsign
  · rw [hfault]
    refine ⟨startsRun_of_run ne digits hapart, ?_, ?_⟩
    · rw [takeWhile_isDigit digits ends, String.toList_ofList]
    · rw [String.toList_ofList]
      exact hlarge

end Item

namespace Scan

variable {line : String}

theorem exists_divides_token {t : Placed} (h : t ∈ (ofString line).tokens) :
    ∃ front rest, Divides line t.position front rest ∧ t.token.StandsAt front rest ∧ rest ≠ [] := by
  rw [ofString_eq] at h
  obtain ⟨good, item, others, hitems, hgood, hplaced⟩ := exists_item_of_mem h
  obtain ⟨front, rest, hdivides, hleads, hapart⟩ := Item.exists_divides hitems hgood
  obtain ⟨token, htoken, rfl⟩ := Option.map_eq_some_iff.mp hplaced
  exact ⟨front, item.text ++ rest, hdivides, hleads.standsAt hapart htoken, by simp [hleads.ne_nil]⟩

theorem divides_end {position : Nat} (h : (ofString line).ending = .ok position) :
    Divides line position line.toList [] := by
  rw [ofString_eq] at h
  obtain ⟨hgood, rfl⟩ := token?_of_ending h
  exact ⟨by simp, byteSize_toList line, Item.legible_of_cut hgood⟩

theorem exists_divides_error {error : LexError} (h : (ofString line).ending = .error error) :
    ∃ front rest, Divides line error.position front rest ∧
      (EvalError.lexical error).PointsAt front rest := by
  rw [ofString_eq] at h
  obtain ⟨good, item, others, hitems, hgood, hnone, rfl⟩ := exists_item_of_error h
  obtain ⟨front, rest, hdivides, hleads, hapart⟩ := Item.exists_divides hitems hgood
  exact ⟨front, item.text ++ rest, item.position_fault ▸ hdivides, hleads.pointsAt hapart hnone⟩

theorem token_ne_endOfInput_of_mem {t : Placed} (h : t ∈ (ofString line).tokens) :
    t.token ≠ .endOfInput := by
  obtain ⟨rest, hrest⟩ := exists_placedTokens_eq line
  exact @token_ne_endOfInput line t (by simp [hrest, h])

theorem exists_divides_place {t : Placed}
    (h : t ∈ (ofString line).tokens ∨ t.token = .endOfInput ∧ (ofString line).ending = .ok t.position) :
    ∃ front rest, Divides line t.position front rest ∧ t.token.StandsAt front rest ∧
      (rest = [] ↔ t.token = .endOfInput) := by
  rcases h with ht | ⟨hend, hending⟩
  · obtain ⟨front, rest, hdivides, hstands, hne⟩ := exists_divides_token ht
    exact ⟨front, rest, hdivides, hstands, by simp [hne, token_ne_endOfInput_of_mem ht]⟩
  · refine ⟨line.toList, [], divides_end hending, ?_, by simp [hend]⟩
    rw [hend]
    rfl

end Scan

theorem Operator.head_of_standsAt {token : Token} {op : Operator} (hop : ofToken? token = some op)
    {front rest : List Char} (h : token.StandsAt front rest) :
    ∃ c ∈ ['+', '-', '*', '/'], rest.head? = some c := by
  cases token with
  | plus => exact ⟨'+', by simp, h.head?_eq rfl⟩
  | minus => exact ⟨'-', by simp, h.head?_eq rfl⟩
  | mul => exact ⟨'*', by simp, h.head?_eq rfl⟩
  | div => exact ⟨'/', by simp, h.head?_eq rfl⟩
  | _ => cases hop

/-- Whatever goes wrong with a line, its place divides the line, and points at the culprit. -/
theorem exists_divides_of_evaluate {line : String} {error : EvalError}
    (h : evaluate line = .error error) :
    ∃ front rest, Divides line error.position front rest ∧ error.PointsAt front rest := by
  rcases Scan.evaluate_blames h fun t ht => Scan.token_ne_endOfInput_of_mem ht with
    ⟨lexical, rfl, hending⟩ | ⟨grammar, t, rfl, hat, hplace, hkind⟩ | ⟨fault, rfl, t, ht, hat⟩
  · exact Scan.exists_divides_error hending
  · obtain ⟨front, rest, hdivides, hstands, hend⟩ := Scan.exists_divides_place hplace
    have hposition : (EvalError.grammatical grammar).position = t.position := hat.position_eq
    refine ⟨front, rest, hposition ▸ hdivides, ?_⟩
    cases grammar with
    | unexpectedToken expected found position =>
      obtain ⟨rfl, rfl⟩ := hat
      exact ⟨hstands, hend, hkind _ _ _ rfl⟩
    | nestingTooDeep limit position =>
      obtain ⟨htoken, rfl, rfl⟩ := hat
      rw [htoken] at hstands
      exact ⟨hstands.head?_eq rfl, rfl⟩
  · obtain ⟨front, rest, hdivides, hstands, -⟩ := Scan.exists_divides_token ht
    cases fault with
    | divisionByZero position =>
      obtain ⟨htoken, rfl⟩ := hat
      rw [htoken] at hstands
      exact ⟨front, rest, hdivides, hstands.head?_eq rfl⟩
    | overflow position =>
      obtain ⟨⟨op, hop⟩, rfl⟩ := hat
      exact ⟨front, rest, hdivides, Operator.head_of_standsAt hop hstands⟩

/-- **The place of an error is where the culprit stands.** It divides the line between two characters.
Before it there are spaces, digits and signs alone, so that it is also a count of characters. Behind it
stands the sign of the division by zero, or of the operation that leaves the range; the parenthesis that
exceeds the limit; the very token that was found, of another kind than the one expected, which is the end
of the line just if nothing is left; the character that is unknown; or the number that is too large, with
all of its digits. -/
theorem evaluate_pointsAt (line : String) (error : EvalError) (h : evaluate line = .error error) :
    error.position ≤ line.utf8ByteSize ∧
    ∃ front rest : String, line = front ++ rest ∧ front.utf8ByteSize = error.position ∧
      front.length = error.position ∧ (∀ c ∈ front.toList, Legible c) ∧
      (error.position = line.utf8ByteSize ↔ rest = "") ∧ error.PointsAt front.toList rest.toList := by
  obtain ⟨front, rest, hdivides, hpoints⟩ := exists_divides_of_evaluate h
  have hline : line = String.ofList front ++ String.ofList rest := by
    rw [← String.ofList_append, ← hdivides.text, String.ofList_toList]
  have hsize : line.utf8ByteSize = error.position + byteSize rest := by
    rw [← byteSize_toList, hdivides.text, byteSize_append, hdivides.size]
  refine ⟨by omega, String.ofList front, String.ofList rest, hline, hdivides.size, ?_, ?_, ?_, ?_⟩
  · simpa using hdivides.length
  · simpa using hdivides.legible
  · cases rest with
    | nil => simpa using hsize.symm
    | cons c rest =>
      have := @byteSize_pos (c :: rest) (by simp)
      simp only [String.ofList_eq_empty_iff, reduceCtorEq, iff_false]
      omega
  · simpa using hpoints

/-- A product that leaves the range, inside of a parenthesis, on a line that goes wrong behind it. -/
theorem evaluate_pointsAt_product :
    evaluate "1 + (9223372036854775807 * 2 ) ?" = .error (.arithmetic (.overflow 25)) ∧
      ∃ front rest : String, "1 + (9223372036854775807 * 2 ) ?" = front ++ rest ∧ front.length = 25 ∧
        ∃ c ∈ ['+', '-', '*', '/'], rest.toList.head? = some c := by
  have hline : evaluate "1 + (9223372036854775807 * 2 ) ?" = .error (.arithmetic (.overflow 25)) := by
    rw [evaluate, Scan.ofString_eq]
    rfl
  obtain ⟨-, front, rest, htext, -, hlength, -, -, hpoints⟩ := evaluate_pointsAt _ _ hline
  exact ⟨hline, front, rest, htext, hlength, hpoints⟩

end LineCalc
