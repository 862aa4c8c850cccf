/-
A lexer that has been used goes on as a new lexer does on the text that is left.

All offsets of the first are ahead of those of the second by the bytes that have been read
(`Lexer.Ahead`). Nothing that is handed out depends on them, and `nextToken` does not ask whether an error has
been met, so the two stay in step. An evaluation that starts at either sees the same tokens, moved.
-/
import LineCalc.Proofs.Requests
import LineCalc.Proofs.Relocation
import LineCalc.Proofs.Descent

namespace LineCalc

/-! ## Moving what is handed out -/

def Piece.relocate (move : Nat → Nat) (p : Piece) : Piece :=
  ⟨p.result.mapError (·.relocate move), move p.start, move p.stop⟩

def Reply.relocate (move : Nat → Nat) : Reply → Reply
  | handed piece => handed (piece.relocate move)
  | ended position => ended (move position)
  | silent => silent

/-! ## In step -/

namespace Lexer

/-- Both have the same text to read, and the first one is further on in its line by this many bytes. -/
structure Ahead (size : Nat) (used fresh : Lexer) : Prop where
  rest_eq : used.rest = fresh.rest
  cursor_eq : used.cursor = fresh.cursor + size

/-- The next token is the same, and both are in step behind it. -/
theorem Ahead.nextToken {size : Nat} {used fresh after : Lexer} {result : Except LexError Token}
    (h : Ahead size used fresh) (hnext : fresh.nextToken = (result, after)) :
    ∃ used', used.nextToken = (result.mapError (·.relocate (· + size)), used') ∧
      used'.position = after.position + size ∧ Ahead size used' after := by
  have hstart (n : Nat) : fresh.cursor + size + n = fresh.cursor + n + size := Nat.add_right_comm ..
  obtain ⟨rfl, rfl⟩ : fresh.nextToken.1 = result ∧ fresh.nextToken.2 = after := by
    rw [hnext]
    exact ⟨rfl, rfl⟩
  refine ⟨used.nextToken.2, ?_⟩
  unfold Lexer.nextToken
  rw [h.rest_eq, h.cursor_eq, hstart]
  dsimp only
  split
  · exact ⟨rfl, rfl, rfl, rfl⟩
  · split <;> split <;> exact ⟨rfl, rfl, rfl, Nat.add_right_comm ..⟩

theorem Ahead.askToken {size : Nat} {used fresh : Lexer} (h : Ahead size used fresh) :
    used.askToken.1 = fresh.askToken.1.relocate (· + size) ∧
      Ahead size used.askToken.2 fresh.askToken.2 := by
  rcases hfresh : fresh.nextToken with ⟨result, after⟩
  obtain ⟨used', hused, hposition, hahead⟩ := h.nextToken hfresh
  rw [Lexer.askToken, Lexer.askToken, hused, hfresh]
  rcases result with error | token
  · refine ⟨?_, hahead⟩
    simp only [Reply.relocate, Piece.relocate, mapError_error, hposition, hahead.cursor_eq]
  · cases token <;> refine ⟨?_, hahead⟩ <;>
      simp only [Reply.relocate, Piece.relocate, mapError_ok, hposition, hahead.cursor_eq]

theorem Ahead.serve_tokens {size : Nat} {used fresh : Lexer} (h : Ahead size used fresh) (count : Nat) :
    (used.serve (.replicate count .token)).1 =
      (fresh.serve (.replicate count .token)).1.map (Reply.relocate (· + size)) := by
  induction count generalizing used fresh with
  | zero => rfl
  | succ count ih =>
    obtain ⟨hreply, hahead⟩ := h.askToken
    simp only [List.replicate_succ, serve, answer, hreply, ih hahead, List.map_append, List.map_cons,
      List.map_nil]

theorem Ahead.scan {size : Nat} {used fresh : Lexer} (h : Ahead size used fresh) :
    used.scan = fresh.scan.relocate (· + size) := by
  rcases hfresh : fresh.nextToken with ⟨result, after⟩
  obtain ⟨used', hused, hposition, hahead⟩ := h.nextToken hfresh
  rw [scan_eq used, scan_eq fresh, hused, hfresh]
  rcases result with error | token
  · rfl
  · simp only [mapError_ok, hposition]
    by_cases hend : token = .endOfInput
    · rw [if_pos hend, if_pos hend]
      rfl
    · have hless := length_nextToken_lt hfresh (fun he => hend (Except.ok.inj he))
      rw [if_neg hend, if_neg hend, hahead.scan]
      rfl
termination_by fresh.rest.length

end Lexer

/-! ## Evaluation from a lexer on -/

theorem Scan.start_relocate (move : Nat → Nat) (scan : Scan) :
    (scan.relocate move).start = (scan.start.map (·.relocate move)).mapError (·.relocate move) := by
  obtain ⟨tokens, ending⟩ := scan
  cases tokens with
  | nil => cases ending <;> rfl
  | cons t tokens => rfl

/-- Evaluation from a lexer on. The outer error is one of the first token, which is read beforehand. -/
def Lexer.resume (l : Lexer) : Except LexError (Except EvalError Word) := l.scan.start.map Scan.evaluate

/-- The same by recursive descent. -/
def Descent.resume (l : Lexer) : Except LexError (Except EvalError Word) :=
  (Reader.start l).map fun r => ((line r).map Prod.fst).mapError Failure.error

/-- If the first token can be read, no error stands at the very start. -/
theorem Reader.start_scan_of_read {lexer : Lexer} {depth : Nat} {log : List Record} {r : Reader}
    (h : read lexer depth log = .ok r) : lexer.scan.start = .ok lexer.scan := by
  unfold read at h
  split at h
  next error after hnext => cases h
  next token after hnext =>
    rw [Lexer.scan_eq, hnext]
    dsimp only
    split <;> rfl

theorem Descent.resume_eq (l : Lexer) : Descent.resume l = l.resume := by
  rw [Descent.resume, Lexer.resume, Reader.start]
  rcases Reader.read_cases l 0 [] with ⟨error, hread, hscan⟩ | ⟨r, hread, hdepth, hanswer⟩
  · rw [hread, hscan]
    rfl
  · have hline := accords_line ⟨hanswer .initial, hdepth⟩
    have hvalue : ((line r).map Prod.fst).mapError Failure.error = l.scan.evaluate := by
      cases hr : line r <;> rw [hr] at hline <;> exact (congrArg Prod.fst hline).symm
    rw [hread, Reader.start_scan_of_read hread]
    exact congrArg Except.ok hvalue

namespace Lexer

/-- The first lexer goes on as the second one does, further on in its line by this many bytes. -/
structure GoesOnAs (size : Nat) (used fresh : Lexer) : Prop where
  /-- It hands out the same. -/
  tokens : ∀ count, (used.serve (.replicate count .token)).1 =
    (fresh.serve (.replicate count .token)).1.map (Reply.relocate (· + size))
  /-- Evaluation comes to the same, and fails at the first token if it does so there. -/
  resume : Descent.resume used =
    ((Descent.resume fresh).map (·.mapError (·.relocate (· + size)))).mapError (·.relocate (· + size))
  /-- So it is with evaluation in one pass, which is no other. -/
  one_pass : Descent.resume used = used.resume

theorem Ahead.goesOnAs {size : Nat} {used fresh : Lexer} (h : Ahead size used fresh) :
    GoesOnAs size used fresh where
  tokens := h.serve_tokens
  resume := by
    rw [Descent.resume_eq, Descent.resume_eq, Lexer.resume, Lexer.resume, h.scan, Scan.start_relocate]
    cases fresh.scan.start with
    | error error => rfl
    | ok scan => exact congrArg Except.ok (Scan.evaluate_relocate _ scan)
  one_pass := Descent.resume_eq used

/-- **A lexer that has been used is a new one on the text that is left**, whatever it was asked for, and
whether or not there was an error. -/
theorem serve_goesOnAs (line : String) (requests : List Request) :
    ∃ front rest, line = front ++ rest ∧
      front.utf8ByteSize = Reply.reached ((ofString line).serve requests).1 ∧
      (∀ position, .ended position ∈ ((ofString line).serve requests).1 → rest = "") ∧
      GoesOnAs front.utf8ByteSize ((ofString line).serve requests).2 (ofString rest) := by
  have h := stands_serve line requests
  obtain ⟨front, htext, hfront⟩ := h.text
  have hahead : Ahead (byteSize front) ((ofString line).serve requests).2
      (ofString (String.ofList ((ofString line).serve requests).2.rest)) :=
    ⟨String.toList_ofList.symm, by rw [hfront]; exact (Nat.zero_add _).symm⟩
  refine ⟨_, _, eq_ofList_append htext, hfront.trans h.cursor_eq, ?_, hahead.goesOnAs⟩
  intro position hended
  rw [(h.ended position hended).2]

end Lexer

end LineCalc
