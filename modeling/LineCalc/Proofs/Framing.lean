/-
What a session writes is whole lines, and there are as many as it has counted.

On the error stream there is one line for each text that failed, and all of them start in the same way, since
every message starts with the place that it belongs to (`EvalError.exists_message`). On the output of a session
that works out values there is one line for each text that has one, and it is that value in canonical decimal
form. No line holds a line feed, whatever the texts hold.
-/
import LineCalc.Proofs.Accounting
import LineCalc.Proofs.Numeral

namespace LineCalc

/-! ## Lines of either stream -/

theorem LexError.exists_message (error : LexError) :
    ∃ message, error.message = messageAt error.position message := by
  cases error with
  | unknownCharacter character position => exact ⟨_, rfl⟩
  | literalTooLarge literal position => exact ⟨_, rfl⟩

/-- Every message says first where it belongs. -/
theorem EvalError.exists_message (error : EvalError) :
    ∃ message, error.message = messageAt error.position message := by
  cases error with
  | lexical error => exact error.exists_message
  | grammatical error => cases error <;> exact ⟨_, rfl⟩
  | arithmetic error => cases error <;> exact ⟨_, rfl⟩

theorem Decimal.oneLine_ofInt (i : Int) : OneLine (ofInt i) := by
  cases i with
  | ofNat n => exact oneLine_ofNat n
  | negSucc n =>
    have hminus : OneLine "-" := by decide
    exact hminus.append (oneLine_ofNat (n + 1))

/-- How each line on the error stream starts. -/
def diagnosticStart : Bytes := Utf8.encode "error: Error at position "

theorem Utf8.prefix_encode_append (a b : String) : encode a <+: encode (a ++ b) :=
  ⟨encode b, (encode_append a b).symm⟩

theorem encode_prefix_messageAt (position : Nat) (message : String) :
    Utf8.encode "Error at position " <+: Utf8.encode (messageAt position message) := by
  have hposition := Utf8.prefix_encode_append "Error at position " (Decimal.ofNat position)
  exact (hposition.trans (Utf8.prefix_encode_append _ ": ")).trans (Utf8.prefix_encode_append _ message)

theorem diagnosticStart_prefix_encode (position : Nat) (message : String) :
    diagnosticStart <+: Utf8.encode ("error: " ++ messageAt position message) := by
  have hstart : diagnosticStart = Utf8.encode "error: " ++ Utf8.encode "Error at position " := by decide
  have hmessage := Utf8.encode_append "error: " (messageAt position message)
  rw [hstart, hmessage]
  exact (List.prefix_append_right_inj _).mpr (encode_prefix_messageAt position message)

namespace Session

theorem exists_diagnostic {s : Session} {text : String} (h : s.mode.accepts text = false) :
    ∃ line, reported (s.respond text).effects = line ++ [0x0A] ∧ 0x0A ∉ line ∧
      diagnosticStart <+: line := by
  rcases (s.respond_cases text).2 with ⟨haccepts, -⟩ | ⟨-, -, -, error, hrejects, hreported⟩
  · cases haccepts.symm.trans h
  · obtain ⟨message, hmessage⟩ := error.exists_message
    refine ⟨Utf8.encode ("error: " ++ error.message), ?_, Utf8.feed_not_mem_encode hrejects.oneLine, ?_⟩
    · rw [hreported, Utf8.encode_line]
    · rw [hmessage]
      exact diagnosticStart_prefix_encode error.position message

theorem exists_value {s : Session} (hmode : s.mode = .evaluate) {text : String}
    (h : s.mode.accepts text = true) :
    ∃ value : Word, evaluate text = .ok value ∧
      written (s.respond text).effects = Utf8.encode (Decimal.ofInt value.toInt) ++ [0x0A] := by
  cases s.responds text with
  | value result record _ _ ok respond_eq =>
    refine ⟨result, ok, ?_⟩
    rw [respond_eq, ← Utf8.encode_line]
    simp [Response.success, written, Effect.toOut]
  | dump _ mode => cases hmode.symm.trans mode
  | failure _ _ rejected => cases h.symm.trans rejected

/-! ## All lines -/

theorem cut_reported {s : Session} {failures : List String}
    (h : ∀ text ∈ failures, s.mode.accepts text = false) :
    ∃ diagnostics,
      Input.cut (failures.flatMap fun text => reported (s.respond text).effects) = (diagnostics, []) ∧
      diagnostics.length = failures.length ∧ ∀ line ∈ diagnostics, diagnosticStart <+: line := by
  have hlines : ∀ text ∈ failures, ∃ line : Bytes, diagnosticStart <+: line ∧
      reported (s.respond text).effects = id line ++ [0x0A] ∧ 0x0A ∉ id line := by
    intro text htext
    obtain ⟨line, hreported, hfeed, hstart⟩ := exists_diagnostic (h text htext)
    exact ⟨line, hstart, hreported, hfeed⟩
  obtain ⟨diagnostics, hall, hcut⟩ := Input.cut_flatMap hlines
  rw [List.map_id] at hcut
  have hstarts : List.Forall₂ (fun line _ => diagnosticStart <+: line ∧ True) diagnostics failures :=
    hall.flip.imp fun line text hstart => ⟨hstart, trivial⟩
  exact ⟨diagnostics, hcut, hall.length_eq.symm, ((List.forall₂_and_left _ _).mp hstarts).1⟩

theorem cut_written {s : Session} (hmode : s.mode = .evaluate) {successes : List String}
    (h : ∀ text ∈ successes, s.mode.accepts text = true) :
    ∃ values : List Word, successes.map evaluate = values.map .ok ∧
      Input.cut (successes.flatMap fun text => written (s.respond text).effects) =
        (values.map fun value => Utf8.encode (Decimal.ofInt value.toInt), []) := by
  have hlines : ∀ text ∈ successes, ∃ value : Word, evaluate text = .ok value ∧
      written (s.respond text).effects = Utf8.encode (Decimal.ofInt value.toInt) ++ [0x0A] ∧
      0x0A ∉ Utf8.encode (Decimal.ofInt value.toInt) := by
    intro text htext
    obtain ⟨value, hvalue, hwritten⟩ := exists_value hmode (h text htext)
    exact ⟨value, hvalue, hwritten, Utf8.feed_not_mem_encode (Decimal.oneLine_ofInt value.toInt)⟩
  obtain ⟨values, hall, hcut⟩ := Input.cut_flatMap hlines
  have hvalues : List.Forall₂ Eq (successes.map evaluate) (values.map .ok) := by
    simpa [List.forall₂_map_left_iff, List.forall₂_map_right_iff] using hall
  exact ⟨values, List.forall₂_eq_eq_eq ▸ hvalues, hcut⟩

end Session

/-- What is seen of a session is whole lines, as many as were counted: on the error stream one for each text that
failed, and on the output, if values are worked out, the values of the texts that have one, in order. -/
structure Observed.Framed (o : Observed) (mode : Mode) (successes : List String) (counts : Summary) :
    Prop where
  err : ∃ diagnostics, Input.cut o.err = (diagnostics, []) ∧ diagnostics.length = counts.failed ∧
    ∀ line ∈ diagnostics, Utf8.encode "error: Error at position " <+: line
  out : mode = .evaluate → ∃ values : List Word,
    successes.map evaluate = values.map .ok ∧ values.length = counts.evaluated ∧
    Input.cut o.out = (values.map fun value => Utf8.encode (Decimal.ofInt value.toInt), [])

theorem Session.Accounts.framed {s : Session} {successes failures : List String} {effects : List Effect}
    {counts : Summary} (h : s.Accounts successes failures .zero effects counts) {o : Observed}
    (hout : o.out = written effects) (herr : o.err = reported effects) :
    o.Framed s.mode successes counts where
  err := by
    obtain ⟨diagnostics, hcut, hlength, hstarts⟩ := Session.cut_reported h.rejected
    refine ⟨diagnostics, ?_, ?_, hstarts⟩
    · rw [herr, h.reported_eq, hcut]
    · rw [hlength, h.failed_eq]
      exact (Nat.zero_add _).symm
  out := by
    intro hmode
    obtain ⟨values, hvalues, hcut⟩ := Session.cut_written hmode h.accepted
    have hlength : successes.length = values.length := by simpa using congrArg List.length hvalues
    refine ⟨values, hvalues, ?_, ?_⟩
    · rw [← hlength, h.evaluated_eq]
      exact (Nat.zero_add _).symm
    · rw [hout, h.written_eq, hcut]

/-- **What a session writes is whole lines, and matches its counts.** On streams that never fail, let a session
without a prompt end well. Then the error stream is as many lines as texts have failed, and each of them starts
by saying where the error is. If values are worked out, the output is as many lines as texts have a value, and
they are these values in order. So it is with any text that stands alone, whatever is in it, with or without a
prompt. Each value is in canonical decimal form, and can be read again. -/
theorem run_framed (s : Session) :
    (s.prompt? = none → ∀ input counts, ((s.run input).perform .sound).result = .ok counts →
      ((s.run input).perform .sound).Framed s.mode (s.successes (Session.texts input.lines)) counts) ∧
    (∀ text, ∃ counts, ((s.runExpression text).perform .sound).result = .ok counts ∧
      ((s.runExpression text).perform .sound).Framed s.mode (s.successes [text]) counts) ∧
    ∀ value : Word, Decimal.Canonical (Decimal.ofInt value.toInt).toList ∧
      Decimal.word? (Decimal.ofInt value.toInt).toList = some value := by
  refine ⟨fun hprompt input counts hok => ?_, fun text => ?_, fun value => ?_⟩
  · rw [Script.perform_sound] at hok ⊢
    obtain ⟨failures, haccounts⟩ := Session.converse_accounts hprompt hok
    exact haccounts.framed rfl rfl
  · rw [s.perform_runExpression]
    obtain ⟨failures, haccounts⟩ := s.respond_accounts text
    exact ⟨_, rfl, haccounts.framed rfl rfl⟩
  · exact ⟨Decimal.canonical_ofInt _, Decimal.word?_ofInt value⟩

/-- A line with a negative value, and one that is no expression. -/
theorem run_framed_negative :
    let o := (Session.initial.run (.ofBytes (Utf8.encode "1-3\nx\n"))).perform .sound
    o.result = .ok ⟨1, 1⟩ ∧
      o.Framed .evaluate
        (Session.initial.successes (Session.texts (Input.ofBytes (Utf8.encode "1-3\nx\n")).lines)) ⟨1, 1⟩ := by
  have hlines : (Input.ofBytes (Utf8.encode "1-3\nx\n")).lines = [Utf8.encode "1-3", Utf8.encode "x"] := by
    decide
  have hblank : isBlankLine "1-3" = false ∧ isBlankLine "x" = false := by decide
  have hvalue : evaluate "1-3" = .ok (-2) := by
    rw [evaluate, Scan.ofString_eq]
    rfl
  have herror : evaluate "x" = .error (.lexical (.unknownCharacter 'x' 0)) := by
    rw [evaluate, Scan.ofString_eq]
    rfl
  have hok : ((Session.initial.run (.ofBytes (Utf8.encode "1-3\nx\n"))).perform .sound).result =
      .ok ⟨1, 1⟩ := by
    rw [Script.perform_sound]
    show (Session.converse _ none _ .zero).result = _
    simp [hlines, Session.converse, Session.turn, hblank, Session.respond, Session.initial, hvalue, herror,
      Response.success, Response.failure, Session.close, Script.after, Summary.add, Summary.zero]
  exact ⟨hok, (run_framed .initial).1 rfl _ _ hok⟩

end LineCalc
