/-
The two policies side by side. As long as no line fails, they do not differ. A line that fails is dealt
with in the same way under either of them (`Session.turn_withPolicy`); only then does one session end and
the other go on. So what the first has written is the beginning of what the second writes, and the two are
the same if no line fails (`Session.converse_withPolicy`).
-/
import LineCalc.Proofs.Conversation
import LineCalc.Proofs.Diagnostic

namespace LineCalc

/-! ## How a line fares -/

theorem Mode.Rejects.oneLine {mode : Mode} {text : String} {error : EvalError}
    (h : mode.Rejects text error) : OneLine ("error: " ++ error.message) := by
  have hlabel : OneLine "error: " := by decide
  refine hlabel.append ?_
  cases mode with
  | evaluate => exact oneLine_of_evaluate h
  | tokens =>
    obtain ⟨lexical, rfl, htokens⟩ := h
    exact oneLine_of_tokenize htokens

namespace Session

/-- The line is more than spaces, and gives a result. -/
def succeeds (s : Session) (line : Bytes) : Bool :=
  match Utf8.decode? line with
  | none => false
  | some text => !isBlankLine text && s.mode.accepts text

/-- The line is more than spaces, and gives none. -/
def fails (s : Session) (line : Bytes) : Bool :=
  match Utf8.decode? line with
  | none => false
  | some text => !isBlankLine text && !s.mode.accepts text

/-- The same session under another policy. -/
def withPolicy (s : Session) (policy : Policy) : Session := { s with onError := policy }

@[simp] theorem withPolicy_onError (s : Session) (policy : Policy) :
    (s.withPolicy policy).onError = policy := rfl

@[simp] theorem withPolicy_ask (s : Session) (policy : Policy) : (s.withPolicy policy).ask = s.ask := rfl

@[simp] theorem withPolicy_respond (s : Session) (policy : Policy) :
    (s.withPolicy policy).respond = s.respond := rfl

/-- All that one line can do under the two policies. -/
theorem turn_withPolicy (s : Session) (line : Bytes) :
    (s.fails line = false ∧ ∀ policy, (s.withPolicy policy).turn line = .broken) ∨
    (s.fails line = false ∧ ∃ effects, reported effects = [] ∧
      ∀ policy, (s.withPolicy policy).turn line = .next effects ⟨(s.succeeds line).toNat, 0⟩) ∨
    (s.fails line = true ∧ ∃ effects diagnostic, OneLine diagnostic ∧
      reported effects = Utf8.encode (diagnostic ++ "\n") ∧
      (s.withPolicy .exit).turn line = .last effects ⟨0, 1⟩ ∧
      (s.withPolicy .proceed).turn line = .next effects ⟨0, 1⟩) := by
  unfold fails succeeds
  cases turns line with
  | broken undecoded turn_eq => exact .inl ⟨by rw [undecoded], fun _ => turn_eq _⟩
  | skipped text decoded blank turn_eq =>
    refine .inr (.inl ⟨by simp [decoded, blank], [], rfl, fun policy => ?_⟩)
    simp [turn_eq, decoded, blank, Summary.zero]
  | answered text decoded notBlank turn_eq =>
    rcases (s.respond_cases text).2 with
      ⟨haccepts, hsummary, herr⟩ | ⟨haccepts, hsummary, -, error, hrejects, herr⟩
    · refine .inr (.inl ⟨by simp [decoded, haccepts], _, herr, fun policy => ?_⟩)
      simp [turn_eq, decoded, notBlank, haccepts, hsummary]
    · refine .inr (.inr ⟨by simp [decoded, notBlank, haccepts], _, _, hrejects.oneLine, herr, ?_, ?_⟩)
      · simp [turn_eq, hsummary]
      · simp [turn_eq, hsummary]

/-! ## All lines -/

/-- No line fails, and the policy does not matter. -/
structure Unfailing (s : Session) (lines : List Bytes) (summary : Summary) : Prop where
  converse_eq : (s.withPolicy .exit).converse none lines summary =
    (s.withPolicy .proceed).converse none lines summary
  failed : ∀ total, ((s.withPolicy .exit).converse none lines summary).result = .ok total →
    total.failed = summary.failed

/-- After `before` a line fails. Up to there the sessions do the same, and report this line alone; then
the one ends, and the other goes on with `rest`. -/
structure PartsAt (s : Session) (before : List Bytes) (lines : List Bytes) (summary : Summary)
    (effects : List Effect) (rest : Script) : Prop where
  exit_eq : (s.withPolicy .exit).converse none lines summary =
    (close ⟨summary.evaluated + before.countP s.succeeds, summary.failed + 1⟩).after effects
  proceed_eq : (s.withPolicy .proceed).converse none lines summary = rest.after effects
  first : ∃ line after, lines = before ++ line :: after ∧ s.fails line = true ∧
    ∀ other ∈ before, s.fails other = false
  reports : ∃ diagnostic, OneLine diagnostic ∧ reported effects = Utf8.encode (diagnostic ++ "\n")

theorem close_written (summary : Summary) (effects : List Effect) :
    written ((close summary).after effects).effects = written effects := by
  simp [close, Script.after, written, Effect.toOut]

theorem close_reported (summary : Summary) (effects : List Effect) :
    reported ((close summary).after effects).effects = reported effects := by
  simp [close, Script.after, reported, Effect.toErr]

theorem reported_ask (s : Session) : reported s.ask = [] := by
  unfold ask
  cases s.prompt? <;> rfl

theorem converse_withPolicy (s : Session) (lines : List Bytes) (summary : Summary) :
    s.Unfailing lines summary ∨ ∃ before effects rest, s.PartsAt before lines summary effects rest := by
  induction lines generalizing summary with
  | nil =>
    refine .inl ⟨rfl, fun total htotal => ?_⟩
    obtain rfl := Except.ok.inj htotal
    rfl
  | cons line lines ih =>
    have hexit := (s.withPolicy .exit).converse_cons none line lines summary
    have hproceed := (s.withPolicy .proceed).converse_cons none line lines summary
    simp only [withPolicy_ask] at hexit hproceed
    rcases s.turn_withPolicy line with
      ⟨-, hturn⟩ | ⟨hfails, effects, herr, hturn⟩ | ⟨hfails, effects, diagnostic, hline, herr, hturn, hturn'⟩
    · simp only [hturn] at hexit hproceed
      refine .inl ⟨hexit.trans hproceed.symm, fun total htotal => ?_⟩
      rw [hexit] at htotal
      cases htotal
    · simp only [hturn] at hexit hproceed
      rcases ih (summary.add ⟨(s.succeeds line).toNat, 0⟩) with hsame | ⟨before, more, rest, hparts⟩
      · refine .inl ⟨by rw [hexit, hproceed, hsame.converse_eq], fun total htotal => ?_⟩
        rw [hexit] at htotal
        exact hsame.failed total htotal
      · obtain ⟨last, after, rfl, hlast, hbefore⟩ := hparts.first
        obtain ⟨diagnostic, hline, hmore⟩ := hparts.reports
        refine .inr ⟨line :: before, s.ask ++ effects ++ more, rest, ?_, ?_, ?_, ?_⟩
        · rw [hexit, hparts.exit_eq]
          have hcount : (summary.add ⟨(s.succeeds line).toNat, 0⟩).evaluated + before.countP s.succeeds =
              summary.evaluated + (line :: before).countP s.succeeds := by
            rw [List.countP_cons, Summary.add]
            cases s.succeeds line
            · simp
            · simp only [Bool.toNat_true, if_true]
              omega
          rw [hcount]
          simp [Script.after, Summary.add]
        · rw [hproceed, hparts.proceed_eq]
          simp [Script.after]
        · exact ⟨last, after, rfl, hlast, List.forall_mem_cons.mpr ⟨hfails, hbefore⟩⟩
        · exact ⟨diagnostic, hline, by simp [reported_ask, herr, hmore]⟩
    · simp only [hturn] at hexit
      simp only [hturn'] at hproceed
      refine .inr ⟨[], s.ask ++ effects, _, ?_, hproceed, ⟨line, lines, rfl, hfails, by simp⟩, ?_⟩
      · simpa [Summary.add] using hexit
      · exact ⟨diagnostic, hline, by rw [reported_append, reported_ask, herr, List.nil_append]⟩

end Session

/-- **Ending at the first failure cuts the session short, and does nothing else.** Of the same input, a
session that ends at the first line that fails writes, to either stream, the beginning of what it would
write if it went on. If it ends with a fault, or no line has failed, it does not matter which of the two
it does. Otherwise one line has failed; the error stream holds the first line of what would be reported;
and the count is that of the lines before the failure that gave a result. -/
theorem run_exit_eq_truncated (s : Session) (bytes : Bytes) :
    let exit := ((s.withPolicy .exit).run (.ofBytes bytes)).perform .sound
    let proceed := ((s.withPolicy .proceed).run (.ofBytes bytes)).perform .sound
    exit.out <+: proceed.out ∧ exit.err <+: proceed.err ∧
    (∀ fault, exit.result = .error fault →
      proceed.result = .error fault ∧ exit.out = proceed.out ∧ exit.err = proceed.err) ∧
    ∀ summary, exit.result = .ok summary →
      (summary.failed = 0 →
        proceed.result = .ok summary ∧ exit.out = proceed.out ∧ exit.err = proceed.err) ∧
      (summary.failed ≠ 0 →
        summary.failed = 1 ∧ exit.err = proceed.err.takeWhile (· ≠ 0x0A) ++ [0x0A] ∧
        ∃ before line after, Input.splitLines bytes = before ++ line :: after ∧ s.fails line = true ∧
          (∀ other ∈ before, s.fails other = false) ∧ summary.evaluated = before.countP s.succeeds) := by
  have hrun : ∀ policy, (s.withPolicy policy).run (.ofBytes bytes) =
      (s.withPolicy policy).converse none (Input.splitLines bytes) .zero := by
    intro policy
    rw [← Input.lines_eq_splitLines]
    rfl
  simp only [hrun, Script.perform_sound]
  rcases s.converse_withPolicy (Input.splitLines bytes) .zero with
    ⟨hsame, hnone⟩ | ⟨before, effects, rest, hparts⟩
  · rw [hsame] at hnone ⊢
    refine ⟨List.prefix_rfl, List.prefix_rfl, fun fault hfault => ⟨hfault, rfl, rfl⟩, ?_⟩
    intro summary hsummary
    exact ⟨fun _ => ⟨hsummary, rfl, rfl⟩, fun hfailed => absurd (hnone summary hsummary) hfailed⟩
  · rw [hparts.exit_eq, hparts.proceed_eq, Session.close_written, Session.close_reported]
    simp only [Script.after, written_append, reported_append]
    refine ⟨List.prefix_append _ _, List.prefix_append _ _, fun fault hfault => ?_, fun summary hsummary => ?_⟩
    · cases hfault
    · obtain rfl := Except.ok.inj hsummary
      refine ⟨fun hfailed => absurd hfailed (by simp), fun _ => ⟨by simp [Summary.zero], ?_, ?_⟩⟩
      · obtain ⟨diagnostic, hline, herr⟩ := hparts.reports
        rw [herr, Utf8.takeWhile_encode hline, Utf8.encode_append]
        rfl
      · obtain ⟨line, after, hlines, hfails, hbefore⟩ := hparts.first
        exact ⟨before, line, after, hlines, hfails, hbefore, by simp [Summary.zero]⟩

end LineCalc
