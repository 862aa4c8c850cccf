/-
A session, line by line. One line breaks the session off, is its last, or lets it go on, and then only
the counts are passed on (`Session.converse_cons`). So a whole session is the lines answered one after the
other, each as if it were alone, with a prompt before each and at the end (`Session.transcript`).
-/
import LineCalc.Proofs.Lines
import LineCalc.Proofs.Stream
import LineCalc.Session

namespace LineCalc

/-! ## One line -/

namespace Session

/-- What is seen of a line: one that gave a result reports nothing, one that failed writes nothing and reports
its error, and neither flushes. -/
theorem respond_cases (s : Session) (text : String) :
    flushed (s.respond text).effects = 0 ∧
      ((s.mode.accepts text = true ∧ (s.respond text).summary = ⟨1, 0⟩ ∧
          reported (s.respond text).effects = []) ∨
        (s.mode.accepts text = false ∧ (s.respond text).summary = ⟨0, 1⟩ ∧
          written (s.respond text).effects = [] ∧ ∃ error, s.mode.Rejects text error ∧
            reported (s.respond text).effects = Utf8.encode ("error: " ++ error.message ++ "\n"))) := by
  cases s.responds text with
  | value result record _ accepted _ respond_eq =>
    rw [respond_eq]
    exact ⟨rfl, .inl ⟨accepted, rfl, rfl⟩⟩
  | dump tokens _ accepted _ respond_eq =>
    rw [respond_eq]
    refine ⟨?_, .inl ⟨accepted, rfl, ?_⟩⟩
    · simp [Response.success, flushed, Effect.isFlush]
    · simp [Response.success, reported, Effect.toErr]
  | failure error record rejected rejects respond_eq =>
    rw [respond_eq]
    refine ⟨rfl, .inr ⟨rejected, rfl, rfl, error, rejects, ?_⟩⟩
    simp [Response.failure, reported, Effect.toErr]

theorem perform_runExpression (s : Session) (text : String) :
    (s.runExpression text).perform .sound =
      ⟨written (s.respond text).effects, reported (s.respond text).effects, 0,
        (s.respond text).effects.flatMap Effect.records, .ok (s.respond text).summary⟩ := by
  rw [Script.perform_sound, runExpression, (s.respond_cases text).1]

end Session

/-! ## All lines -/

/-- What a session has done so far. -/
structure Progress where
  out : Bytes
  err : Bytes
  /-- How many prompts have been written. -/
  prompts : Nat
  summary : Summary

/-- What a session has done when it is over. -/
structure Transcript where
  out : Bytes
  err : Bytes
  prompts : Nat
  result : Except Fault Summary

namespace Progress

def start : Progress := ⟨[], [], 0, .zero⟩

/-- The prompt is written, if there is one. -/
def prompted (p : Progress) : Option String → Progress
  | none => p
  | some prompt => { p with out := p.out ++ Utf8.encode prompt, prompts := p.prompts + 1 }

/-- All is done that was seen of a line on its own, and the line is counted. -/
def answered (p : Progress) (alone : Observed) (counts : Summary) : Progress :=
  ⟨p.out ++ alone.out, p.err ++ alone.err, p.prompts, p.summary.add counts⟩

def ended (p : Progress) (result : Except Fault Summary) : Transcript :=
  ⟨p.out, p.err, p.prompts, result⟩

end Progress

namespace Session

/-- One line of a session, from what the line alone would do. The session goes on, or is over. -/
def readLine (s : Session) (p : Progress) (line : Bytes) : Except Transcript Progress :=
  let p := p.prompted s.prompt?
  match Utf8.decode? line with
  | none => .error (p.ended (.error .invalidData))
  | some text =>
    if text.toList.all (· = ' ') then .ok p
    else
      let alone := (s.runExpression text).perform .sound
      match alone.result with
      | .error fault => .error (p.ended (.error fault))
      | .ok counts =>
        let p := p.answered alone counts
        if s.onError = .exit ∧ counts.failed ≠ 0 then .error (p.ended (.ok p.summary)) else .ok p

/-- What is left to do when the lines have been read, if the session is not over before that. -/
def lastPrompt (s : Session) : Except Transcript Progress → Transcript
  | .error t => t
  | .ok p => (p.prompted s.prompt?).ended (.ok p.summary)

/-- A session as its lines, one after the other. -/
def transcript (s : Session) (lines : List Bytes) : Transcript :=
  s.lastPrompt (lines.foldlM s.readLine .start)

end Session

/-! ## The fold and the script -/

namespace Progress

/-- All that effects do is done. -/
def does (p : Progress) (effects : List Effect) : Progress :=
  { p with
    out := p.out ++ written effects
    err := p.err ++ reported effects
    prompts := p.prompts + flushed effects }

/-- What a session comes to that has come this far, if `o` is seen of the rest of it. -/
def before (p : Progress) (o : Observed) : Transcript :=
  ⟨p.out ++ o.out, p.err ++ o.err, p.prompts + o.flushes, o.result⟩

theorem does_append (p : Progress) (a b : List Effect) : p.does (a ++ b) = (p.does a).does b := by
  simp [does, Nat.add_assoc]

theorem does_note (p : Progress) (record : Record) : p.does [.note record] = p := by
  simp [does, written, reported, flushed, Effect.toOut, Effect.toErr, Effect.isFlush]

theorem before_perform (p : Progress) (script : Script) :
    p.before (script.perform .sound) = (p.does script.effects).ended script.result := by
  rw [Script.perform_sound]
  rfl

theorem before_after (p : Progress) (effects : List Effect) (script : Script) :
    p.before ((script.after effects).perform .sound) =
      (p.does effects).before (script.perform .sound) := by
  rw [before_perform, before_perform, ← does_append]
  rfl

theorem before_close (p : Progress) (summary : Summary) :
    p.before ((Session.close summary).perform .sound) = p.ended (.ok summary) := by
  rw [before_perform, Session.close, does_note]

theorem prompted_eq_does (p : Progress) (s : Session) : p.prompted s.prompt? = p.does s.ask := by
  unfold Session.ask
  cases s.prompt? with
  | none => simp [prompted, does, written, reported, flushed]
  | some prompt =>
    simp [prompted, does, written, reported, flushed, Effect.toOut, Effect.toErr, Effect.isFlush]

theorem answered_eq_does (p : Progress) (s : Session) (text : String) :
    p.answered ((s.runExpression text).perform .sound) (s.respond text).summary =
      { p.does (s.respond text).effects with summary := p.summary.add (s.respond text).summary } := by
  rw [s.perform_runExpression, answered, does, (s.respond_cases text).1]
  rfl

end Progress

namespace Session

theorem readLine_eq_turn (s : Session) (p : Progress) (line : Bytes) :
    s.readLine p line =
      match s.turn line with
      | .broken => .error ((p.does s.ask).ended (.error .invalidData))
      | .next effects counts =>
        .ok { p.does (s.ask ++ effects) with summary := p.summary.add counts }
      | .last effects counts =>
        .error ((p.does (s.ask ++ effects)).ended (.ok (p.summary.add counts))) := by
  rw [readLine, p.prompted_eq_does]
  cases turns line with
  | broken undecoded turn_eq => rw [undecoded, turn_eq]
  | skipped text decoded blank turn_eq =>
    have hspaces : text.toList.all (· = ' ') = true := blank
    rw [decoded, turn_eq]
    simp only [hspaces, if_true, List.append_nil]
    rfl
  | answered text decoded notBlank turn_eq =>
    have hspaces : text.toList.all (· = ' ') = false := notBlank
    have hresult : ((s.runExpression text).perform .sound).result = .ok (s.respond text).summary := by
      rw [perform_runExpression]
    rw [decoded, turn_eq]
    simp only [hspaces, hresult, Progress.answered_eq_does, Progress.does_append]
    by_cases hexit : s.onError = .exit ∧ (s.respond text).summary.failed ≠ 0
    · simp only [if_pos hexit]
      rfl
    · simp only [if_neg hexit]
      rfl

/-- **A session is its lines, one after the other.** -/
theorem lastPrompt_foldlM (s : Session) (lines : List Bytes) (p : Progress) :
    s.lastPrompt (lines.foldlM s.readLine p) =
      p.before ((s.converse none lines p.summary).perform .sound) := by
  induction lines generalizing p with
  | nil =>
    rw [converse, p.before_after, Progress.before_close, ← p.prompted_eq_does]
    rfl
  | cons line lines ih =>
    rw [List.foldlM_cons, readLine_eq_turn, converse_cons]
    cases s.turn line with
    | broken =>
      rw [p.before_perform]
      rfl
    | next effects counts =>
      rw [p.before_after]
      exact ih _
    | last effects counts =>
      rw [p.before_after, Progress.before_close]
      rfl

theorem transcript_splitLines (s : Session) (bytes : Bytes) :
    s.transcript (Input.splitLines bytes) =
      Progress.start.before ((s.run (.ofBytes bytes)).perform .sound) := by
  rw [transcript, s.lastPrompt_foldlM, ← Input.lines_eq_splitLines]
  rfl

end Session

/-- **A session is the fold of its lines, each dealt with as if it were alone.** On streams that never
fail, what a session writes, how often it flushes its output and how it ends is what comes of its lines
one after the other (`Session.transcript`): a prompt before each of them, and one at the end; nothing
for a line of spaces; an end to it all at a line that is no text, or, if the policy says so, behind a
line that failed; and otherwise all that the line alone leads to. A line that fails writes nothing to
the output, one that does not writes nothing to the error stream, and neither flushes. -/
theorem run_eq_transcript (s : Session) (bytes : Bytes) :
    (let o := (s.run (.ofBytes bytes)).perform .sound
      let t := s.transcript (Input.splitLines bytes)
      o.out = t.out ∧ o.err = t.err ∧ o.flushes = t.prompts ∧ o.result = t.result) ∧
    ∀ text, let alone := (s.runExpression text).perform .sound
      alone.flushes = 0 ∧
        ((alone.result = .ok ⟨1, 0⟩ ∧ alone.err = []) ∨ (alone.result = .ok ⟨0, 1⟩ ∧ alone.out = [])) := by
  constructor
  · simp [s.transcript_splitLines, Progress.before, Progress.start]
  · intro text
    rw [s.perform_runExpression]
    rcases s.respond_cases text with ⟨-, ⟨-, hsummary, herr⟩ | ⟨-, hsummary, hout, -⟩⟩
    · exact ⟨rfl, .inl ⟨by rw [hsummary], herr⟩⟩
    · exact ⟨rfl, .inr ⟨by rw [hsummary], hout⟩⟩

end LineCalc
