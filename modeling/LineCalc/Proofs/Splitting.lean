/-
An input may be split between two of its lines: two sessions, one on either part, do what one session on
the whole does, and their counts add up.

The only thing that a session takes along from one line to the next are its counts, and it never looks at
them. So a session that has counted something before does the same as one that starts from nothing
(`Session.converse_countsOn`). What is lost where the parts are joined is the prompt that is written at the
end of the first, since the second starts with one as well.
-/
import LineCalc.Proofs.Policy
import LineCalc.Proofs.Truncation

namespace LineCalc

theorem Input.lines_append {a : Bytes} (h : Terminated a) (b : Bytes) :
    (ofBytes (a ++ b)).lines = (ofBytes a).lines ++ (ofBytes b).lines := by
  obtain ⟨hleft, hcut⟩ := cut_append h b
  simp [lines, ofBytes, hcut, hleft]

/-! ## Counts that are carried along -/

namespace Summary

@[simp] theorem add_zero (a : Summary) : a.add zero = a := rfl

@[simp] theorem zero_add (a : Summary) : zero.add a = a := by
  simp [add, zero]

theorem add_assoc (a b c : Summary) : (a.add b).add c = a.add (b.add c) := by
  simp [add, Nat.add_assoc]

end Summary

/-- `later` does what `script` does, with `total` counted before. Only the log may differ, since a session
tells its counts there. -/
structure Script.CountsOn (total : Summary) (script later : Script) : Prop where
  written_eq : written later.effects = written script.effects
  reported_eq : reported later.effects = reported script.effects
  result_eq : later.result = script.result.map total.add

theorem Script.CountsOn.after {total : Summary} {script later : Script} (h : script.CountsOn total later)
    (effects : List Effect) : (script.after effects).CountsOn total (later.after effects) where
  written_eq := by simp [Script.after, h.written_eq]
  reported_eq := by simp [Script.after, h.reported_eq]
  result_eq := h.result_eq

namespace Session

theorem close_countsOn (total summary : Summary) :
    (close summary).CountsOn total (close (total.add summary)) where
  written_eq := by simp [close, written, Effect.toOut]
  reported_eq := by simp [close, reported, Effect.toErr]
  result_eq := rfl

/-- **A session does not look at its counts.** -/
theorem converse_countsOn (s : Session) (fault? : Option Fault) (lines : List Bytes)
    (total summary : Summary) :
    (s.converse fault? lines summary).CountsOn total (s.converse fault? lines (total.add summary)) := by
  induction lines generalizing summary with
  | nil =>
    cases fault? with
    | none => exact (close_countsOn total summary).after s.ask
    | some fault => exact ⟨rfl, rfl, rfl⟩
  | cons line lines ih =>
    rw [converse_cons, converse_cons]
    cases s.turn line with
    | broken => exact ⟨rfl, rfl, rfl⟩
    | next effects counts =>
      have hrest := ih (summary.add counts)
      rw [← Summary.add_assoc] at hrest
      exact hrest.after (s.ask ++ effects)
    | last effects counts =>
      have hrest := close_countsOn total (summary.add counts)
      rw [← Summary.add_assoc] at hrest
      exact hrest.after (s.ask ++ effects)

/-- A session that ends well, and not at a line that failed, has gone through all of its lines, and would
go on with any more of them. -/
theorem exists_passes {s : Session} {lines : List Bytes} {counts : Summary}
    (hok : (s.converse none lines .zero).result = .ok counts)
    (hon : s.onError = .proceed ∨ counts.failed = 0) :
    ∃ effects, s.Passes lines .zero effects counts := by
  rcases s.converse_cases lines .zero with ⟨script, hends⟩ | ⟨effects, total, hpasses⟩
  · have hscript := hends.converse_eq none []
    rw [List.append_nil] at hscript
    rw [hscript] at hok
    rcases hends.reason with ⟨hbroken, -⟩ | ⟨total, htotal, hexit, hfailed⟩
    · cases hbroken.symm.trans hok
    · obtain rfl := Except.ok.inj (htotal.symm.trans hok)
      rcases hon with hproceed | hnone
      · cases hproceed.symm.trans hexit
      · exact absurd hnone hfailed
  · have hscript := hpasses.converse_eq none []
    rw [List.append_nil] at hscript
    rw [hscript] at hok
    obtain rfl : total = counts := Except.ok.inj hok
    exact ⟨effects, hpasses⟩

theorem written_ask (s : Session) : written s.ask = (s.prompt?.map Utf8.encode).getD [] := by
  unfold ask
  cases s.prompt? with
  | none => rfl
  | some prompt => simp [written, Effect.toOut]

end Session

/-! ## Two sessions instead of one -/

/-- **Splitting an input between two lines changes nothing.** Let the first part be empty or end in a line
feed, and let a session on it end well, and not because a line failed. Then a session on both parts reports
what the two sessions report, one after the other, and ends as the one on the second part does, with the
counts of both. It also writes what the two write. Only if there is a prompt, the one that the first session
writes at its end is not written. -/
theorem run_append (s : Session) (a b : Bytes) (counts : Summary) (hlines : Input.Terminated a)
    (hok : ((s.run (.ofBytes a)).perform .sound).result = .ok counts)
    (hon : s.onError = .proceed ∨ counts.failed = 0) :
    let first := (s.run (.ofBytes a)).perform .sound
    let second := (s.run (.ofBytes b)).perform .sound
    let whole := (s.run (.ofBytes (a ++ b))).perform .sound
    whole.err = first.err ++ second.err ∧
    (∀ fault, second.result = .error fault → whole.result = .error fault) ∧
    (∀ more, second.result = .ok more →
      whole.result = .ok ⟨counts.evaluated + more.evaluated, counts.failed + more.failed⟩) ∧
    match s.prompt? with
    | none => whole.out = first.out ++ second.out
    | some prompt =>
      ∃ before, first.out = before ++ Utf8.encode prompt ∧ whole.out = before ++ second.out := by
  simp only [Script.perform_sound] at hok ⊢
  obtain ⟨effects, hpasses⟩ := Session.exists_passes hok hon
  -- The first session is `effects`, the last prompt and the end; the whole one goes on from `effects`.
  have hfirst : s.run (.ofBytes a) = (Session.close counts).after (effects ++ s.ask) := by
    have hscript := hpasses.converse_eq none []
    rw [List.append_nil] at hscript
    show s.converse none _ .zero = _
    rw [hscript]
    simp [Session.converse, Script.after]
  have hwhole : s.run (.ofBytes (a ++ b)) =
      (s.converse none (Input.ofBytes b).lines counts).after effects := by
    rw [Session.run, Input.lines_append hlines]
    exact hpasses.converse_eq none _
  have hrest : (s.run (.ofBytes b)).CountsOn counts (s.converse none (Input.ofBytes b).lines counts) :=
    s.converse_countsOn none _ counts .zero
  rw [hfirst, hwhole, Session.close_written, Session.close_reported, written_append, reported_append,
    s.reported_ask, List.append_nil]
  simp only [Script.after, written_append, reported_append, hrest.written_eq, hrest.reported_eq,
    hrest.result_eq, s.written_ask]
  refine ⟨trivial, ?_, ?_, ?_⟩
  · intro fault hfault
    rw [hfault]
    rfl
  · intro more hmore
    rw [hmore]
    rfl
  · cases s.prompt? with
    | none => simp
    | some prompt => exact ⟨written effects, by simp, rfl⟩

/-- One line with a value, and then whatever may come: the prompt that stands before it is written once. -/
theorem run_append_prompted :
    let s : Session := ⟨some "> ", .exit, .evaluate⟩
    let first := (s.run (.ofBytes (Utf8.encode "1+1\n"))).perform .sound
    let second := (s.run (.ofBytes (Utf8.encode "1/0\n2\n"))).perform .sound
    let whole := (s.run (.ofBytes (Utf8.encode "1+1\n" ++ Utf8.encode "1/0\n2\n"))).perform .sound
    first.result = .ok ⟨1, 0⟩ ∧ whole.err = first.err ++ second.err ∧
      ∃ before, first.out = before ++ Utf8.encode "> " ∧ whole.out = before ++ second.out := by
  have hlines : (Input.ofBytes (Utf8.encode "1+1\n")).lines = [Utf8.encode "1+1"] := by decide
  have hdecode : Utf8.decode? (Utf8.encode "1+1") = some "1+1" := by decide +kernel
  have hblank : isBlankLine "1+1" = false := by decide
  have hvalue : evaluate "1+1" = .ok 2 := by
    rw [evaluate, Scan.ofString_eq]
    rfl
  have hok : (((⟨some "> ", .exit, .evaluate⟩ : Session).run
      (.ofBytes (Utf8.encode "1+1\n"))).perform .sound).result = .ok ⟨1, 0⟩ := by
    rw [Script.perform_sound]
    show (Session.converse _ none _ .zero).result = _
    simp [hlines, Session.converse, Session.turn, hdecode, hblank, Session.respond, hvalue, Response.success,
      Session.close, Script.after, Summary.add, Summary.zero]
  obtain ⟨herr, -, -, hout⟩ := run_append ⟨some "> ", .exit, .evaluate⟩ (Utf8.encode "1+1\n")
    (Utf8.encode "1/0\n2\n") ⟨1, 0⟩ (.inr (by decide)) hok (.inr rfl)
  exact ⟨hok, herr, hout⟩

end LineCalc
