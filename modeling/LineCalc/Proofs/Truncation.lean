/-
Faults of the streams only cut a session short.

On the side of what is written this is a fact about effects (`perform_cases`). On the side of what is
read it is one about lines: what a session does with its first lines does not depend on what comes
after them, be it more lines, the end or a fault. Either they end the session, or it goes on from there,
with no more than its counts (`Session.converse_cases`). So where the reader fails, all has been done
that the lines up to there lead to, and the last prompt has been written (`Session.run_fault_cases`).
-/
import LineCalc.Proofs.Conversation

namespace LineCalc

namespace Session

/-! ## The first lines -/

/-- When a line ends a session, and when it does not. -/
theorem turn_spec (s : Session) (line : Bytes) :
    match s.turn line with
    | .broken => Utf8.decode? line = none
    | .next _ counts => s.onError = .exit → counts.failed = 0
    | .last _ counts => s.onError = .exit ∧ counts.failed ≠ 0 := by
  cases turns line with
  | broken undecoded turn_eq =>
    rw [turn_eq]
    exact undecoded
  | skipped _ _ _ turn_eq =>
    rw [turn_eq]
    exact fun _ => rfl
  | answered text _ _ turn_eq =>
    rw [turn_eq]
    by_cases hexit : s.onError = .exit ∧ (s.respond text).summary.failed ≠ 0
    · rw [if_pos hexit]
      exact hexit
    · rw [if_neg hexit]
      intro h
      simpa [h] using hexit

/-- These lines end the session, whatever comes after them. -/
structure EndsIn (s : Session) (lines : List Bytes) (summary : Summary) (script : Script) : Prop where
  converse_eq : ∀ fault? rest, s.converse fault? (lines ++ rest) summary = script
  reason : (script.result = .error .invalidData ∧ ∃ line ∈ lines, Utf8.decode? line = none) ∨
    ∃ total, script.result = .ok total ∧ s.onError = .exit ∧ total.failed ≠ 0

/-- The session goes on after these lines, with `total` for its counts. -/
structure Passes (s : Session) (lines : List Bytes) (summary : Summary) (effects : List Effect)
    (total : Summary) : Prop where
  converse_eq : ∀ fault? rest,
    s.converse fault? (lines ++ rest) summary = (s.converse fault? rest total).after effects
  failed : s.onError = .exit → total.failed = summary.failed

theorem converse_cases (s : Session) (lines : List Bytes) (summary : Summary) :
    (∃ script, s.EndsIn lines summary script) ∨ ∃ effects total, s.Passes lines summary effects total := by
  induction lines generalizing summary with
  | nil => exact .inr ⟨[], summary, fun _ _ => rfl, fun _ => rfl⟩
  | cons line lines ih =>
    have hspec := s.turn_spec line
    have hcons := fun fault? rest => s.converse_cons fault? line (lines ++ rest) summary
    cases hturn : s.turn line with
    | broken =>
      rw [hturn] at hspec
      simp only [hturn] at hcons
      exact .inl ⟨_, hcons, .inl ⟨rfl, line, by simp, hspec⟩⟩
    | last effects counts =>
      rw [hturn] at hspec
      simp only [hturn] at hcons
      refine .inl ⟨_, hcons, .inr ⟨_, rfl, hspec.1, ?_⟩⟩
      have := hspec.2
      simp only [Summary.add]
      omega
    | next effects counts =>
      rw [hturn] at hspec
      simp only [hturn] at hcons
      rcases ih (summary.add counts) with ⟨script, hends⟩ | ⟨more, total, hpasses⟩
      · refine .inl ⟨script.after (s.ask ++ effects), fun fault? rest => ?_, ?_⟩
        · rw [List.cons_append, hcons, hends.converse_eq]
        · rcases hends.reason with ⟨hresult, other, hother, hbroken⟩ | hexit
          · exact .inl ⟨hresult, other, by simp [hother], hbroken⟩
          · exact .inr hexit
      · refine .inr ⟨s.ask ++ effects ++ more, total, fun fault? rest => ?_, fun hexit => ?_⟩
        · rw [List.cons_append, hcons, hpasses.converse_eq]
          simp [Script.after]
        · rw [hpasses.failed hexit, Summary.add, hspec hexit]
          rfl

/-! ## A reader that fails -/

theorem ask_prefix_converse (s : Session) (lines : List Bytes) (summary : Summary) :
    s.ask <+: (s.converse none lines summary).effects := by
  cases lines with
  | nil => exact List.prefix_append _ _
  | cons line lines =>
    rw [converse_cons]
    cases s.turn line with
    | broken => exact List.prefix_rfl
    | next effects counts => exact (List.prefix_append _ _).trans (List.prefix_append _ _)
    | last effects counts => exact (List.prefix_append _ _).trans (List.prefix_append _ _)

/-- A reader that fails does not matter if the session ends before. Otherwise all is done that the
lines up to there lead to, and the fault takes the place of the end. -/
theorem run_fault_cases (s : Session) (bytes : Bytes) (fault : Fault) :
    ∃ whole, Input.IsWhole whole bytes ∧
      ((∃ script, s.EndsIn (Input.ofBytes whole).lines .zero script ∧
        s.run ⟨bytes, some fault⟩ = script ∧ s.run (.ofBytes whole) = script ∧
        s.run (.ofBytes bytes) = script) ∨
      ∃ effects total, (s.onError = .exit → total.failed = 0) ∧
        s.run ⟨bytes, some fault⟩ = ⟨effects, .error fault⟩ ∧
        s.run (.ofBytes whole) = (close total).after effects ∧
        effects <+: (s.run (.ofBytes bytes)).effects) := by
  obtain ⟨whole, rest, hwhole, hfaulty, hbytes⟩ := Input.lines_of_fault bytes fault
  refine ⟨whole, hwhole, ?_⟩
  simp only [run, hfaulty, hbytes]
  rcases s.converse_cases (Input.ofBytes whole).lines .zero with ⟨script, hends⟩ | ⟨effects, total, hpasses⟩
  · have hscript := fun fault? => hends.converse_eq fault? []
    simp only [List.append_nil] at hscript
    exact .inl ⟨script, hends, hscript (some fault), hscript none, hends.converse_eq none rest⟩
  · have hscript := fun fault? => hpasses.converse_eq fault? []
    simp only [List.append_nil] at hscript
    refine .inr ⟨effects ++ s.ask, total, hpasses.failed, hscript (some fault), ?_, ?_⟩
    · refine (hscript none).trans ?_
      simp [converse, Script.after]
    · have hwhole := congrArg Script.effects (hpasses.converse_eq none rest)
      refine hwhole ▸ (List.prefix_append_right_inj effects).mpr ?_
      exact s.ask_prefix_converse rest total

/-- Whether the reader fails or not, nothing is done that would not be done otherwise. -/
theorem run_cases (s : Session) (bytes : Bytes) (fault? : Option Fault) :
    s.run ⟨bytes, fault?⟩ = s.run (.ofBytes bytes) ∨
      (s.run ⟨bytes, fault?⟩).effects <+: (s.run (.ofBytes bytes)).effects ∧
        ∃ fault, (s.run ⟨bytes, fault?⟩).result = .error fault := by
  cases fault? with
  | none => exact .inl rfl
  | some fault =>
    obtain ⟨whole, -, ⟨script, -, hfaulty, -, hbytes⟩ | ⟨effects, total, -, hfaulty, -, hless⟩⟩ :=
      s.run_fault_cases bytes fault
    · exact .inl (hfaulty.trans hbytes.symm)
    · rw [hfaulty]
      exact .inr ⟨hless, fault, rfl⟩

end Session

/-! ## Any fault -/

/-- **Faults only cut a session short.** Whatever fails and whenever, the output and the error stream
hold the first of the bytes that they would hold otherwise, and a session that ends well has written all
of them and has the same counts. If only the output is limited, it holds as many of its bytes as fit, and
if that is not all of them, this is what the session ends with. If only the reader fails, what is written
is what the whole lines before that lead to, and the session ends with the fault of the reader, unless it
has ended before: at a line that is no text, or behind a line that failed, if the policy says so. -/
theorem run_truncated (s : Session) (bytes : Bytes) :
    let sound := (s.run (.ofBytes bytes)).perform .sound
    (∀ fault? streams, let faulty := (s.run ⟨bytes, fault?⟩).perform streams
      faulty.out <+: sound.out ∧ faulty.err <+: sound.err ∧
        ∀ summary, faulty.result = .ok summary →
          faulty.out = sound.out ∧ faulty.err = sound.err ∧ sound.result = .ok summary) ∧
    (∀ room, let limited := (s.run (.ofBytes bytes)).perform ⟨some room, none, none⟩
      limited.out = sound.out.take room ∧
        (room < sound.out.length → limited.result = .error .writeZero)) ∧
    ∀ fault, ∃ whole, Input.IsWhole whole bytes ∧
      let faulty := (s.run ⟨bytes, some fault⟩).perform .sound
      let complete := (s.run (.ofBytes whole)).perform .sound
      faulty.out = complete.out ∧ faulty.err = complete.err ∧
        (((∃ line ∈ (Input.ofBytes whole).lines, Utf8.decode? line = none) ∧
          complete.result = .error .invalidData ∧ faulty.result = .error .invalidData) ∨
        ∃ summary, complete.result = .ok summary ∧
          faulty.result =
            if s.onError = .exit ∧ summary.failed ≠ 0 then .ok summary else .error fault) := by
  refine ⟨fun fault? streams => ?_, fun room => ?_, fun fault => ?_⟩
  · rcases Script.perform_cases (s.run_cases bytes fault?) streams with hsame | hcut
    · rw [hsame]
      exact ⟨List.prefix_rfl, List.prefix_rfl, fun summary h => ⟨rfl, rfl, h⟩⟩
    · rw [Script.perform_sound (s.run (.ofBytes bytes))]
      refine ⟨hcut.out, hcut.err, fun summary h => ?_⟩
      obtain ⟨fault, hfault⟩ := hcut.failed
      cases hfault.symm.trans h
  · rw [Script.perform_sound]
    exact perform_limited room _ _
  · obtain ⟨whole, hwhole, hcases⟩ := s.run_fault_cases bytes fault
    refine ⟨whole, hwhole, ?_⟩
    rw [Script.perform_sound, Script.perform_sound]
    rcases hcases with ⟨script, hends, hfaulty, hcomplete, -⟩ | ⟨effects, total, hfailed, hfaulty, hcomplete, -⟩
    · rw [hfaulty, hcomplete]
      refine ⟨rfl, rfl, ?_⟩
      rcases hends.reason with ⟨hresult, hbroken⟩ | ⟨total, hresult, hexit⟩
      · exact .inl ⟨hbroken, hresult, hresult⟩
      · exact .inr ⟨total, hresult, hresult.trans (if_pos hexit).symm⟩
    · rw [hfaulty, hcomplete]
      have hno : ¬ (s.onError = .exit ∧ total.failed ≠ 0) := fun h => h.2 (hfailed h.1)
      refine ⟨?_, ?_, .inr ⟨total, rfl, (if_neg hno).symm⟩⟩
      · simp [Session.close, Script.after, written, Effect.toOut]
      · simp [Session.close, Script.after, reported, Effect.toErr]

end LineCalc
