/-
The three ways of feeding the program: an expression among its arguments, a file, or its standard input.

A file and an input with the same bytes lead to the same session. An expression that is a line of its own
leads to what a session on this one line does (`Session.run_encode`). And whichever way the program was fed,
its exit code tells whether it has reported anything (`Program.telling_answer`): a session reports
something for each line that it counts as failed, and for no other (`Session.failed_eq_zero_iff`), and
whatever else goes wrong is told behind that.
-/
import LineCalc.Program
import LineCalc.Proofs.Splitting

namespace LineCalc

/-! ## Text as bytes -/

namespace Utf8

theorem encode_eq_nil_iff {text : String} : encode text = [] ↔ text = "" := by
  constructor
  · intro h
    have hdecode := decode?_encode text
    rw [h] at hdecode
    exact Option.some.inj (hdecode.symm.trans (by decide +kernel))
  · rintro rfl
    rfl

theorem encode_line_ne_nil (text : String) : encode (text ++ "\n") ≠ [] := by
  intro h
  have hfeed := congrArg String.toList (encode_eq_nil_iff.mp h)
  simp at hfeed

end Utf8

/-! ## What is reported, and what is counted -/

namespace Session

theorem respond_failed_eq_zero_iff (s : Session) (text : String) :
    (s.respond text).summary.failed = 0 ↔ reported (s.respond text).effects = [] := by
  rcases (s.respond_cases text).2 with ⟨-, hsummary, herr⟩ | ⟨-, hsummary, -, error, -, herr⟩
  · simp [hsummary, herr]
  · simp [hsummary, herr, Utf8.encode_line_ne_nil]

theorem turn_failed_eq_zero_iff (s : Session) (line : Bytes) :
    match s.turn line with
    | .broken => True
    | .next effects counts | .last effects counts => counts.failed = 0 ↔ reported effects = [] := by
  cases turns line with
  | broken _ turn_eq =>
    rw [turn_eq]
    trivial
  | skipped _ _ _ turn_eq =>
    rw [turn_eq]
    exact ⟨fun _ => rfl, fun _ => rfl⟩
  | answered text _ _ turn_eq =>
    have hrespond := s.respond_failed_eq_zero_iff text
    rw [turn_eq]
    by_cases hexit : s.onError = .exit ∧ (s.respond text).summary.failed ≠ 0
    · rw [if_pos hexit]
      exact hrespond
    · rw [if_neg hexit]
      exact hrespond

/-- **A session that ends well has counted failures exactly if it has reported something.** -/
theorem failed_eq_zero_iff {s : Session} {fault? : Option Fault} {lines : List Bytes} {total : Summary}
    (h : (s.converse fault? lines .zero).result = .ok total) :
    total.failed = 0 ↔ reported (s.converse fault? lines .zero).effects = [] := by
  induction lines generalizing total with
  | nil =>
    cases fault? with
    | none =>
      obtain rfl : .zero = total := Except.ok.inj h
      rw [converse, close_reported, s.reported_ask]
      exact iff_of_true rfl rfl
    | some fault => cases h
  | cons line lines ih =>
    have hturn := s.turn_failed_eq_zero_iff line
    rw [converse_cons] at h ⊢
    cases hline : s.turn line with
    | broken =>
      rw [hline] at h
      cases h
    | next effects counts =>
      rw [hline] at h hturn
      dsimp only at h hturn ⊢
      rw [Summary.zero_add] at h ⊢
      -- What follows does the same as if nothing had been counted before.
      have hrest := s.converse_countsOn fault? lines counts .zero
      rw [Summary.add_zero] at hrest
      have hresult : (s.converse fault? lines .zero).result.map counts.add = .ok total :=
        hrest.result_eq.symm.trans h
      cases hmore : (s.converse fault? lines .zero).result with
      | error fault =>
        rw [hmore] at hresult
        cases hresult
      | ok more =>
        rw [hmore] at hresult
        obtain rfl : counts.add more = total := Except.ok.inj hresult
        simp only [Script.after, reported_append, s.reported_ask, hrest.reported_eq, List.nil_append,
          List.append_eq_nil_iff, ← hturn, ← ih hmore, Summary.add]
        omega
    | last effects counts =>
      rw [hline] at h hturn
      dsimp only at h hturn ⊢
      rw [Summary.zero_add] at h ⊢
      obtain rfl : counts = total := Except.ok.inj h
      rw [close_reported, reported_append, s.reported_ask, List.nil_append]
      exact hturn

/-! ## One line -/

/-- A session on one line of text, without a prompt, does what the line alone leads to. -/
theorem run_encode {s : Session} (hprompt : s.prompt? = none) {text : String} (hline : OneLine text)
    (hblank : isBlankLine text = false) :
    let one := s.run (.ofBytes (Utf8.encode text))
    let alone := s.runExpression text
    written one.effects = written alone.effects ∧ reported one.effects = reported alone.effects ∧
      one.result = alone.result := by
  have hne : Utf8.encode text ≠ [] := by
    intro hnil
    rw [Utf8.encode_eq_nil_iff.mp hnil] at hblank
    cases hblank
  have hlines : (Input.ofBytes (Utf8.encode text)).lines = [Utf8.encode text] := by
    simp [Input.lines, Input.ofBytes, Input.cut_of_not_mem (Utf8.feed_not_mem_encode hline), hne]
  have hask := ask_eq_nil hprompt
  intro one alone
  have hone : one = s.converse none [Utf8.encode text] .zero := by
    rw [← hlines]
    rfl
  -- Whether the session ends behind the line or goes on to its end, there is only its record to come.
  have hclose : one = (close (s.respond text).summary).after (s.respond text).effects := by
    rw [hone, converse_cons, turn, Utf8.decode?_encode]
    by_cases hexit : s.onError = .exit ∧ (s.respond text).summary.failed ≠ 0
    · simp [hblank, hask, if_pos hexit, Script.after]
    · simp [hblank, hask, if_neg hexit, converse, Script.after]
  rw [hclose, close_written, close_reported]
  exact ⟨rfl, rfl, rfl⟩

end Session

/-! ## The command line -/

namespace CommandLine

/-- The arguments ask for a session on this source, however they are written. -/
def AsksFor (arguments : List Bytes) (source : Source) (exitOnError tokens : Bool) : Prop :=
  read arguments = .ok (.session source exitOnError tokens)

/-- The options of a session. -/
def flags (exitOnError tokens : Bool) : List Bytes :=
  (if exitOnError then [Utf8.encode "-e"] else []) ++ if tokens then [Utf8.encode "-t"] else []

/-- Arguments that ask for a session on a source. What looks like an option and is none has to be attached
to an option, or to stand behind two dashes. -/
def arguments (source : Source) (exitOnError tokens : Bool) : List Bytes :=
  flags exitOnError tokens ++
    match source with
    | .standardInput => []
    | .file path =>
      if Form.ofBytes path = .plain then [Utf8.encode "-f", path] else [Utf8.encode "--file=" ++ path]
    | .expression text =>
      let argument := Utf8.encode text
      if Form.ofBytes argument = .plain then [argument] else [Utf8.encode "--", argument]

theorem readFrom_letter {r next : Reading} {argument letters : Bytes} {text : String}
    (hform : Form.ofBytes argument = .short letters) (hspan : Utf8.span letters = (text, []))
    (htake : r.takeShort [] text.toList = .ok (.reading next)) (rest : List Bytes) :
    readFrom r false (argument :: rest) = readFrom next false rest := by
  simp [readFrom, hform, hspan, htake]

theorem readFrom_flags (exitOnError tokens : Bool) (rest : List Bytes) :
    readFrom {} false (flags exitOnError tokens ++ rest) =
      readFrom ⟨[], exitOnError, tokens, .nothing⟩ false rest := by
  have hexit := @readFrom_letter {} ⟨[], true, false, .nothing⟩ (Utf8.encode "-e") [0x65] "e"
    (by decide) (by decide +kernel) rfl
  have htokens := fun exitOnError => @readFrom_letter ⟨[], exitOnError, false, .nothing⟩
    ⟨[], exitOnError, true, .nothing⟩ (Utf8.encode "-t") [0x74] "t" (by decide) (by decide +kernel) rfl
  cases exitOnError <;> cases tokens <;> simp [flags, hexit, htokens]

section Sources

variable (exitOnError tokens : Bool)

theorem readFrom_file {path : Bytes} (h : path ≠ []) :
    readFrom ⟨[], exitOnError, tokens, .nothing⟩ false
        (if Form.ofBytes path = .plain then [Utf8.encode "-f", path] else [Utf8.encode "--file=" ++ path]) =
      .ok (.session (.file path) exitOnError tokens) := by
  split
  next hplain =>
    have hletter := @readFrom_letter ⟨[], exitOnError, tokens, .nothing⟩
      ⟨[], exitOnError, tokens, .file none⟩ (Utf8.encode "-f") [0x66] "f" (by decide) (by decide +kernel) rfl
    rw [hletter]
    simp [readFrom, hplain, Reading.takePlain, Reading.finish, Reading.settle, Reading.setFile,
      Reading.has, h, Reading.addSource, pure, Except.pure]
  next =>
    have hform : Form.ofBytes (Utf8.encode "--file=" ++ path) =
        .long (Utf8.encode "file") (some path) := rfl
    have hfile : Parameter.ofLong? (Utf8.encode "file") = some .file := by
      simp [Parameter.ofLong?]
    simp [readFrom, hform, Reading.takeLong, hfile, Reading.takeOption, Reading.settle, Reading.setFile,
      Reading.has, h, Reading.addSource, Reading.finish, pure, Except.pure]

theorem readFrom_expression (text : String) :
    let argument := Utf8.encode text
    readFrom ⟨[], exitOnError, tokens, .nothing⟩ false
        (if Form.ofBytes argument = .plain then [argument] else [Utf8.encode "--", argument]) =
      .ok (.session (.expression text) exitOnError tokens) := by
  intro argument
  have htake : (Reading.mk [] exitOnError tokens .nothing).takeExpression argument =
      .ok ⟨[], exitOnError, tokens, .expression argument⟩ := rfl
  have hfinish : (Reading.mk [] exitOnError tokens (.expression argument)).finish =
      .ok (.session (.expression text) exitOnError tokens) := by
    simp [argument, Reading.finish, Reading.settle, Reading.addSource, pure, Except.pure]
  split
  next hplain => simp [readFrom, hplain, Reading.takePlain, htake, hfinish]
  next =>
    have hform : Form.ofBytes (Utf8.encode "--") = .endOfOptions := rfl
    simp [readFrom, hform, htake, hfinish]

end Sources

/-- **Every session can be asked for**, except one on a file without a name. -/
theorem asksFor_arguments {source : Source} (h : source ≠ .file []) (exitOnError tokens : Bool) :
    AsksFor (arguments source exitOnError tokens) source exitOnError tokens := by
  rw [AsksFor, read, arguments.eq_def, readFrom_flags]
  cases source with
  | standardInput => rfl
  | file path => exact readFrom_file exitOnError tokens fun hnil => h (by rw [hnil])
  | expression text => exact readFrom_expression exitOnError tokens text

end CommandLine

/-! ## The program -/

/-- The exit code is 0 if nothing was reported, and 1 otherwise. -/
def Outcome.Telling (o : Outcome) : Prop := o.code = if o.stderr = [] then 0 else 1

theorem Outcome.telling_of_ne_nil (stdout : Bytes) {stderr : Bytes} (h : stderr ≠ []) :
    Telling ⟨1, stdout, stderr⟩ :=
  (if_neg h).symm

namespace Program

theorem run_of_asksFor {arguments : List Bytes} {source : Source} {exitOnError tokens : Bool}
    (h : CommandLine.AsksFor arguments source exitOnError tokens) (stdin : Input)
    (open? : Bytes → Option Input) :
    run arguments stdin open? = answer stdin open? (.session source exitOnError tokens) := by
  rw [run, h]

theorem outcome_congr {script other : Script} (hout : written script.effects = written other.effects)
    (herr : reported script.effects = reported other.effects) (hresult : script.result = other.result) :
    outcome script = outcome other := by
  simp only [outcome, Script.perform_sound, hout, herr, hresult]

theorem telling_outcome {script : Script}
    (h : ∀ total, script.result = .ok total → (total.failed = 0 ↔ reported script.effects = [])) :
    (outcome script).Telling := by
  simp only [outcome, Script.perform_sound]
  cases hresult : script.result with
  | ok total => exact if_congr (h total hresult) rfl rfl
  | error fault => exact Outcome.telling_of_ne_nil _ (by simp [Utf8.encode_line_ne_nil])

theorem encode_missingFileText_ne_nil (path : Bytes) : Utf8.encode (missingFileText path) ≠ [] := by
  unfold missingFileText
  rw [Utf8.encode_append]
  intro hnil
  exact absurd (List.append_eq_nil_iff.mp hnil).2 (by decide)

/-- **The exit code of a session tells whether anything was reported.** -/
theorem telling_answer (stdin : Input) (open? : Bytes → Option Input) (source : Source)
    (exitOnError tokens : Bool) : (answer stdin open? (.session source exitOnError tokens)).Telling := by
  cases source with
  | standardInput => exact telling_outcome fun total => Session.failed_eq_zero_iff
  | file path =>
    simp only [answer]
    cases open? path with
    | none =>
      exact Outcome.telling_of_ne_nil _ (encode_missingFileText_ne_nil path)
    | some input => exact telling_outcome fun total => Session.failed_eq_zero_iff
  | expression text =>
    refine telling_outcome fun total htotal => ?_
    obtain rfl := Except.ok.inj htotal
    exact Session.respond_failed_eq_zero_iff _ text

end Program

/-- **All ways of feeding the program agree, and its exit code tells whether anything was reported.** Each
source can be asked for, with either policy and in either mode, only a file has to have a name. A file leads
to the same outcome as its bytes on the standard input. So does an expression, if it is one line and not only
spaces. And on any source, be it an expression, a file that can be opened or not, or the standard input, the
exit code is 0 if nothing was reported, and 1 otherwise. -/
theorem run_feeds_agree (exitOnError tokens : Bool) :
    (∀ source, source ≠ .file [] →
      CommandLine.AsksFor (CommandLine.arguments source exitOnError tokens) source exitOnError tokens) ∧
    (∀ named path piped, CommandLine.AsksFor named (.file path) exitOnError tokens →
      CommandLine.AsksFor piped .standardInput exitOnError tokens →
      ∀ bytes stdin open? other?, open? path = some (.ofBytes bytes) →
        Program.run named stdin open? = Program.run piped (.ofBytes bytes) other?) ∧
    (∀ given text piped, CommandLine.AsksFor given (.expression text) exitOnError tokens →
      CommandLine.AsksFor piped .standardInput exitOnError tokens →
      '\n' ∉ text.toList → (∃ c ∈ text.toList, c ≠ ' ') → ∀ stdin open? other?,
        Program.run given stdin open? = Program.run piped (.ofBytes (Utf8.encode text)) other?) ∧
    ∀ arguments source, CommandLine.AsksFor arguments source exitOnError tokens →
      ∀ stdin open?, let outcome := Program.run arguments stdin open?
        outcome.code = if outcome.stderr = [] then 0 else 1 := by
  refine ⟨fun source hsource => CommandLine.asksFor_arguments hsource exitOnError tokens, ?_, ?_, ?_⟩
  · intro named path piped hnamed hpiped bytes stdin open? other? hopen
    rw [Program.run_of_asksFor hnamed, Program.run_of_asksFor hpiped]
    simp only [Program.answer, hopen]
  · intro given text piped hgiven hpiped hline ⟨c, hc, hne⟩ stdin open? other?
    have hblank : isBlankLine text = false := by
      rw [isBlankLine, List.all_eq_false]
      exact ⟨c, hc, by simpa [Lexer.isBlank] using hne⟩
    obtain ⟨hout, herr, hresult⟩ :=
      @Session.run_encode (Program.session exitOnError tokens) rfl text hline hblank
    rw [Program.run_of_asksFor hgiven, Program.run_of_asksFor hpiped]
    exact (Program.outcome_congr hout herr hresult).symm
  · intro arguments source hasks stdin open?
    rw [Program.run_of_asksFor hasks]
    exact Program.telling_answer stdin open? source exitOnError tokens

end LineCalc
