/-
Line ends and lines of spaces do not matter to a session without a prompt.

An input may be edited in three ways, any number of times and in any order (`Input.Edit`): a line feed gets a
carriage return before it, a line of spaces is put in where a line may start, and the last line is ended if it
is not. None of this changes the lines that are more than spaces (`Input.Edit.filter_lines`), and a session that
asks for nothing does the same with or without the others (`Session.converse_filter`).

What must not happen is that a carriage return becomes the end of a line by an edit, or stops being part of
one. The only place for that is the end of the input, so this is the invariant: there is none at the end.
-/
import LineCalc.Proofs.Splitting
import Mathlib.Logic.Relation

namespace LineCalc

/-! ## Edits -/

namespace Input

/-- The two ways to end a line. -/
def lineEnds : List Bytes := [[0x0A], [0x0D, 0x0A]]

/-- A line of so many spaces, without its end. -/
def spaces (count : Nat) : Bytes := List.replicate count 0x20

/-- The second input is the first one with one edit made to it. -/
inductive Edit : Bytes → Bytes → Prop
  /-- A line feed without a carriage return before it gets one. -/
  | lineEnd {before after : Bytes} (plain : before.getLast? ≠ some 0x0D) :
    Edit (before ++ 0x0A :: after) (before ++ 0x0D :: 0x0A :: after)
  /-- A line of spaces is put in, at the start or behind a line feed. -/
  | blankLine {before after ending : Bytes} (whole : Terminated before) (count : Nat)
      (ends : ending ∈ lineEnds) :
    Edit (before ++ after) (before ++ (spaces count ++ ending) ++ after)
  /-- The last line is ended, if there is one that is not. -/
  | lastLine {bytes : Bytes} (unended : ¬ Terminated bytes) : Edit bytes (bytes ++ [0x0A])

/-! ## Lines of an edited input -/

theorem terminated_concat (bytes : Bytes) : Terminated (bytes ++ [0x0A]) := .inr List.getLast?_concat

theorem dropReturn_concat (line : Bytes) : dropReturn (line ++ [0x0D]) = line := by
  simp [dropReturn]

theorem dropReturn_of_ne {line : Bytes} (h : line.getLast? ≠ some 0x0D) : dropReturn line = line :=
  if_neg h

theorem getLast?_right_ne {a b : Bytes} {x : UInt8} (h : (a ++ b).getLast? ≠ some x) :
    b.getLast? ≠ some x := by
  intro hb
  exact h (by rw [List.getLast?_append, hb]; rfl)

theorem lines_line {line : Bytes} (h : 0x0A ∉ line) :
    (ofBytes (line ++ [0x0A])).lines = [dropReturn line] := by
  simp [lines, ofBytes, cut_line h, cut]

theorem lines_return {bytes : Bytes} (h : bytes.getLast? ≠ some 0x0D) :
    (ofBytes (bytes ++ [0x0D, 0x0A])).lines = (ofBytes (bytes ++ [0x0A])).lines := by
  obtain ⟨whole, line, rfl, hwhole, hline⟩ := exists_terminated bytes
  have hreturn : 0x0A ∉ line ++ [0x0D] := by simpa using hline
  have hsplit : whole ++ line ++ [0x0D, 0x0A] = whole ++ (line ++ [0x0D] ++ [0x0A]) := by simp
  rw [hsplit, List.append_assoc whole line, lines_append hwhole, lines_append hwhole, lines_line hreturn,
    lines_line hline, dropReturn_concat, dropReturn_of_ne (getLast?_right_ne h)]

/-- It does not matter whether it is ended, unless there is a carriage return to lose. -/
theorem lines_feed {bytes : Bytes} (hunended : ¬ Terminated bytes) (h : bytes.getLast? ≠ some 0x0D) :
    (ofBytes (bytes ++ [0x0A])).lines = (ofBytes bytes).lines := by
  obtain ⟨whole, line, rfl, hwhole, hline⟩ := exists_terminated bytes
  have hne : line ≠ [] := by
    rintro rfl
    rw [List.append_nil] at hunended
    exact hunended hwhole
  have hlast : (ofBytes line).lines = [line] := by
    simp [lines, ofBytes, cut_of_not_mem hline, hne]
  rw [List.append_assoc, lines_append hwhole, lines_append hwhole, lines_line hline,
    dropReturn_of_ne (getLast?_right_ne h), hlast]

theorem lines_spaces (count : Nat) {ending : Bytes} (h : ending ∈ lineEnds) :
    Terminated (spaces count ++ ending) ∧ (ofBytes (spaces count ++ ending)).lines = [spaces count] := by
  have hfeed : 0x0A ∉ spaces count := by simp [spaces, List.mem_replicate]
  have hreturn : (spaces count).getLast? ≠ some 0x0D := by
    intro hlast
    have hmem := List.mem_of_getLast? hlast
    simp [spaces, List.mem_replicate] at hmem
  have hplain : (ofBytes (spaces count ++ [0x0A])).lines = [spaces count] := by
    rw [lines_line hfeed, dropReturn_of_ne hreturn]
  simp only [lineEnds, List.mem_cons, List.not_mem_nil, or_false] at h
  rcases h with rfl | rfl
  · exact ⟨terminated_concat _, hplain⟩
  · exact ⟨.inr (by simp), (lines_return hreturn).trans hplain⟩

/-- All that one edit does to the lines: nothing, or one more line of spaces is there. -/
theorem Edit.lines_cases {bytes edited : Bytes} (h : Edit bytes edited)
    (hlast : bytes.getLast? ≠ some 0x0D) :
    (ofBytes edited).lines = (ofBytes bytes).lines ∨
      ∃ before count after, (ofBytes bytes).lines = before ++ after ∧
        (ofBytes edited).lines = before ++ spaces count :: after := by
  cases h with
  | @lineEnd before after plain =>
    have hsplit : ∀ ending : Bytes, before ++ (ending ++ 0x0A :: after) =
        (before ++ ending ++ [0x0A]) ++ after := by simp
    have hplain := hsplit []
    have hreturn := hsplit [0x0D]
    simp only [List.nil_append, List.singleton_append, List.append_nil] at hplain hreturn
    left
    rw [hplain, hreturn, lines_append (terminated_concat _), lines_append (terminated_concat _),
      List.append_assoc, List.singleton_append, lines_return plain]
  | @blankLine before after ending whole count ends =>
    obtain ⟨hended, hspaces⟩ := lines_spaces count ends
    refine .inr ⟨_, count, _, lines_append whole after, ?_⟩
    rw [List.append_assoc, lines_append whole, lines_append hended, hspaces, List.singleton_append]
  | lastLine unended => exact .inl (lines_feed unended hlast)

/-- An edit does not leave a carriage return at the end. -/
theorem Edit.getLast?_ne {bytes edited : Bytes} (h : Edit bytes edited)
    (hlast : bytes.getLast? ≠ some 0x0D) : edited.getLast? ≠ some 0x0D := by
  cases h with
  | lineEnd plain => simpa [List.getLast?_cons] using hlast
  | @blankLine before after ending whole count ends =>
    cases after with
    | nil =>
      simp only [lineEnds, List.mem_cons, List.not_mem_nil, or_false] at ends
      rcases ends with rfl | rfl <;> simp
    | cons b after => simpa [List.getLast?_cons] using hlast
  | lastLine unended => simp

end Input

/-! ## Lines that are skipped -/

/-- A line of spaces, or of nothing, as bytes. -/
def isSkipped (line : Bytes) : Bool := (Utf8.decode? line).any isBlankLine

theorem isSkipped_spaces (count : Nat) : isSkipped (Input.spaces count) = true := by
  have hspaces : Input.spaces count = Utf8.encode (String.ofList (List.replicate count ' ')) := by
    rw [Utf8.encode, String.toList_ofList, List.flatMap_replicate]
    show List.replicate count 0x20 = (List.replicate count [0x20]).flatten
    simp
  rw [isSkipped, hspaces, Utf8.decode?_encode, Option.any_some, isBlankLine, String.toList_ofList,
    List.all_replicate]
  simp [Lexer.isBlank]

namespace Session

theorem turn_of_isSkipped (s : Session) {line : Bytes} (h : isSkipped line = true) :
    s.turn line = .next [] .zero := by
  obtain ⟨text, hdecode, hblank⟩ := (Option.any_eq_true _ _).mp h
  rw [turn, hdecode]
  exact if_pos hblank

/-- A session without a prompt does the same without the lines that are skipped. -/
theorem converse_filter {s : Session} (hprompt : s.prompt? = none) (fault? : Option Fault)
    (lines : List Bytes) (summary : Summary) :
    s.converse fault? (lines.filter (!isSkipped ·)) summary = s.converse fault? lines summary := by
  have hask := ask_eq_nil hprompt
  induction lines generalizing summary with
  | nil => rfl
  | cons line lines ih =>
    by_cases hskipped : isSkipped line = true
    · rw [List.filter_cons_of_neg (by simpa using hskipped), ih, converse_cons,
        s.turn_of_isSkipped hskipped, hask]
      rfl
    · rw [List.filter_cons_of_pos (by simpa using hskipped), converse_cons, converse_cons]
      simp only [ih]

end Session

theorem Input.Edit.filter_lines {bytes edited : Bytes} (h : Edit bytes edited)
    (hlast : bytes.getLast? ≠ some 0x0D) :
    (ofBytes edited).lines.filter (!isSkipped ·) = (ofBytes bytes).lines.filter (!isSkipped ·) := by
  rcases h.lines_cases hlast with hsame | ⟨before, count, after, hbytes, hedited⟩
  · rw [hsame]
  · rw [hbytes, hedited, List.filter_append, List.filter_append,
      List.filter_cons_of_neg (by simp [isSkipped_spaces])]

theorem Input.filter_lines_of_edits {bytes edited : Bytes} (h : Relation.ReflTransGen Edit bytes edited)
    (hlast : bytes.getLast? ≠ some 0x0D) :
    edited.getLast? ≠ some 0x0D ∧
      (ofBytes edited).lines.filter (!isSkipped ·) = (ofBytes bytes).lines.filter (!isSkipped ·) := by
  induction h with
  | refl => exact ⟨hlast, rfl⟩
  | tail _ hedit ih =>
    obtain ⟨hbefore, hlines⟩ := ih
    exact ⟨hedit.getLast?_ne hbefore, (hedit.filter_lines hbefore).trans hlines⟩

/-- **Line ends and lines of spaces do not matter to a session without a prompt.** Take an input without
carriage returns. Put one before any of its line feeds, put in any lines of spaces, at the start or behind any
line feed, with either line end, and end the last line if it is not ended. Then a session does all the same as
before: it writes the same, reports the same and ends in the same way, whatever the streams are that it writes
to. -/
theorem run_edited (s : Session) (hprompt : s.prompt? = none) (bytes edited : Bytes)
    (hreturn : 0x0D ∉ bytes) (hedits : Relation.ReflTransGen Input.Edit bytes edited) (streams : Streams) :
    let before := (s.run (.ofBytes bytes)).perform streams
    let after := (s.run (.ofBytes edited)).perform streams
    after.out = before.out ∧ after.err = before.err ∧ after.result = before.result := by
  have hlast : bytes.getLast? ≠ some 0x0D := fun hlast => hreturn (List.mem_of_getLast? hlast)
  have hlines := (Input.filter_lines_of_edits hedits hlast).2
  have hrun : s.run (.ofBytes edited) = s.run (.ofBytes bytes) := by
    calc s.converse none (Input.ofBytes edited).lines .zero
        = s.converse none ((Input.ofBytes edited).lines.filter (!isSkipped ·)) .zero :=
          (Session.converse_filter hprompt ..).symm
      _ = s.converse none ((Input.ofBytes bytes).lines.filter (!isSkipped ·)) .zero := by rw [hlines]
      _ = s.converse none (Input.ofBytes bytes).lines .zero := Session.converse_filter hprompt ..
  rw [hrun]
  exact ⟨rfl, rfl, rfl⟩

/-- All edits at once, on a session that ends in the middle: a line of two spaces at the start, an empty one in
the middle, one behind the last line, which had no end, and carriage returns at three of the five line ends. -/
theorem run_edited_everywhere :
    let s : Session := ⟨none, .exit, .evaluate⟩
    let before := (s.run (.ofBytes (Utf8.encode "1+1\n2/0"))).perform .sound
    let after := (s.run (.ofBytes (Utf8.encode "  \r\n1+1\r\n\n2/0\n \r\n"))).perform .sound
    after.out = before.out ∧ after.err = before.err ∧ after.result = before.result := by
  have hended : Input.Edit (Utf8.encode "1+1\n2/0") (Utf8.encode "1+1\n2/0\n") :=
    .lastLine (by unfold Input.Terminated; decide)
  have hreturn : Input.Edit (Utf8.encode "1+1\n2/0\n") (Utf8.encode "1+1\r\n2/0\n") :=
    @Input.Edit.lineEnd (Utf8.encode "1+1") (Utf8.encode "2/0\n") (by decide)
  have hmiddle : Input.Edit (Utf8.encode "1+1\r\n2/0\n") (Utf8.encode "1+1\r\n\n2/0\n") :=
    @Input.Edit.blankLine (Utf8.encode "1+1\r\n") (Utf8.encode "2/0\n") [0x0A] (.inr (by decide)) 0
      (by decide)
  have hend : Input.Edit (Utf8.encode "1+1\r\n\n2/0\n") (Utf8.encode "1+1\r\n\n2/0\n \r\n") :=
    @Input.Edit.blankLine (Utf8.encode "1+1\r\n\n2/0\n") [] [0x0D, 0x0A] (.inr (by decide)) 1 (by decide)
  have hstart : Input.Edit (Utf8.encode "1+1\r\n\n2/0\n \r\n")
      (Utf8.encode "  \r\n1+1\r\n\n2/0\n \r\n") :=
    @Input.Edit.blankLine [] (Utf8.encode "1+1\r\n\n2/0\n \r\n") [0x0D, 0x0A] (.inl rfl) 2 (by decide)
  have hedits := ((((Relation.ReflTransGen.single hended).tail hreturn).tail hmiddle).tail hend).tail hstart
  exact run_edited ⟨none, .exit, .evaluate⟩ rfl _ _ (by decide) hedits .sound

end LineCalc
