/-
What a session that shows tokens writes can be read again: the bytes alone tell the tokens of each line that was
read as tokens (`Dump.decode_encode`).

A token is shown as one line, which tells what token it is, and what value it has (`Dump.token?_shown`). Nothing
but the end of a line, which is shown as a token as well, is there between the tokens of one line and those of the
next. That is enough, since each line has it as its last token and nowhere else. A line that fails shows nothing.
-/
import LineCalc.Proofs.Accounting
import LineCalc.Proofs.Layout
import Mathlib.Data.Bool.AllAny

namespace LineCalc

/-! ## Quoting what needs no escape -/

namespace Quoted

/-- A character of ASCII that shows itself, also between double quotes. -/
def IsPlain (c : Char) : Prop := 0x20 ≤ c.toNat ∧ c.toNat < 0x7F ∧ c ≠ '"' ∧ c ≠ '\\'

instance (c : Char) : Decidable (IsPlain c) := inferInstanceAs (Decidable (_ ∧ _))

theorem not_isExtender {c : Char} (h : c.toNat < 0x7F) : isExtender c = false := by
  have hranges : ∀ range ∈ Extender.ranges, 0x7F ≤ range.1 := by decide +kernel
  rw [isExtender, List.any_eq_false]
  intro range hrange
  have := hranges range hrange
  simp only [Bool.and_eq_true, decide_eq_true_eq]
  omega

theorem not_isUnprintable {c : Char} (hlow : 0x20 ≤ c.toNat) (hhigh : c.toNat < 0x7F) :
    isUnprintable c = false := by
  have hranges : ∀ range ∈ Unprintable.ranges, range.2 < 0x20 ∨ 0x7F ≤ range.1 := by decide +kernel
  rw [isUnprintable, List.any_eq_false]
  intro range hrange
  have := hranges range hrange
  simp only [Bool.and_eq_true, decide_eq_true_eq]
  omega

theorem escape_of_isPlain {c : Char} (h : IsPlain c) : escape '"' c = [c] := by
  obtain ⟨hlow, hhigh, hquote, hslash⟩ := h
  -- The characters with an escape of their own are below all that show themselves.
  have hcontrol : ∀ d : Char, d.toNat < 0x20 → c ≠ d := by
    rintro d hd rfl
    omega
  unfold escape
  rw [if_neg (hcontrol _ (by decide)), if_neg (hcontrol _ (by decide)), if_neg (hcontrol _ (by decide)),
    if_neg (hcontrol _ (by decide)), if_neg (not_or.mpr ⟨hslash, hquote⟩), not_isExtender hhigh,
    not_isUnprintable hlow hhigh, if_neg (by decide)]

theorem ofString_of_isPlain {text : String} (h : ∀ c ∈ text.toList, IsPlain c) :
    ofString text = "\"" ++ text ++ "\"" := by
  have hescape : text.toList.flatMap (escape '"') = text.toList :=
    (List.flatMap_congr fun c hc => escape_of_isPlain (h c hc)).trans (List.flatMap_singleton' _)
  apply String.toList_inj.mp
  rw [ofString, between, String.toList_ofList, hescape]
  simp

theorem isPlain_of_isDigit {c : Char} (h : c.isDigit) : IsPlain c := by
  obtain ⟨hlow, hhigh⟩ := Char.isDigit_iff_toNat.mp h
  have h0 : '0'.toNat = 48 := rfl
  have h9 : '9'.toNat = 57 := rfl
  refine ⟨by omega, by omega, ?_, ?_⟩
  · rintro rfl
    exact absurd h (by decide)
  · rintro rfl
    exact absurd h (by decide)

end Quoted

/-! ## One token -/

namespace Token

theorem isPlain_symbol (t : Token) : ∀ c ∈ t.symbol.toList, Quoted.IsPlain c := by
  cases t with
  | integer value =>
    intro c hc
    obtain ⟨sign, run, htext, hsign, -, hdigits, -⟩ := Decimal.canonical_ofInt value.toInt
    rw [symbol, htext] at hc
    rcases List.mem_append.mp hc with hc | hc
    · rcases hsign with rfl | rfl
      · cases hc
      · rw [List.mem_singleton.mp hc]
        decide
    · exact Quoted.isPlain_of_isDigit (hdigits c hc)
  | _ => exact List.all_iff_forall_prop.mp (by decide)

/-- The line that shows a token. -/
def shown (t : Token) : String :=
  "Type: " ++ t.kind.name ++ " Lexeme: " ++ ("\"" ++ t.symbol ++ "\"")

theorem dumpLine_eq (t : Token) : t.dumpLine = t.shown ++ "\n" := by
  rw [dumpLine, Quoted.ofString_of_isPlain t.isPlain_symbol]
  rfl

theorem oneLine_shown (t : Token) : OneLine t.shown := by
  have hstart : OneLine "Type: " := by decide
  have hmiddle : OneLine " Lexeme: " := by decide
  have hquote : OneLine "\"" := by decide
  have hsymbol : OneLine t.symbol := fun hfeed => absurd (t.isPlain_symbol _ hfeed) (by decide)
  exact ((hstart.append t.kind.oneLine_name).append hmiddle).append ((hquote.append hsymbol).append hquote)

end Token

namespace Dump

/-- How a line that shows a number starts. -/
def numberStart : String := "Type: INTEGER Lexeme: \""

/-- The token that a line shows. -/
def token? (line : String) : Option Token :=
  if numberStart.toList <+: line.toList then
    (Decimal.word? (line.toList.drop numberStart.length).dropLast).map .integer
  else (.endOfInput :: Item.signs).find? (·.shown = line)

/-- **The line that shows a token tells what token it is.** -/
theorem token?_shown (t : Token) : token? t.shown = some t := by
  cases t with
  | integer value =>
    have hshown : (Token.integer value).shown.toList =
        numberStart.toList ++ ((Decimal.ofInt value.toInt).toList ++ ['"']) := by
      simp [Token.shown, Token.kind, Token.Kind.name, Token.symbol, numberStart]
    rw [token?, hshown, if_pos (List.prefix_append _ _), ← String.length_toList, List.drop_left,
      List.dropLast_concat, Decimal.word?_ofInt]
    rfl
  | _ => decide

/-! ## Many tokens -/

/-- The lines that show the tokens of some lists, one after the other. -/
def encode (lists : List (List Token)) : Bytes :=
  lists.flatten.flatMap fun t => Utf8.encode t.dumpLine

/-- All tokens that are shown. -/
def tokens (out : Bytes) : List Token :=
  (Input.cut out).1.filterMap fun line => (Utf8.decode? line).bind token?

/-- Tokens taken apart behind each end of a line. -/
def split (tokens : List Token) : List (List Token) :=
  (tokens.splitOn .endOfInput).dropLast.map (· ++ [.endOfInput])

/-- The lists of tokens that are shown. -/
def decode (out : Bytes) : List (List Token) := split (tokens out)

/-- The last token, and no other, is the end of a line. -/
def EndsOnce (tokens : List Token) : Prop :=
  ∃ body, .endOfInput ∉ body ∧ tokens = body ++ [.endOfInput]

theorem endsOnce_of_tokenize {line : String} {tokens : List Token} (h : tokenize line = .ok tokens) :
    EndsOnce tokens := by
  obtain ⟨layout, -, htokens⟩ := Layout.exists_of_tokenize h
  exact ⟨layout.tokens, ((Layout.exists_tokens_eq_iff _).mp ⟨layout, rfl⟩).1, htokens⟩

theorem tokens_flatMap (ts : List Token) : tokens (ts.flatMap fun t => Utf8.encode t.dumpLine) = ts := by
  have hlines : ∀ t ∈ ts, ∃ u : Token, t = u ∧ Utf8.encode t.dumpLine = Utf8.encode u.shown ++ [0x0A] ∧
      0x0A ∉ Utf8.encode u.shown := by
    intro t _
    refine ⟨t, rfl, ?_, Utf8.feed_not_mem_encode t.oneLine_shown⟩
    rw [t.dumpLine_eq, Utf8.encode_line]
  obtain ⟨us, hall, hcut⟩ := Input.cut_flatMap hlines
  obtain rfl : ts = us := List.forall₂_eq_eq_eq ▸ hall
  rw [tokens, hcut, List.filterMap_map]
  have hread : ((fun line => (Utf8.decode? line).bind token?) ∘ fun t : Token => Utf8.encode t.shown) = some := by
    funext t
    simp [token?_shown]
  rw [hread, List.filterMap_some]

theorem split_flatten {lists : List (List Token)} (h : ∀ tokens ∈ lists, EndsOnce tokens) :
    split lists.flatten = lists := by
  induction lists with
  | nil => rfl
  | cons tokens lists ih =>
    obtain ⟨⟨body, hbody, rfl⟩, hlists⟩ := List.forall_mem_cons.mp h
    have hrest := ih hlists
    unfold split at hrest ⊢
    rw [List.flatten_cons, List.append_assoc, List.singleton_append,
      List.splitOn_append_cons_self_of_not_mem hbody, List.dropLast_cons_of_ne_nil (List.splitOn_ne_nil _ _),
      List.map_cons, hrest]

/-- **Lists of tokens that are shown can be read again**, if each has the end of a line as its last token and
nowhere else. -/
theorem decode_encode {lists : List (List Token)} (h : ∀ tokens ∈ lists, EndsOnce tokens) :
    decode (encode lists) = lists := by
  rw [decode, encode, tokens_flatMap, split_flatten h]

end Dump

/-! ## Sessions -/

namespace Session

theorem exists_dump {s : Session} (hmode : s.mode = .tokens) {text : String}
    (h : s.mode.accepts text = true) :
    ∃ tokens, tokenize text = .ok tokens ∧ written (s.respond text).effects = Dump.encode [tokens] := by
  cases s.responds text with
  | value _ _ mode => cases hmode.symm.trans mode
  | dump tokens _ _ ok respond_eq =>
    refine ⟨tokens, ok, ?_⟩
    rw [respond_eq]
    simp [Response.success, written, Effect.toOut, Dump.encode, List.flatMap_map]
  | failure _ _ rejected => cases h.symm.trans rejected

theorem written_dumps {s : Session} (hmode : s.mode = .tokens) {successes : List String}
    (h : ∀ text ∈ successes, s.mode.accepts text = true) :
    ∃ lists : List (List Token), successes.map tokenize = lists.map .ok ∧
      (successes.flatMap fun text => written (s.respond text).effects) = Dump.encode lists := by
  induction successes with
  | nil => exact ⟨[], rfl, rfl⟩
  | cons text successes ih =>
    obtain ⟨htext, hsuccesses⟩ := List.forall_mem_cons.mp h
    obtain ⟨tokens, htokens, hwritten⟩ := exists_dump hmode htext
    obtain ⟨lists, hlists, hdump⟩ := ih hsuccesses
    refine ⟨tokens :: lists, by simp [htokens, hlists], ?_⟩
    rw [List.flatMap_cons, hwritten, hdump]
    simp [Dump.encode]

/-- A session that shows tokens, without a prompt, and ends well. -/
structure Dumps (s : Session) (input : Input) (counts : Summary) : Prop where
  mode : s.mode = .tokens
  silent : s.prompt? = none
  ok : ((s.run input).perform .sound).result = .ok counts

theorem Dumps.decode_out {s : Session} {input : Input} {counts : Summary} (h : s.Dumps input counts) :
    (s.successes (texts input.lines)).map tokenize =
        (Dump.decode ((s.run input).perform .sound).out).map .ok ∧
      (Dump.decode ((s.run input).perform .sound).out).length = counts.evaluated := by
  have hok := h.ok
  rw [Script.perform_sound] at hok
  obtain ⟨failures, haccounts⟩ := converse_accounts h.silent hok
  obtain ⟨lists, hlists, hdump⟩ := written_dumps h.mode haccounts.accepted
  have hends : ∀ tokens ∈ lists, Dump.EndsOnce tokens := by
    intro tokens htokens
    have hmem : Except.ok tokens ∈ (s.successes (texts input.lines)).map tokenize := by
      rw [hlists]
      exact List.mem_map_of_mem htokens
    obtain ⟨text, -, htext⟩ := List.mem_map.mp hmem
    exact Dump.endsOnce_of_tokenize htext
  have hout : Dump.decode ((s.run input).perform .sound).out = lists := by
    rw [Script.perform_sound, ← Dump.decode_encode hends, ← hdump, ← haccounts.written_eq]
    rfl
  have hlength : (s.successes (texts input.lines)).length = lists.length := by
    simpa using congrArg List.length hlists
  rw [hout]
  refine ⟨hlists, ?_⟩
  rw [← hlength, haccounts.evaluated_eq]
  exact (Nat.zero_add _).symm

end Session

/-- **What a session shows of tokens can be read in one way only.** On streams that never fail, let a session show
tokens, without a prompt, and end well. Then its output tells, through a decoder that knows nothing else, what
each text that was read as tokens was read as, one list after the other, and there are as many as were counted.
So two such sessions with the same output, whatever their policies and inputs, have read the same tokens, list by
list. -/
theorem run_dump_decodable {s : Session} {input : Input} {counts : Summary} (h : s.Dumps input counts) :
    ((s.successes (Session.texts input.lines)).map tokenize =
        (Dump.decode ((s.run input).perform .sound).out).map .ok ∧
      (Dump.decode ((s.run input).perform .sound).out).length = counts.evaluated) ∧
    ∀ {s' : Session} {input' : Input} {counts' : Summary}, s'.Dumps input' counts' →
      ((s'.run input').perform .sound).out = ((s.run input).perform .sound).out →
      (s'.successes (Session.texts input'.lines)).map tokenize =
        (s.successes (Session.texts input.lines)).map tokenize := by
  refine ⟨h.decode_out, fun h' hout => ?_⟩
  rw [h'.decode_out.1, hout, h.decode_out.1]

/-- Two sessions of different policies on different inputs, with the same output. -/
theorem run_dump_decodable_zeros :
    let s : Session := ⟨none, .proceed, .tokens⟩
    let s' : Session := ⟨none, .exit, .tokens⟩
    let input := Input.ofBytes (Utf8.encode "7+\nx\n")
    let input' := Input.ofBytes (Utf8.encode "07 +\n")
    s.Dumps input ⟨1, 1⟩ ∧ s'.Dumps input' ⟨1, 0⟩ ∧
      ((s'.run input').perform .sound).out = ((s.run input).perform .sound).out ∧
      (s'.successes (Session.texts input'.lines)).map tokenize =
        (s.successes (Session.texts input.lines)).map tokenize := by
  intro s s' input input'
  have hlines : input.lines = [Utf8.encode "7+", Utf8.encode "x"] := by decide
  have hlines' : input'.lines = [Utf8.encode "07 +"] := by decide
  have hblank : isBlankLine "7+" = false ∧ isBlankLine "x" = false ∧ isBlankLine "07 +" = false := by decide
  have htokens : tokenize "7+" = .ok [.integer 7, .plus, .endOfInput] := by
    rw [tokenize_eq_mapM]
    rfl
  have herror : tokenize "x" = .error (.unknownCharacter 'x' 0) := by
    rw [tokenize_eq_mapM]
    rfl
  have htokens' : tokenize "07 +" = .ok [.integer 7, .plus, .endOfInput] := by
    rw [tokenize_eq_mapM]
    rfl
  have hdumps : s.Dumps input ⟨1, 1⟩ := by
    refine ⟨rfl, rfl, ?_⟩
    rw [Script.perform_sound]
    show (Session.converse _ none _ .zero).result = _
    simp [s, hlines, Session.converse, Session.turn, hblank, Session.respond, htokens, herror, Response.success,
      Response.failure, Session.close, Script.after, Summary.add, Summary.zero]
  have hdumps' : s'.Dumps input' ⟨1, 0⟩ := by
    refine ⟨rfl, rfl, ?_⟩
    rw [Script.perform_sound]
    show (Session.converse _ none _ .zero).result = _
    simp [s', hlines', Session.converse, Session.turn, hblank, Session.respond, htokens', Response.success,
      Session.close, Script.after, Summary.add, Summary.zero]
  have hout : ((s'.run input').perform .sound).out = ((s.run input).perform .sound).out := by
    rw [Script.perform_sound, Script.perform_sound]
    show written (Session.converse _ none _ .zero).effects = written (Session.converse _ none _ .zero).effects
    simp [s, s', hlines, hlines', Session.converse, Session.turn, hblank, Session.respond, htokens, herror, htokens',
      Response.success, Response.failure, Session.close, Script.after, Summary.add, written, Effect.toOut,
      Session.ask]
  exact ⟨hdumps, hdumps', hout, (run_dump_decodable hdumps).2 hdumps' hout⟩

end LineCalc
