/-
Requests to a lexer, in any order.

There are three of them: for the next token, whatever has been met before; for the next token, unless an error
has been met; and for all that is left, which is the second one again and again. All that matters to a reply
is the text that is not read yet, and whether an error has been met. `Lexer.serve_induction` is the one
induction over requests. By it, what has been handed out and what is left make up the items of the line, at
any time (`Lexer.Stands`), and everything else follows from that.
-/
import LineCalc.Proofs.Rejection

namespace LineCalc

/-! ## Requests and replies -/

/-- A token or an error, and the piece of the line that it stands for: the bytes from `start` up to `stop`. -/
structure Piece where
  result : Except LexError Token
  start : Nat
  stop : Nat

/-- What a request leads to. -/
inductive Reply where
  | handed (piece : Piece)
  /-- The end of the line has been met, at this offset. -/
  | ended (position : Nat)
  /-- Nothing is handed out, since an error has been met before. -/
  | silent

namespace Reply

def piece? : Reply → Option Piece
  | handed piece => some piece
  | _ => none

/-- Up to where the line has been read, if the reply tells. -/
def reached? : Reply → Option Nat
  | handed piece => some piece.stop
  | ended position => some position
  | silent => none

/-- The pieces among some replies. -/
def pieces (replies : List Reply) : List Piece := replies.filterMap piece?

/-- Up to where a line has been read: to the end of the last piece, or of the line itself. -/
def reached (replies : List Reply) : Nat := (replies.filterMap reached?).getLastD 0

@[simp] theorem pieces_append (a b : List Reply) : pieces (a ++ b) = pieces a ++ pieces b :=
  List.filterMap_append

@[simp] theorem pieces_handed (p : Piece) : pieces [handed p] = [p] := rfl

@[simp] theorem pieces_ended (position : Nat) : pieces [ended position] = [] := rfl

@[simp] theorem pieces_silent : pieces [silent] = [] := rfl

@[simp] theorem reached_handed (replies : List Reply) (p : Piece) :
    reached (replies ++ [handed p]) = p.stop := by
  simp [reached, reached?]

@[simp] theorem reached_ended (replies : List Reply) (position : Nat) :
    reached (replies ++ [ended position]) = position := by
  simp [reached, reached?]

@[simp] theorem reached_silent (replies : List Reply) :
    reached (replies ++ [silent]) = reached replies := by
  simp [reached, reached?]

end Reply

namespace Lexer

/-- What a lexer can be asked for. -/
inductive Request where
  /-- The next token. -/
  | token
  /-- The next token, unless an error has been met. -/
  | next
  /-- All tokens that are left, unless an error has been met. -/
  | rest
  deriving DecidableEq, Repr

/-- What `nextToken` hands out, and the piece of the line that it has taken. -/
def askToken (l : Lexer) : Reply × Lexer :=
  match l.nextToken with
  | (.ok .endOfInput, after) => (.ended after.position, after)
  | (result, after) => (.handed ⟨result, after.position, after.cursor⟩, after)

/-- What `next?` hands out. If that is nothing, the line has ended, or there was an error before. -/
def askNext (l : Lexer) : Reply × Lexer :=
  match l.next? with
  | (some result, after) => (.handed ⟨result, after.position, after.cursor⟩, after)
  | (none, after) => (if l.failed then .silent else .ended after.position, after)

/-- All that is handed out while `next?` is asked until it hands out nothing. -/
def askRest (l : Lexer) : List Reply × Lexer :=
  match _h : l.next? with
  | (none, _) => ([l.askNext.1], l.askNext.2)
  | (some _, after) => (l.askNext.1 :: after.askRest.1, after.askRest.2)
termination_by l.rest.length
decreasing_by all_goals exact length_next?_lt _h

/-- The replies to one request. -/
def answer (l : Lexer) : Request → List Reply × Lexer
  | .token => ([l.askToken.1], l.askToken.2)
  | .next => ([l.askNext.1], l.askNext.2)
  | .rest => l.askRest

/-- The replies to requests one after the other. -/
def serve (l : Lexer) : List Request → List Reply × Lexer
  | [] => ([], l)
  | request :: requests =>
    let (replies, after) := l.answer request
    let (more, last) := after.serve requests
    (replies ++ more, last)

/-! ## One request -/

theorem stops_of_failed {l : Lexer} (h : l.failed) : l.next? = (none, l) ∧ l.drain = ([], l) := by
  have hnext : l.next? = (none, l) := if_pos h
  rw [drain_eq, hnext]
  exact ⟨rfl, rfl⟩

theorem askNext_eq (l : Lexer) : l.askNext = if l.failed then (.silent, l) else l.askToken := by
  unfold askNext next?
  by_cases h : l.failed
  · simp [h]
  · simp only [h, askToken]
    rcases l.nextToken with ⟨_ | token, after⟩
    · rfl
    · cases token <;> rfl

theorem askRest_eq (l : Lexer) :
    l.askRest = match l.next? with
      | (none, _) => ([l.askNext.1], l.askNext.2)
      | (some _, after) => (l.askNext.1 :: after.askRest.1, after.askRest.2) := by
  rw [askRest]
  split <;> rename_i found <;> rw [found]

theorem askRest_eq_drain (l : Lexer) :
    (Reply.pieces l.askRest.1).map Piece.result = l.drain.1 ∧ l.askRest.2 = l.drain.2 := by
  rw [askRest_eq, drain_eq, askNext]
  rcases hnext : l.next? with ⟨_ | result, after⟩
  · dsimp only
    split <;> exact ⟨rfl, rfl⟩
  · have hless := length_next?_lt hnext
    obtain ⟨hresults, hlast⟩ := after.askRest_eq_drain
    exact ⟨congrArg (result :: ·) hresults, hlast⟩
termination_by l.rest.length

end Lexer

/-- An item as a piece of its line. -/
def Item.piece (item : Item) : Piece :=
  ⟨item.read, item.position, item.position + byteSize item.text⟩

namespace Lexer

theorem askToken_of_read {l after : Lexer} {item : Item} (h : l.nextToken = (item.read, after))
    (hposition : after.position = item.position)
    (hcursor : after.cursor = item.position + byteSize item.text) :
    l.askToken = (.handed item.piece, after) := by
  have ne : item.read ≠ .ok .endOfInput := fun he =>
    item.token?_ne_endOfInput (Item.read_eq_ok_iff.mp he)
  rw [askToken, h, Item.piece, ← hcursor, ← hposition]
  split
  next hend =>
    obtain ⟨hread, -⟩ := Prod.mk.inj hend
    exact absurd hread ne
  next hother =>
    cases hother
    rfl

/-! ## All requests -/

theorem askRest_induction {motive : List Reply → Lexer → Prop}
    (next : ∀ replies l, motive replies l → motive (replies ++ [l.askNext.1]) l.askNext.2)
    {replies : List Reply} {l : Lexer} (h : motive replies l) :
    motive (replies ++ l.askRest.1) l.askRest.2 := by
  rw [askRest_eq]
  rcases hnext : l.next? with ⟨_ | result, after⟩
  · exact next replies l h
  · have hless := length_next?_lt hnext
    have hafter : l.askNext.2 = after := by simp [askNext, hnext]
    have hfirst := next replies l h
    rw [hafter] at hfirst
    have hrest := askRest_induction next hfirst
    rw [List.append_assoc] at hrest
    exact hrest
termination_by l.rest.length

/-- **To prove something of all requests**, prove it of one for a token, and of one that is not answered. -/
theorem serve_induction {motive : List Reply → Lexer → Prop}
    (token : ∀ replies l, motive replies l → motive (replies ++ [l.askToken.1]) l.askToken.2)
    (silent : ∀ replies l, l.failed → motive replies l → motive (replies ++ [.silent]) l)
    (replies : List Reply) {l : Lexer} (h : motive replies l) (requests : List Request) :
    motive (replies ++ (l.serve requests).1) (l.serve requests).2 := by
  have next : ∀ replies l, motive replies l → motive (replies ++ [l.askNext.1]) l.askNext.2 := by
    intro replies l h
    rw [askNext_eq]
    by_cases hfailed : l.failed
    · rw [if_pos hfailed]
      exact silent replies l hfailed h
    · rw [if_neg hfailed]
      exact token replies l h
  induction requests generalizing replies l with
  | nil => simpa [serve] using h
  | cons request requests ih =>
    have hanswer : motive (replies ++ (l.answer request).1) (l.answer request).2 := by
      cases request with
      | token => exact token replies l h
      | next => exact next replies l h
      | rest => exact askRest_induction next h
    have hserve := ih _ hanswer
    rw [List.append_assoc] at hserve
    exact hserve

end Lexer

/-! ## The items of a line, as pieces -/

namespace Item

theorem exists_read_eq_error_iff {item : Item} : (∃ error, item.read = .error error) ↔ item.token? = none := by
  simp [read_eq_error_iff]

theorem pairwise_stop (offset : Nat) (text : List Char) :
    (cut offset text).Pairwise fun a b => a.piece.stop ≤ b.piece.start := by
  induction text using text_induction generalizing offset with
  | nil => exact .nil
  | blank cs ih =>
    rw [cut_blank]
    exact ih _
  | item first rest hl ih =>
    rw [hl.cut_eq]
    exact .cons (fun item h => (position_of_mem_cut h).1) (ih _)

theorem length_cut_le (offset : Nat) (text : List Char) : (cut offset text).length ≤ text.length := by
  induction text using text_induction generalizing offset with
  | nil => exact Nat.le_refl 0
  | blank cs ih =>
    have := ih (offset + 1)
    rw [cut_blank, List.length_cons]
    omega
  | item first rest hl ih =>
    have := ih (offset + byteSize first)
    have := List.length_pos_iff.mpr hl.ne_nil
    rw [hl.cut_eq, List.length_cons, List.length_append]
    omega

end Item

/-- The piece is what it says, where it says: the text there is an item, and read as such. -/
def Piece.StandsIn (p : Piece) (line : String) : Prop :=
  ∃ front slice rest, line.toList = front ++ (slice ++ rest) ∧ byteSize front = p.start ∧
    p.start + byteSize slice = p.stop ∧ Item.Leads slice rest ∧ (Item.mk slice p.start).read = p.result

theorem Item.standsIn_of_mem {line : String} {item : Item} (h : item ∈ ofLine line) :
    item.piece.StandsIn line := by
  obtain ⟨before, after, hitems⟩ := List.append_of_mem h
  obtain ⟨front, rest, htext, -, hposition, hl, -⟩ := exists_divided hitems
  rw [Nat.zero_add] at hposition
  exact ⟨front, item.text, rest, htext, hposition.symm, rfl, hl, rfl⟩

theorem Piece.StandsIn.start_lt_stop {p : Piece} {line : String} (h : p.StandsIn line) :
    p.start < p.stop := by
  obtain ⟨front, slice, rest, -, -, hstop, hl, -⟩ := h
  have := byteSize_pos hl.ne_nil
  omega

theorem Piece.StandsIn.diagnose?_eq {p : Piece} {line : String} (h : p.StandsIn line) {error : LexError}
    (herror : p.result = .error error) : diagnose? line p.start = some error := by
  obtain ⟨front, slice, rest, htext, hfront, -, hl, hread⟩ := h
  rw [← hfront] at hread ⊢
  exact Item.diagnose?_eq htext hl (hread.trans herror)

/-! ## Where a lexer stands -/

namespace Lexer

/-- The next token is the first of the items that are left, if there is one. -/
theorem askToken_cases (l : Lexer) :
    (Item.cut l.cursor l.rest = [] ∧ l.askToken =
      (.ended (l.cursor + byteSize l.rest), l.past (l.cursor + byteSize l.rest) 0 [])) ∨
    ∃ blanks first rest, l.rest = blanks ++ (first ++ rest) ∧ Item.Leads first rest ∧
      let item : Item := ⟨first, l.cursor + byteSize blanks⟩
      Item.cut l.cursor l.rest = item :: Item.cut (item.position + byteSize first) rest ∧
      l.askToken = (.handed item.piece,
        { l.past item.position (byteSize first) rest with failed := l.failed || item.token?.isNone }) := by
  rcases l.nextToken_split with ⟨hcut, hnext⟩ | ⟨blanks, first, rest, hrest, hl, hcut, hnext⟩
  · refine .inl ⟨hcut, ?_⟩
    rw [askToken, hnext]
    rfl
  · exact .inr ⟨blanks, first, rest, hrest, hl, hcut, askToken_of_read hnext rfl rfl⟩

/-- The replies have led the lexer to where it stands in the line. -/
structure Stands (line : String) (replies : List Reply) (l : Lexer) : Prop where
  text : ∃ front, line.toList = front ++ l.rest ∧ byteSize front = l.cursor
  cursor_eq : l.cursor = Reply.reached replies
  position : ∃ front rest, line.toList = front ++ rest ∧ byteSize front = l.position
  position_le : l.position ≤ l.cursor
  /-- What has been handed out and what is left make up the items of the line. -/
  whole : Reply.pieces replies ++ (Item.cut l.cursor l.rest).map Item.piece =
    (Item.ofLine line).map Item.piece
  failed_iff : l.failed = true ↔ ∃ p ∈ Reply.pieces replies, ∃ error, p.result = .error error
  ended : ∀ position, .ended position ∈ replies → position = line.utf8ByteSize ∧ l.rest = []

theorem Stands.size_eq {line : String} {replies : List Reply} {l : Lexer} (h : Stands line replies l) :
    l.cursor + byteSize l.rest = line.utf8ByteSize := by
  obtain ⟨front, htext, hfront⟩ := h.text
  rw [← byteSize_toList, htext, byteSize_append, hfront]

theorem stands_ofString (line : String) : Stands line [] (ofString line) where
  text := ⟨[], rfl, byteSize_nil⟩
  cursor_eq := rfl
  position := ⟨[], line.toList, rfl, byteSize_nil⟩
  position_le := Nat.le_refl 0
  whole := rfl
  failed_iff := by simp [ofString, ofChars, Reply.pieces]
  ended := by simp

theorem Stands.silent {line : String} {replies : List Reply} {l : Lexer} (h : Stands line replies l) :
    Stands line (replies ++ [.silent]) l where
  text := h.text
  cursor_eq := by simpa using h.cursor_eq
  position := h.position
  position_le := h.position_le
  whole := by simpa using h.whole
  failed_iff := by simpa using h.failed_iff
  ended := by simpa using h.ended

theorem Stands.token {line : String} {replies : List Reply} {l : Lexer} (h : Stands line replies l) :
    Stands line (replies ++ [l.askToken.1]) l.askToken.2 := by
  obtain ⟨front, htext, hfront⟩ := h.text
  rcases l.askToken_cases with ⟨hcut, hask⟩ | ⟨blanks, first, rest, hrest, hl, hcut, hask⟩
  · have hend : line.toList = line.toList ++ [] ∧ byteSize line.toList = l.cursor + byteSize l.rest := by
      rw [byteSize_toList, h.size_eq]
      exact ⟨by simp, rfl⟩
    rw [hask]
    exact {
      text := ⟨_, hend⟩
      cursor_eq := by simp [past]
      position := ⟨_, _, hend⟩
      position_le := Nat.le_refl _
      whole := by simpa [hcut] using h.whole
      failed_iff := by simpa [past] using h.failed_iff
      ended := by
        intro position hended
        refine ⟨?_, rfl⟩
        rcases List.mem_append.mp hended with hended | hended
        · exact (h.ended position hended).1
        · rw [← h.size_eq]
          simpa using hended }
  · have hwhole := h.whole
    rw [hcut] at hwhole
    rw [hask]
    exact {
      text := ⟨front ++ blanks ++ first, by simp [htext, hrest], by simp [hfront, past, Nat.add_assoc]⟩
      cursor_eq := by simp [past, Item.piece]
      position := ⟨front ++ blanks, first ++ rest, by simp [htext, hrest], by simp [hfront, past]⟩
      position_le := Nat.le_add_right _ _
      whole := by simpa [past] using hwhole
      failed_iff := by
        simp only [Bool.or_eq_true, h.failed_iff, Option.isNone_iff_eq_none, Reply.pieces_append,
          Reply.pieces_handed, List.mem_append, List.mem_singleton, or_and_right, exists_or,
          exists_eq_left, Item.piece, Item.exists_read_eq_error_iff]
      ended := by
        intro position hended
        obtain ⟨-, hnil⟩ := h.ended position (by simpa using hended)
        rw [hrest] at hnil
        simp [hl.ne_nil] at hnil }

theorem stands_serve (line : String) (requests : List Request) :
    Stands line ((ofString line).serve requests).1 ((ofString line).serve requests).2 :=
  serve_induction (fun _ _ h => h.token) (fun _ _ _ h => h.silent) [] (stands_ofString line) requests

/-! ## What holds at any time -/

theorem position_le_serve {l : Lexer} (h : l.position ≤ l.cursor) (requests : List Request) :
    l.position ≤ (l.serve requests).2.position := by
  have hserve : l.position ≤ (l.serve requests).2.position ∧
      (l.serve requests).2.position ≤ (l.serve requests).2.cursor := by
    refine serve_induction (motive := fun _ l' => l.position ≤ l'.position ∧ l'.position ≤ l'.cursor)
      ?token ?silent [] ⟨Nat.le_refl _, h⟩ requests
    case token =>
      rintro - l' ⟨hle, hcursor⟩
      rcases l'.askToken_cases with ⟨-, hask⟩ | ⟨blanks, first, rest, -, -, -, hask⟩ <;>
        rw [hask] <;> simp only [past] <;> omega
    case silent => exact fun _ _ _ hl => hl
  exact hserve.1

/-- A lexer on this line, after requests with these replies. -/
structure Orderly (line : String) (replies : List Reply) (l : Lexer) : Prop where
  /-- The place is the start of a character, or the end of the line. -/
  valid : String.Pos.Raw.IsValid line ⟨l.position⟩
  le_size : l.position ≤ line.utf8ByteSize
  /-- Whatever is asked for next, the place does not move back. -/
  increases : ∀ requests, l.position ≤ (l.serve requests).2.position
  /-- What has been handed out stands in the line where it says: it is one character, or a whole digit run. -/
  standsIn : ∀ p ∈ Reply.pieces replies, p.StandsIn line
  /-- It stands there in this order, and no piece reaches into another one. -/
  apart : (Reply.pieces replies).Pairwise fun p q => p.start < q.start ∧ p.stop ≤ q.start
  length_le : (Reply.pieces replies).length ≤ line.length
  /-- From the end of the line on, there is only the end of the line. -/
  ended : ∀ position, .ended position ∈ replies → position = line.utf8ByteSize ∧
    l.nextToken.1 = .ok .endOfInput ∧ l.nextToken.2.position = line.utf8ByteSize
  /-- From an error on, nothing comes of `next?` and `drain`, and they do nothing. -/
  failed : (∃ p ∈ Reply.pieces replies, ∃ error, p.result = .error error) →
    l.next? = (none, l) ∧ l.drain = ([], l)
  /-- All that is left is what `drain` hands out. -/
  drained : (Reply.pieces l.askRest.1).map Piece.result = l.drain.1 ∧ l.askRest.2 = l.drain.2
  /-- The text to be read starts right behind the last piece, rejected or not. -/
  rest : ∃ front, line.toList = front ++ l.rest ∧ byteSize front = Reply.reached replies
  /-- The next token is the next item of the line, whether or not there was an error. -/
  goes_on : Reply.pieces (replies ++ [l.askToken.1]) =
    ((Item.ofLine line).map Item.piece).take ((Reply.pieces replies).length + 1)
  /-- What was rejected can be found out again, with no slice across a character, and a character there. -/
  diagnosed : ∀ p ∈ Reply.pieces replies, ∀ error, p.result = .error error →
    diagnose? line p.start = some error

namespace Stands

variable {line : String} {replies : List Reply} {l : Lexer}

/-- The pieces that have been handed out are the first items of the line. -/
theorem pieces_initial (h : Stands line replies l) :
    Reply.pieces replies <+: (Item.ofLine line).map Item.piece :=
  ⟨_, h.whole⟩

theorem standsIn (h : Stands line replies l) : ∀ p ∈ Reply.pieces replies, p.StandsIn line := by
  intro p hp
  obtain ⟨item, hitem, rfl⟩ := List.mem_map.mp (h.pieces_initial.subset hp)
  exact Item.standsIn_of_mem hitem

theorem apart (h : Stands line replies l) :
    (Reply.pieces replies).Pairwise fun p q => p.start < q.start ∧ p.stop ≤ q.start := by
  have hstop : (Reply.pieces replies).Pairwise fun p q => p.stop ≤ q.start :=
    (List.pairwise_map.mpr (Item.pairwise_stop 0 line.toList)).sublist h.pieces_initial.sublist
  refine hstop.imp_of_mem fun {p q} hp _ hle => ⟨?_, hle⟩
  exact Nat.lt_of_lt_of_le (h.standsIn p hp).start_lt_stop hle

theorem length_le (h : Stands line replies l) : (Reply.pieces replies).length ≤ line.length := by
  have hitems := Item.length_cut_le 0 line.toList
  have hpieces := h.pieces_initial.length_le
  rw [List.length_map] at hpieces
  exact Nat.le_trans hpieces hitems

theorem goes_on (h : Stands line replies l) : Reply.pieces (replies ++ [l.askToken.1]) =
    ((Item.ofLine line).map Item.piece).take ((Reply.pieces replies).length + 1) := by
  rw [← h.whole, List.take_length_add_append, Reply.pieces_append]
  rcases l.askToken_cases with ⟨hcut, hask⟩ | ⟨blanks, first, rest, -, -, hcut, hask⟩
  · rw [hcut, hask]
    rfl
  · rw [hcut, hask]
    rfl

theorem nextToken_of_rest_eq_nil (h : Stands line replies l) (hrest : l.rest = []) :
    l.nextToken = (.ok .endOfInput, l.past line.utf8ByteSize 0 []) := by
  have hsize := h.size_eq
  rw [hrest, byteSize_nil] at hsize
  simp [nextToken, hrest, hsize]

end Stands

/-- **A lexer keeps its order**, whatever it is asked for, how often and when: the place moves on through the
line, what is handed out is one item of the line after the other, the end of the line stays the end, an error
stops `next?` and `drain` and nothing else. -/
theorem serve_orderly (line : String) (requests : List Request) :
    Orderly line ((ofString line).serve requests).1 ((ofString line).serve requests).2 := by
  have h := stands_serve line requests
  exact {
    valid := by
      obtain ⟨front, rest, htext, hfront⟩ := h.position
      refine String.Pos.Raw.isValid_iff_exists_append.mpr ⟨_, _, eq_ofList_append htext, ?_⟩
      rw [String.Pos.Raw.ext_iff, String.byteIdx_rawEndPos]
      exact hfront.symm
    le_size := by
      rw [← h.size_eq]
      exact Nat.le_trans h.position_le (Nat.le_add_right _ _)
    increases := position_le_serve h.position_le
    standsIn := h.standsIn
    apart := h.apart
    length_le := h.length_le
    ended := by
      intro position hended
      obtain ⟨hposition, hrest⟩ := h.ended position hended
      rw [h.nextToken_of_rest_eq_nil hrest]
      exact ⟨hposition, rfl, rfl⟩
    failed := fun hpiece => stops_of_failed (h.failed_iff.mpr hpiece)
    drained := askRest_eq_drain _
    rest := by
      rw [← h.cursor_eq]
      exact h.text
    goes_on := h.goes_on
    diagnosed := fun p hp _ herror => (h.standsIn p hp).diagnose?_eq herror }

end Lexer

end LineCalc
